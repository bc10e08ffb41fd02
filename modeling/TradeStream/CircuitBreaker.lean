import TradeStream.RunSteps

/-! `CircuitBreaker` of `services/shared`, and the runner's cycles that ask it. A call takes
the time that `time.time()` returns in it. -/
namespace TradeStream.CircuitBreaker
open TradeStream.RunSteps

inductive State where
  | closed
  | opened
  | halfOpen
  deriving DecidableEq, Repr

structure Config where
  failureThreshold : ℤ := 5
  recoveryTimeout : ℚ := 60
  halfOpenMaxCalls : ℤ := 1

structure Breaker where
  state : State := .closed
  failureCount : ℕ := 0
  successCount : ℕ := 0
  lastFailureTime : ℚ := 0
  halfOpenCalls : ℕ := 0
  deriving DecidableEq

/-- The calls of a breaker's users, each at its time. -/
inductive Call where
  | allowRequest (now : ℚ)
  | recordSuccess (now : ℚ)
  | recordFailure (now : ℚ)

variable (config : Config)

def Breaker.evaluateState (now : ℚ) (b : Breaker) : Breaker :=
  if b.state = .opened ∧ config.recoveryTimeout ≤ now - b.lastFailureTime then
    { b with state := .halfOpen, halfOpenCalls := 0 }
  else b

def Breaker.allowRequest (now : ℚ) (b : Breaker) : Bool × Breaker :=
  let b := b.evaluateState config now
  match b.state with
  | .closed => (true, b)
  | .halfOpen =>
    if b.halfOpenCalls < config.halfOpenMaxCalls then
      (true, { b with halfOpenCalls := b.halfOpenCalls + 1 })
    else (false, b)
  | .opened => (false, b)

def Breaker.recordSuccess (b : Breaker) : Breaker :=
  { b with
    state := if b.state = .halfOpen then .closed else b.state
    successCount := b.successCount + 1
    failureCount := 0 }

def Breaker.recordFailure (now : ℚ) (b : Breaker) : Breaker :=
  let b := { b with failureCount := b.failureCount + 1, lastFailureTime := now }
  if b.state = .halfOpen then { b with state := .opened }
  else if b.state = .closed ∧ config.failureThreshold ≤ b.failureCount then
    { b with state := .opened }
  else b

def Breaker.step (b : Breaker) : Call → Breaker
  | .allowRequest now => (b.allowRequest config now).2
  | .recordSuccess _ => b.recordSuccess
  | .recordFailure now => b.recordFailure config now

/-- `_run_cycle`: a cycle that is not admitted ends there, any other makes the calls that
processing the symbols leads to. -/
structure Cycle where
  now : ℚ
  records : List Call

def Breaker.runCycle (b : Breaker) (cycle : Cycle) : Breaker :=
  let (allowed, b) := b.allowRequest config cycle.now
  if allowed then cycle.records.foldl (Breaker.step config) b else b

/-- Whenever a caller comes, there is a later time at which it is let through. -/
def Breaker.LetsThrough (b : Breaker) : Prop :=
  ∀ now, ∃ later, now ≤ later ∧ (b.allowRequest config later).1 = true

/-- The probes of `HALF_OPEN` are not used up. -/
def Breaker.HasProbe (b : Breaker) : Prop :=
  match b.state with
  | .closed => True
  | .opened => 0 < config.halfOpenMaxCalls
  | .halfOpen => b.halfOpenCalls < config.halfOpenMaxCalls

/-- A call that leaves a probe: no request takes the last one, and no failure opens a
breaker that has none to give. -/
def Breaker.KeepsProbe (b : Breaker) : Call → Prop
  | .allowRequest now =>
    (b.evaluateState config now).state = .halfOpen →
      (b.evaluateState config now).halfOpenCalls + 1 < config.halfOpenMaxCalls
  | .recordSuccess _ => True
  | .recordFailure _ =>
    b.state = .closed → config.failureThreshold ≤ b.failureCount + 1 →
      0 < config.halfOpenMaxCalls

variable {config}

theorem allowRequest_halfOpen {b : Breaker} (h : b.state = .halfOpen) (now : ℚ) :
    b.allowRequest config now =
      if b.halfOpenCalls < config.halfOpenMaxCalls then
        (true, { b with halfOpenCalls := b.halfOpenCalls + 1 })
      else (false, b) := by
  have heval : b.evaluateState config now = b := by simp [Breaker.evaluateState, h]
  simp only [Breaker.allowRequest, heval, h]

theorem allowRequest_closed {b : Breaker} (h : b.state = .closed) (now : ℚ) :
    b.allowRequest config now = (true, b) := by
  have heval : b.evaluateState config now = b := by simp [Breaker.evaluateState, h]
  simp only [Breaker.allowRequest, heval, h]

/-- Once the timeout has elapsed, an open breaker answers as a half-open one. -/
theorem allowRequest_opened_of_elapsed {b : Breaker} (h : b.state = .opened) {now : ℚ}
    (helapsed : config.recoveryTimeout ≤ now - b.lastFailureTime) :
    b.allowRequest config now =
      Breaker.allowRequest config now { b with state := .halfOpen, halfOpenCalls := 0 } := by
  simp [Breaker.allowRequest, Breaker.evaluateState, h, helapsed]

theorem allowRequest_opened_of_not_elapsed {b : Breaker} (h : b.state = .opened) {now : ℚ}
    (helapsed : ¬ config.recoveryTimeout ≤ now - b.lastFailureTime) :
    b.allowRequest config now = (false, b) := by
  simp [Breaker.allowRequest, Breaker.evaluateState, h, helapsed]

theorem letsThrough_iff_hasProbe (b : Breaker) :
    b.LetsThrough config ↔ b.HasProbe config := by
  cases hstate : b.state with
  | closed =>
    simp only [Breaker.LetsThrough, Breaker.HasProbe, hstate, allowRequest_closed hstate]
    exact iff_true_intro fun now => ⟨now, le_rfl, trivial⟩
  | halfOpen =>
    simp only [Breaker.LetsThrough, Breaker.HasProbe, hstate, allowRequest_halfOpen hstate]
    constructor
    · intro h
      obtain ⟨later, -, hlater⟩ := h 0
      by_contra hused
      simp [hused] at hlater
    · intro hprobe now
      exact ⟨now, le_rfl, by simp [hprobe]⟩
  | opened =>
    simp only [Breaker.LetsThrough, Breaker.HasProbe, hstate]
    constructor
    · intro h
      obtain ⟨later, -, hlater⟩ := h 0
      by_contra hnone
      by_cases helapsed : config.recoveryTimeout ≤ later - b.lastFailureTime
      · rw [allowRequest_opened_of_elapsed hstate helapsed, allowRequest_halfOpen rfl] at hlater
        simp [hnone] at hlater
      · simp [allowRequest_opened_of_not_elapsed hstate helapsed] at hlater
    · intro hprobe now
      -- the timer has run out by then, whatever the time now
      let later := max now (b.lastFailureTime + config.recoveryTimeout)
      have helapsed : config.recoveryTimeout ≤ later - b.lastFailureTime := by
        have hlater : b.lastFailureTime + config.recoveryTimeout ≤ later := le_max_right _ _
        linarith
      refine ⟨later, le_max_left _ _, ?_⟩
      rw [allowRequest_opened_of_elapsed hstate helapsed, allowRequest_halfOpen rfl]
      simp [hprobe]

/-- Half-open, an admitted request takes one of the probes. -/
theorem hasProbe_allowRequest_halfOpen_iff {b : Breaker} (hstate : b.state = .halfOpen)
    (h : b.HasProbe config) (now : ℚ) :
    (b.allowRequest config now).2.HasProbe config ↔
      b.halfOpenCalls + 1 < config.halfOpenMaxCalls := by
  have hlt : b.halfOpenCalls < config.halfOpenMaxCalls := by
    simpa [Breaker.HasProbe, hstate] using h
  rw [allowRequest_halfOpen hstate, if_pos hlt]
  simp [Breaker.HasProbe, hstate]

theorem hasProbe_allowRequest_iff {b : Breaker} (h : b.HasProbe config) (now : ℚ) :
    (b.allowRequest config now).2.HasProbe config ↔
      b.KeepsProbe config (.allowRequest now) := by
  simp only [Breaker.KeepsProbe]
  cases hstate : b.state with
  | closed =>
    rw [allowRequest_closed hstate]
    simp [h, Breaker.evaluateState, hstate]
  | halfOpen =>
    rw [hasProbe_allowRequest_halfOpen_iff hstate h]
    simp [Breaker.evaluateState, hstate]
  | opened =>
    by_cases helapsed : config.recoveryTimeout ≤ now - b.lastFailureTime
    · have hpos : 0 < config.halfOpenMaxCalls := by simpa [Breaker.HasProbe, hstate] using h
      rw [allowRequest_opened_of_elapsed hstate helapsed,
        hasProbe_allowRequest_halfOpen_iff rfl (by simpa [Breaker.HasProbe] using hpos)]
      simp [Breaker.evaluateState, hstate, helapsed]
    · rw [allowRequest_opened_of_not_elapsed hstate helapsed]
      simp [h, Breaker.evaluateState, hstate, helapsed]

theorem hasProbe_recordSuccess {b : Breaker} (h : b.HasProbe config) :
    b.recordSuccess.HasProbe config := by
  cases hstate : b.state with
  | closed => simp [Breaker.recordSuccess, Breaker.HasProbe, hstate]
  | halfOpen => simp [Breaker.recordSuccess, Breaker.HasProbe, hstate]
  | opened => simpa [Breaker.recordSuccess, Breaker.HasProbe, hstate] using h

theorem hasProbe_recordFailure_iff {b : Breaker} (h : b.HasProbe config) (now : ℚ) :
    (b.recordFailure config now).HasProbe config ↔
      b.KeepsProbe config (.recordFailure now) := by
  simp only [Breaker.KeepsProbe, Breaker.recordFailure]
  cases hstate : b.state with
  | closed =>
    by_cases hthreshold : config.failureThreshold ≤ b.failureCount + 1 <;>
      simp [Breaker.HasProbe, hthreshold]
  | opened => simpa [Breaker.HasProbe, hstate] using h
  | halfOpen =>
    have hlt : (b.halfOpenCalls : ℤ) < config.halfOpenMaxCalls := by
      simpa [Breaker.HasProbe, hstate] using h
    have hpos : 0 < config.halfOpenMaxCalls := by omega
    simpa [Breaker.HasProbe] using hpos

/-- What one call does to the probes. -/
theorem hasProbe_step_iff {b : Breaker} (h : b.HasProbe config) (c : Call) :
    (b.step config c).HasProbe config ↔ b.KeepsProbe config c := by
  cases c with
  | allowRequest now => exact hasProbe_allowRequest_iff h now
  | recordSuccess now => exact iff_of_true (hasProbe_recordSuccess h) trivial
  | recordFailure now => exact hasProbe_recordFailure_iff h now

/-- A breaker without a probe refuses the cycle, which then records nothing. -/
theorem runCycle_of_not_hasProbe {b : Breaker} (h : ¬ b.HasProbe config) (cycle : Cycle) :
    (b.allowRequest config cycle.now).1 = false ∧
      ¬ (b.runCycle config cycle).HasProbe config := by
  have hrefuse : ∀ b' : Breaker, b'.state = .halfOpen → ¬ b'.HasProbe config →
      b'.allowRequest config cycle.now = (false, b') := by
    intro b' hstate hprobe
    rw [allowRequest_halfOpen hstate, if_neg]
    simpa [Breaker.HasProbe, hstate] using hprobe
  cases hstate : b.state with
  | closed => simp [Breaker.HasProbe, hstate] at h
  | halfOpen =>
    rw [Breaker.runCycle, hrefuse b hstate h]
    exact ⟨rfl, h⟩
  | opened =>
    by_cases helapsed : config.recoveryTimeout ≤ cycle.now - b.lastFailureTime
    · have hnone : ¬ Breaker.HasProbe config { b with state := .halfOpen, halfOpenCalls := 0 } := by
        simpa [Breaker.HasProbe, hstate] using h
      rw [Breaker.runCycle, allowRequest_opened_of_elapsed hstate helapsed,
        hrefuse _ rfl hnone]
      exact ⟨rfl, hnone⟩
    · rw [Breaker.runCycle, allowRequest_opened_of_not_elapsed hstate helapsed]
      exact ⟨rfl, h⟩

/-- The runner does not get out of it: no cycle of any run is admitted. -/
theorem runCycles_of_not_hasProbe {b : Breaker} (h : ¬ b.HasProbe config)
    (earlier : List Cycle) (cycle : Cycle) :
    ((earlier.foldl (Breaker.runCycle config) b).allowRequest config cycle.now).1 = false := by
  induction earlier generalizing b with
  | nil => exact (runCycle_of_not_hasProbe h cycle).1
  | cons first rest ih => exact ih (runCycle_of_not_hasProbe h first).2

variable (config) in
/-- Every caller is let through at a later time, in every state of a run, exactly when
each call of the run leaves a probe. -/
theorem letsThrough_iff (calls : List Call) :
    (∀ reached, reached <+: calls →
        (reached.foldl (Breaker.step config) {}).LetsThrough config) ↔
      ∀ earlier c, earlier ++ [c] <+: calls →
        (earlier.foldl (Breaker.step config) {}).KeepsProbe config c := by
  have hinit : Breaker.HasProbe config {} := trivial
  simp only [letsThrough_iff_hasProbe]
  exact @forall_reached_iff_forall_step _ _ (Breaker.step config) (fun _ => True)
    (Breaker.HasProbe config) (Breaker.KeepsProbe config) (fun _ _ _ => trivial)
    (fun _ c _ hprobe => hasProbe_step_iff hprobe c) {} trivial hinit calls

/-- Five failures open the breaker. After its timeout it admits one cycle, which records
neither a success nor a failure. -/
theorem unrecordedProbe_not_letsThrough :
    ¬ ∀ reached, reached <+: [Call.recordFailure 1, .recordFailure 2, .recordFailure 3,
        .recordFailure 4, .recordFailure 5, .allowRequest 65] →
      Breaker.LetsThrough {} (reached.foldl (Breaker.step {}) {}) := by
  intro h
  have hlast := h _ List.prefix_rfl
  rw [letsThrough_iff_hasProbe] at hlast
  have hstate : [Call.recordFailure 1, .recordFailure 2, .recordFailure 3, .recordFailure 4,
      .recordFailure 5, .allowRequest 65].foldl (Breaker.step {}) {} =
      { state := .halfOpen, failureCount := 5, lastFailureTime := 5, halfOpenCalls := 1 } := by
    decide +kernel
  rw [hstate] at hlast
  simp [Breaker.HasProbe] at hlast

end TradeStream.CircuitBreaker
