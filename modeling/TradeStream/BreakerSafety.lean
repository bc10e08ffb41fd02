import TradeStream.CircuitBreaker

/-! What a `CircuitBreaker` lets through while it recovers. Results may be late: a request
admitted in one state may have its result recorded in another. -/
namespace TradeStream.CircuitBreaker
open TradeStream.RunSteps

/-- What `time.time()` returns in the call. -/
def Call.time : Call → ℚ
  | .allowRequest now => now
  | .recordSuccess now => now
  | .recordFailure now => now

def Call.IsRequest : Call → Prop
  | .allowRequest _ => True
  | .recordSuccess _ => False
  | .recordFailure _ => False

variable (config : Config)

/-- The breaker after these calls. -/
def after (calls : List Call) : Breaker := calls.foldl (Breaker.step config) {}

/-- The call is a request that is let through. -/
def Breaker.admits (b : Breaker) : Call → Bool
  | .allowRequest now => (b.allowRequest config now).1
  | .recordSuccess _ => false
  | .recordFailure _ => false

/-- How many requests these calls get through. -/
def Breaker.admitted (b : Breaker) : List Call → ℕ
  | [] => 0
  | c :: rest => (b.admits config c).toNat + (b.step config c).admitted rest

/-- A failure at this time opens the breaker. -/
def Breaker.Opens (b : Breaker) (failed : ℚ) : Prop :=
  b.state ≠ .opened ∧ (b.recordFailure config failed).state = .opened

/-- A request at this time makes the breaker half-open. -/
def Breaker.EntersHalfOpen (b : Breaker) (now : ℚ) : Prop :=
  b.state ≠ .halfOpen ∧ (b.allowRequest config now).2.state = .halfOpen

/-- A failure at `failed` keeps the breaker shut at `clock`: it is open with a timer no older
than that, unless the timeout has passed since. -/
structure Breaker.ShutSince (b : Breaker) (failed clock : ℚ) : Prop where
  past : failed ≤ clock
  shut : (b.state = .opened ∧ failed ≤ b.lastFailureTime) ∨
    failed + config.recoveryTimeout ≤ clock

/-- Closed only below the threshold. -/
def Breaker.BelowThreshold (b : Breaker) : Prop :=
  b.state = .closed → b.failureCount < config.failureThreshold

variable {config}

variable (config) in
/-- What a request does to an open breaker depends on its timer alone. -/
theorem allowRequest_opened_cases {b : Breaker} (h : b.state = .opened) (now : ℚ) :
    (now < b.lastFailureTime + config.recoveryTimeout ∧
        b.allowRequest config now = (false, b)) ∨
      (b.lastFailureTime + config.recoveryTimeout ≤ now ∧
        b.allowRequest config now =
          Breaker.allowRequest config now { b with state := .halfOpen, halfOpenCalls := 0 }) := by
  by_cases helapsed : config.recoveryTimeout ≤ now - b.lastFailureTime
  · right
    exact ⟨by linarith, allowRequest_opened_of_elapsed h helapsed⟩
  · left
    exact ⟨by linarith, allowRequest_opened_of_not_elapsed h helapsed⟩

theorem Breaker.ShutSince.elapsed_of_admits {b : Breaker} {failed clock now : ℚ}
    (h : b.ShutSince config failed clock) (hnow : clock ≤ now)
    (hadmits : b.admits config (.allowRequest now)) :
    failed + config.recoveryTimeout ≤ now := by
  rcases h.shut with ⟨hopen, htimer⟩ | helapsed
  · rcases allowRequest_opened_cases config hopen now with ⟨-, hrefused⟩ | ⟨hlate, -⟩
    · simp [Breaker.admits, hrefused] at hadmits
    · linarith
  · exact helapsed.trans hnow

/-- A later call leaves it shut: only a request that comes after the timeout changes the
state, and a failure restarts the timer. -/
theorem Breaker.ShutSince.step {b : Breaker} {failed clock : ℚ} (h : b.ShutSince config failed clock)
    {c : Call} (hc : clock ≤ c.time) :
    (b.step config c).ShutSince config failed c.time := by
  have hpast : failed ≤ c.time := h.past.trans hc
  refine ⟨hpast, ?_⟩
  rcases h.shut with ⟨hopen, htimer⟩ | helapsed
  · cases c with
    | allowRequest now =>
      rcases allowRequest_opened_cases config hopen now with
        ⟨-, hrefused⟩ | ⟨hlate, -⟩
      · left
        simpa only [Breaker.step, hrefused] using ⟨hopen, htimer⟩
      · right
        have htime : (Call.allowRequest now).time = now := rfl
        linarith
    | recordSuccess now =>
      left
      simpa [Breaker.step, Breaker.recordSuccess, hopen] using htimer
    | recordFailure now =>
      left
      simpa [Breaker.step, Breaker.recordFailure, hopen, Call.time] using hpast
  · right
    exact helapsed.trans hc

theorem Breaker.ShutSince.elapsed_of_admits_after {b : Breaker} {failed clock now : ℚ}
    (h : b.ShutSince config failed clock) {between : List Call}
    (hclock : (between ++ [Call.allowRequest now]).Pairwise fun c d => c.time ≤ d.time)
    (hlater : ∀ c ∈ between ++ [Call.allowRequest now], clock ≤ c.time)
    (hadmits : (between.foldl (Breaker.step config) b).admits config (.allowRequest now)) :
    failed + config.recoveryTimeout ≤ now := by
  induction between generalizing b clock with
  | nil =>
    have hnow : clock ≤ now := hlater _ List.mem_cons_self
    exact h.elapsed_of_admits hnow hadmits
  | cons c rest ih =>
    rw [List.cons_append, List.pairwise_cons] at hclock
    have hc : clock ≤ c.time := hlater c List.mem_cons_self
    exact ih (h.step hc) hclock.2 hclock.1 hadmits

theorem shutSince_of_opens {b : Breaker} {failed : ℚ} (h : b.Opens config failed) :
    (b.recordFailure config failed).ShutSince config failed failed := by
  refine ⟨le_rfl, Or.inl ⟨h.2, ?_⟩⟩
  simp only [Breaker.recordFailure]
  split_ifs <;> exact le_rfl

/-- Half-open, requests take what is left of the probes and nothing else happens. -/
theorem admitted_halfOpen_le {b : Breaker} (h : b.state = .halfOpen) {calls : List Call}
    (hrequests : ∀ c ∈ calls, c.IsRequest) :
    (b.admitted config calls : ℤ) + b.halfOpenCalls ≤
      max config.halfOpenMaxCalls b.halfOpenCalls := by
  induction calls generalizing b with
  | nil =>
    have hnone : b.admitted config [] = 0 := rfl
    rw [hnone, Nat.cast_zero, zero_add]
    exact le_max_right _ _
  | cons c rest ih =>
    have hrest : ∀ d ∈ rest, d.IsRequest := fun d hd => hrequests d (List.mem_cons_of_mem c hd)
    cases c with
    | allowRequest now =>
      by_cases hprobe : b.halfOpenCalls < config.halfOpenMaxCalls
      · have hstep : b.allowRequest config now = _ := allowRequest_halfOpen h now
        rw [if_pos hprobe] at hstep
        have hnext := ih (b := { b with halfOpenCalls := b.halfOpenCalls + 1 }) h hrest
        simp only [Breaker.admitted, Breaker.admits, Breaker.step, hstep, Bool.toNat_true]
        push_cast at hnext ⊢
        omega
      · have hstep : b.allowRequest config now = _ := allowRequest_halfOpen h now
        rw [if_neg hprobe] at hstep
        have hnext := ih h hrest
        simp only [Breaker.admitted, Breaker.admits, Breaker.step, hstep, Bool.toNat_false]
        push_cast
        omega
    | recordSuccess now => exact (hrequests _ List.mem_cons_self).elim
    | recordFailure now => exact (hrequests _ List.mem_cons_self).elim

/-- The request that makes the breaker half-open is answered as by one that is half-open
with no probe used. -/
theorem admitted_of_entersHalfOpen {b : Breaker} {now : ℚ} (h : b.EntersHalfOpen config now)
    {between : List Call} (hrequests : ∀ c ∈ between, c.IsRequest) :
    (b.admitted config (.allowRequest now :: between) : ℤ) ≤ max config.halfOpenMaxCalls 0 := by
  have hopen : b.state = .opened := by
    cases hstate : b.state with
    | closed =>
      have hnext := h.2
      simp [allowRequest_closed hstate, hstate] at hnext
    | halfOpen => exact absurd hstate h.1
    | opened => rfl
  rcases allowRequest_opened_cases config hopen now with ⟨-, hrefused⟩ | ⟨-, hanswer⟩
  · have hnext := h.2
    simp [hrefused, hopen] at hnext
  · have hall : ∀ c ∈ Call.allowRequest now :: between, c.IsRequest :=
      List.forall_mem_cons.mpr ⟨trivial, hrequests⟩
    have hprobes := @admitted_halfOpen_le config
      { b with state := .halfOpen, halfOpenCalls := 0 } rfl _ hall
    simpa only [Breaker.admitted, Breaker.admits, Breaker.step, hanswer, Nat.cast_zero,
      add_zero] using hprobes

theorem belowThreshold_step (hthreshold : 0 < config.failureThreshold) {b : Breaker}
    (h : b.BelowThreshold config) (c : Call) : (b.step config c).BelowThreshold config := by
  intro hclosed
  cases c with
  | allowRequest now =>
    -- a request never closes the breaker
    cases hstate : b.state with
    | closed =>
      simpa [Breaker.step, allowRequest_closed hstate] using h hstate
    | opened =>
      rcases allowRequest_opened_cases config hstate now with
        ⟨-, hanswer⟩ | ⟨-, hanswer⟩
      · simp [Breaker.step, hanswer, hstate] at hclosed
      · have hprobe := @allowRequest_halfOpen config
          { b with state := .halfOpen, halfOpenCalls := 0 } rfl now
        simp only [Breaker.step, hanswer, hprobe] at hclosed
        split_ifs at hclosed
    | halfOpen =>
      simp only [Breaker.step, allowRequest_halfOpen hstate] at hclosed
      split_ifs at hclosed <;> simp [hstate] at hclosed
  | recordSuccess now => simpa [Breaker.step, Breaker.recordSuccess] using hthreshold
  | recordFailure now =>
    simp only [Breaker.step, Breaker.recordFailure] at hclosed ⊢
    split_ifs at hclosed ⊢ with hhalf hreached
    · push_cast
      by_contra hnot
      exact hreached ⟨hclosed, by push_cast; omega⟩

theorem recordFailure_halfOpen {b : Breaker} (h : b.state = .halfOpen) (now : ℚ) :
    (b.recordFailure config now).state = .opened ∧
      (b.recordFailure config now).lastFailureTime = now := by
  simp [Breaker.recordFailure, h]

/-- What a run of calls shows of the breaker. -/
structure Safe (config : Config) (calls : List Call) : Prop where
  /-- Nothing is let through in the recovery timeout after the failure that opened it. -/
  recovering : ∀ earlier failed between now,
    earlier ++ .recordFailure failed :: (between ++ [.allowRequest now]) <+: calls →
      (after config earlier).Opens config failed →
      (after config (earlier ++ .recordFailure failed :: between)).admits config
          (.allowRequest now) →
      failed + config.recoveryTimeout ≤ now
  /-- Half-open, it lets no more through than its probes until a result is recorded. -/
  probing : ∀ earlier now between,
    earlier ++ .allowRequest now :: between <+: calls →
      (after config earlier).EntersHalfOpen config now → (∀ c ∈ between, c.IsRequest) →
      ((after config earlier).admitted config (.allowRequest now :: between) : ℤ) ≤
        max config.halfOpenMaxCalls 0
  /-- Closed, it has counted fewer failures than the threshold. -/
  closed : ∀ reached, reached <+: calls → (after config reached).BelowThreshold config
  /-- The failure of a probe opens it again, with its timer restarted. -/
  reopened : ∀ earlier now, earlier ++ [.recordFailure now] <+: calls →
    (after config earlier).state = .halfOpen →
      (after config (earlier ++ [.recordFailure now])).state = .opened ∧
        (after config (earlier ++ [.recordFailure now])).lastFailureTime = now

/-- Whatever the order of requests and results, with a clock that does not go back. The
breakers of the services all have a positive threshold. -/
theorem breaker_safe (config : Config) (hthreshold : 0 < config.failureThreshold)
    (calls : List Call) (hclock : calls.Pairwise fun c d => c.time ≤ d.time) :
    Safe config calls where
  recovering := by
    intro earlier failed between now hpre hopens hadmits
    have hrun := hclock.sublist hpre.sublist
    have hafter := (List.pairwise_append.mp hrun).2.1
    rw [List.pairwise_cons] at hafter
    have hshut := shutSince_of_opens hopens
    rw [after, List.foldl_append, List.foldl_cons] at hadmits
    exact hshut.elapsed_of_admits_after hafter.2 hafter.1 hadmits
  probing := by
    intro earlier now between _ henters hrequests
    exact admitted_of_entersHalfOpen henters hrequests
  closed := by
    intro reached _
    apply List.foldlRecOn
    · intro _
      exact hthreshold
    · exact fun b hb c _ => belowThreshold_step hthreshold hb c
  reopened := by
    intro earlier now _ hhalf
    rw [after, List.foldl_append]
    exact recordFailure_halfOpen hhalf now

/-- Two requests come too early or too late for the one probe, and the probe fails. -/
theorem breaker_safe_probeFails :
    Safe { failureThreshold := 1 } [.recordFailure 1, .allowRequest 30, .allowRequest 61,
      .allowRequest 62, .recordFailure 63] :=
  breaker_safe { failureThreshold := 1 } (by decide) _ (by
    simp only [List.pairwise_cons, List.mem_cons, forall_eq_or_imp, Call.time]
    norm_num)

end TradeStream.CircuitBreaker
