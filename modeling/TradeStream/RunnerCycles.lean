import TradeStream.AdaptiveScheduler
import TradeStream.CircuitBreaker

/-! The cycles of the autonomous runner: `_run_cycle`, and `process_all_symbols` of the
coordinator with the scheduler that it asks and reports to. -/
namespace TradeStream.RunnerCycles
open TradeStream.RunSteps TradeStream.AdaptiveScheduler TradeStream.CircuitBreaker

structure RunnerConfig where
  symbols : List String :=
    ["BTC-USD", "ETH-USD", "SOL-USD", "DOGE-USD", "AVAX-USD", "LINK-USD"]
  maxConcurrent : ℤ := 10
  minConcurrent : ℤ := 3
  symbolTimeoutSeconds : ℚ := 10
  symbolTimeoutMaxSeconds : ℚ := 15
  failureThreshold : ℤ := 5
  recoveryTimeout : ℚ := 60
  latencyWindowSize : ℤ := 10
  p95ThresholdMs : ℚ := 8000
  p99ThresholdMs : ℚ := 9000
  backpressureMaxOverruns : ℤ := 3
  cooldownCycles : ℤ := 2

/-- The scheduler that the coordinator makes. -/
def RunnerConfig.adaptive (config : RunnerConfig) : AdaptiveScheduler.Config where
  windowSize := config.latencyWindowSize
  p95Threshold := config.p95ThresholdMs
  p99Threshold := config.p99ThresholdMs
  defaultBatchSize := config.maxConcurrent
  reducedBatchSize := config.minConcurrent
  defaultTimeout := config.symbolTimeoutSeconds
  extendedTimeout := config.symbolTimeoutMaxSeconds

/-- Its breaker. `half_open_max_calls` is not handed on. -/
def RunnerConfig.llmService (config : RunnerConfig) : CircuitBreaker.Config where
  failureThreshold := config.failureThreshold
  recoveryTimeout := config.recoveryTimeout

structure Runner where
  latencies : List ℚ := []
  llmCircuitBreaker : Breaker := {}
  cooldownRemaining : ℤ := 0
  consecutiveOverruns : ℕ := 0
  deriving DecidableEq

/-- What `_process_symbol` reports to the breaker. -/
inductive Record where
  | success
  | failure (now : ℚ)

/-- A symbol's turn in the loop. `_process_symbol` may raise before it records its
latency; its exceptions are caught in the loop, those of `acquire` are not. -/
inductive SymbolTurn where
  | acquireRaises
  | locked
  | processed (records : List Record) (latencyMs : Option ℤ)

/-- How a cycle goes on after its symbols. An exception may come before or after the
overruns are set to zero. -/
inductive Afterwards where
  | completes
  | raisesBeforeReset
  | raisesAfterReset

structure RunnerCycle where
  killSwitchActive : Bool := false
  now : ℚ
  turn : ℕ → SymbolTurn
  afterwards : Afterwards := .completes

variable (config : RunnerConfig)

def record (breaker : Breaker) : Record → Breaker
  | .success => breaker.recordSuccess
  | .failure now => breaker.recordFailure config.llmService now

/-- The loop over the symbols, and whether an exception ended it. -/
def processTurns (runner : Runner) : List SymbolTurn → Runner × Bool
  | [] => (runner, false)
  | .acquireRaises :: _ => (runner, true)
  | .locked :: rest => processTurns runner rest
  | .processed records latencyMs :: rest =>
    processTurns
      { runner with
        llmCircuitBreaker := records.foldl (record config) runner.llmCircuitBreaker
        latencies := (latencyMs.map Int.cast).toList.foldl (recordLatency config.adaptive)
          runner.latencies }
      rest

/-- The latencies that the turns record, in order. -/
def measured : List SymbolTurn → List ℚ
  | [] => []
  | .acquireRaises :: _ => []
  | .locked :: rest => measured rest
  | .processed _ latencyMs :: rest => (latencyMs.map Int.cast).toList ++ measured rest

def turns (cycle : RunnerCycle) : List SymbolTurn :=
  (List.range config.symbols.length).map cycle.turn

def effectiveBatch (runner : Runner) : ℤ :=
  min config.maxConcurrent (getState config.adaptive runner.latencies).batchSize

/-- `process_all_symbols`, and whether it raises. -/
def processAllSymbols (runner : Runner) (cycle : RunnerCycle) : Runner × Bool :=
  if (getState config.adaptive runner.latencies).shouldSkipCycle then (runner, false)
  -- `range` does not take a step of zero, and is empty for a negative one
  else if effectiveBatch config runner = 0 then (runner, true)
  else if effectiveBatch config runner < 0 then (runner, false)
  -- the batches are the whole list, in its order
  else processTurns config runner (turns config cycle)

/-- The handler of an exception in the cycle. -/
def overrun (runner : Runner) : Runner :=
  let overruns := runner.consecutiveOverruns + 1
  -- too many in a row and the next cycles are left out
  if config.backpressureMaxOverruns ≤ overruns then
    { runner with cooldownRemaining := config.cooldownCycles, consecutiveOverruns := 0 }
  else { runner with consecutiveOverruns := overruns }

def runCycle (runner : Runner) (cycle : RunnerCycle) : Runner :=
  if cycle.killSwitchActive then runner
  else if 0 < runner.cooldownRemaining then
    { runner with cooldownRemaining := runner.cooldownRemaining - 1 }
  else
    let (allowed, breaker) :=
      runner.llmCircuitBreaker.allowRequest config.llmService cycle.now
    let runner := { runner with llmCircuitBreaker := breaker }
    if allowed then
      let (runner, raised) := processAllSymbols config runner cycle
      if raised then overrun config runner
      else match cycle.afterwards with
        | .completes => { runner with consecutiveOverruns := 0 }
        | .raisesBeforeReset => overrun config runner
        | .raisesAfterReset => overrun config { runner with consecutiveOverruns := 0 }
    else runner

/-- `process_all_symbols` skips its cycle in this state. -/
def Runner.Skips (runner : Runner) : Prop :=
  (getState config.adaptive runner.latencies).shouldSkipCycle = true

/-- Every latency that the cycle may record is below the thresholds. -/
def RunnerCycle.Fast (cycle : RunnerCycle) : Prop :=
  ∀ latencyMs ∈ measured (turns config cycle),
    latencyMs < config.p95ThresholdMs ∧ latencyMs < config.p99ThresholdMs

/-- Some cycles from here on, all of them fast, end the skipping. -/
def Runner.Resumes (runner : Runner) : Prop :=
  ∃ later : List RunnerCycle, (∀ cycle ∈ later, cycle.Fast config) ∧
    ¬ (later.foldl (runCycle config) runner).Skips config

/-- The cycle gets to its symbols. -/
def Runner.Processes (runner : Runner) (cycle : RunnerCycle) : Prop :=
  cycle.killSwitchActive = false ∧ runner.cooldownRemaining ≤ 0 ∧
    (runner.llmCircuitBreaker.allowRequest config.llmService cycle.now).1 = true ∧
    0 < effectiveBatch config runner

/-- A cycle that gets to its symbols fills fewer than three places of the window, or has,
with the latencies held before, too few above the threshold to reach the percentile. -/
def Runner.StaysBelow (runner : Runner) (cycle : RunnerCycle) : Prop :=
  runner.Processes config cycle →
    let recent := measured (turns config cycle)
    let filled := min config.latencyWindowSize.toNat (runner.latencies.length + recent.length)
    filled < 3 ∨
      (runner.latencies ++ recent).countP (config.p99ThresholdMs < ·) <
        filled - filled * 99 / 100

variable {config}

theorem latencies_processTurns (runner : Runner) (turns : List SymbolTurn) :
    (processTurns config runner turns).1.latencies =
      (measured turns).foldl (recordLatency config.adaptive) runner.latencies := by
  induction turns generalizing runner with
  | nil => rfl
  | cons turn rest ih =>
    cases turn with
    | acquireRaises => rfl
    | locked => exact ih runner
    | processed records latencyMs =>
      rw [processTurns, ih, measured, List.foldl_append]

@[simp] theorem latencies_overrun (runner : Runner) :
    (overrun config runner).latencies = runner.latencies := by
  by_cases hmax : config.backpressureMaxOverruns ≤ runner.consecutiveOverruns + 1 <;>
    simp [overrun, hmax]

/-- The coordinator's part of a cycle leaves the scheduler as it is, or records what the
symbols take. -/
theorem latencies_processAllSymbols (runner : Runner) (h : ¬ runner.Skips config)
    (hbatch : 0 < effectiveBatch config runner) (cycle : RunnerCycle) :
    (processAllSymbols config runner cycle).1.latencies =
      (measured (turns config cycle)).foldl (recordLatency config.adaptive)
        runner.latencies := by
  rw [Runner.Skips] at h
  rw [processAllSymbols, if_neg h, if_neg hbatch.ne', if_neg hbatch.le.not_gt,
    latencies_processTurns]

theorem latencies_processAllSymbols_of_not (runner : Runner)
    (h : runner.Skips config ∨ ¬ 0 < effectiveBatch config runner) (cycle : RunnerCycle) :
    (processAllSymbols config runner cycle).1.latencies = runner.latencies := by
  unfold processAllSymbols
  split_ifs with hskips hzero hneg
  · rfl
  · rfl
  · rfl
  · rcases h with h | h
    · exact absurd h hskips
    · omega

theorem latencies_runCycle (runner : Runner) (cycle : RunnerCycle) :
    (runCycle config runner cycle).latencies =
      if cycle.killSwitchActive = false ∧ runner.cooldownRemaining ≤ 0 ∧
          (runner.llmCircuitBreaker.allowRequest config.llmService cycle.now).1 = true then
        (processAllSymbols config { runner with
          llmCircuitBreaker := (runner.llmCircuitBreaker.allowRequest config.llmService
            cycle.now).2 } cycle).1.latencies
      else runner.latencies := by
  unfold runCycle
  by_cases hkill : cycle.killSwitchActive = true
  · simp [hkill]
  by_cases hcooldown : 0 < runner.cooldownRemaining
  · simp [hkill, hcooldown, hcooldown.not_ge]
  by_cases hallowed :
      (runner.llmCircuitBreaker.allowRequest config.llmService cycle.now).1 = true
  · simp only [hkill, hcooldown, hallowed, not_lt.mp hcooldown, Bool.false_eq_true, ↓reduceIte,
      and_self]
    split_ifs
    · rw [latencies_overrun]
    · cases cycle.afterwards <;> simp
  · simp [hkill, hcooldown, hallowed]

/-- A cycle that gets to its symbols records what they take. -/
theorem latencies_runCycle_of_processes {runner : Runner} (h : ¬ runner.Skips config)
    {cycle : RunnerCycle} (hprocesses : runner.Processes config cycle) :
    (runCycle config runner cycle).latencies =
      (measured (turns config cycle)).foldl (recordLatency config.adaptive)
        runner.latencies := by
  obtain ⟨hkill, hcooldown, hallowed, hbatch⟩ := hprocesses
  rw [latencies_runCycle, if_pos ⟨hkill, hcooldown, hallowed⟩]
  -- the breaker is nothing to the coordinator
  apply latencies_processAllSymbols
  · exact h
  · exact hbatch

/-- Any other, and any cycle of a runner that skips, records nothing. -/
theorem latencies_runCycle_of_not {runner : Runner} {cycle : RunnerCycle}
    (h : runner.Skips config ∨ ¬ runner.Processes config cycle) :
    (runCycle config runner cycle).latencies = runner.latencies := by
  rw [latencies_runCycle]
  split_ifs with hadmitted
  · apply latencies_processAllSymbols_of_not
    refine h.imp_right fun hprocesses hbatch => ?_
    obtain ⟨hkill, hcooldown, hallowed⟩ := hadmitted
    exact hprocesses ⟨hkill, hcooldown, hallowed, hbatch⟩
  · rfl

/-- A runner that skips a cycle skips the next. -/
theorem Runner.Skips.foldl {runner : Runner} (h : runner.Skips config)
    (later : List RunnerCycle) : (later.foldl (runCycle config) runner).Skips config := by
  induction later generalizing runner with
  | nil => exact h
  | cons cycle rest ih =>
    apply ih
    rw [Runner.Skips, latencies_runCycle_of_not (.inl h)]
    exact h

/-- Skipping has no way out, so that a runner resumes only if it does not skip. -/
theorem resumes_iff_not_skips (runner : Runner) :
    runner.Resumes config ↔ ¬ runner.Skips config := by
  constructor
  · rintro ⟨later, -, hlater⟩ hskips
    exact hlater (hskips.foldl later)
  · -- no cycle is needed
    intro h
    exact ⟨[], by simp, h⟩

theorem held_measured {held : List ℚ} (h : Held config.adaptive held) (recent : List ℚ) :
    Held config.adaptive (recent.foldl (recordLatency config.adaptive) held) := by
  induction recent generalizing held with
  | nil => exact h
  | cons latencyMs rest ih => exact ih (h.recordLatency latencyMs)

theorem held_runCycle {runner : Runner} (h : Held config.adaptive runner.latencies)
    (cycle : RunnerCycle) : Held config.adaptive (runCycle config runner cycle).latencies := by
  by_cases hnone : runner.Skips config ∨ ¬ runner.Processes config cycle
  · rwa [latencies_runCycle_of_not hnone]
  · obtain ⟨hskips, hprocesses⟩ := not_or.mp hnone
    rw [latencies_runCycle_of_processes hskips (not_not.mp hprocesses)]
    exact held_measured h _

/-- The step lemma: what a cycle may record without ending the run. -/
theorem not_skips_runCycle_iff {runner : Runner} (h : Held config.adaptive runner.latencies)
    (hgoes : ¬ runner.Skips config) (cycle : RunnerCycle) :
    ¬ (runCycle config runner cycle).Skips config ↔ runner.StaysBelow config cycle := by
  by_cases hprocesses : runner.Processes config cycle
  · -- its latencies are recorded, and decide on the next cycle
    have hskip := shouldSkipCycle_foldl_iff h (measured (turns config cycle))
    rw [Runner.Skips, latencies_runCycle_of_processes hgoes hprocesses, hskip]
    simp only [Runner.StaysBelow, hprocesses, true_implies, not_and_or, not_le]
    exact Iff.rfl
  · rw [Runner.Skips, latencies_runCycle_of_not (.inr hprocesses)]
    simp only [Runner.StaysBelow, hprocesses, false_implies, iff_true]
    exact hgoes

variable (config) in
/-- Skipping is never permanent, in any state of a run, exactly when no cycle of it
records latencies that reach the percentile. -/
theorem resumes_iff (cycles : List RunnerCycle) :
    (∀ reached, reached <+: cycles →
        (reached.foldl (runCycle config) {}).Resumes config) ↔
      ∀ earlier cycle, earlier ++ [cycle] <+: cycles →
        (earlier.foldl (runCycle config) {}).StaysBelow config cycle := by
  simp only [resumes_iff_not_skips]
  apply forall_reached_iff_forall_step (runCycle config)
    (I := fun runner => Held config.adaptive runner.latencies)
    (P := fun runner => ¬ runner.Skips config) (C := fun runner => runner.StaysBelow config)
  · intro runner cycle h
    exact held_runCycle h cycle
  · intro runner cycle h hgoes
    exact not_skips_runCycle_iff h hgoes cycle
  · exact .nil
  · simp [Runner.Skips, getState]

/-- A cycle in which the third of three symbols takes 9.5 seconds. -/
def slowSymbol : RunnerCycle where
  now := 0
  turn i := .processed [.success] (some ([1000, 1000, 9500].getD i 0))

theorem slowSymbol_not_resumes :
    ¬ ∀ reached, reached <+: [slowSymbol] →
      Runner.Resumes { symbols := ["BTC-USD", "ETH-USD", "SOL-USD"] }
        (reached.foldl (runCycle { symbols := ["BTC-USD", "ETH-USD", "SOL-USD"] }) {}) := by
  intro h
  have hlast := h _ List.prefix_rfl
  rw [resumes_iff_not_skips] at hlast
  apply hlast
  rw [Runner.Skips]
  decide +kernel

end TradeStream.RunnerCycles
