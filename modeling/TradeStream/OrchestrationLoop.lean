import TradeStream.CircuitBreaker

/-! The orchestration loop: discovery, validation, promotion and monitoring of strategy
candidates, cycle after cycle, each phase behind its circuit breaker. -/
namespace TradeStream.OrchestrationLoop
open TradeStream.RunSteps

inductive Phase where
  | discovery
  | validation
  | promotion
  | monitoring
  deriving DecidableEq

/-- A candidate's record. Its spec, times and metrics are there for the dashboard. -/
structure CandidateRecord where
  phase : Phase := .discovery
  allocationWeight : ℚ := 0

/-- `OrchestrationState.candidates`. -/
abbrev Candidates := String → Option CandidateRecord

def Candidates.addCandidate (candidates : Candidates) (name : String) : Candidates :=
  Function.update candidates name (some {})

/-- An update of the record of a name, if there is one. -/
def Candidates.modify (candidates : Candidates) (name : String)
    (f : CandidateRecord → CandidateRecord) : Candidates :=
  Function.update candidates name ((candidates name).map f)

def Candidates.advanceToValidation (candidates : Candidates) (name : String) : Candidates :=
  candidates.modify name fun record => { record with phase := .validation }

def Candidates.promote (candidates : Candidates) (name : String) (allocationWeight : ℚ) :
    Candidates :=
  candidates.modify name fun _ => ⟨.promotion, allocationWeight⟩

def maxLlmIterations : ℕ := 20
def minSharpeRatio : ℚ := 0.5
def minWinRate : ℚ := 0.45
def maxDrawdown : ℚ := -0.30
def backtestSymbols : List String := ["BTC-USD", "ETH-USD"]
def initialAllocationWeight : ℚ := 0.05
def maxPromotedPerCycle : ℕ := 2
def allocationIncreaseThreshold : ℚ := 0.7
def allocationDecreaseThreshold : ℚ := 0.3
def retirementSharpeThreshold : ℚ := 0
def maxAllocationWeight : ℚ := 0.25

/-- A tool call of the model. The call to the server may raise. -/
inductive ToolCall where
  | createSpec (name : String) (raises : Bool)
  | other (raises : Bool)

/-- What the model answers. A final answer may have a list `created`, which need not be
one of names: `none` stands for an element that cannot be a key. -/
inductive Response where
  | fails
  | stops (created : Option (List (Option String)))
  | toolCalls (calls : List ToolCall)

/-- How `run_discovery` ends. Its names are those of the specs it saw created, or those of
the model's final answer. -/
inductive Discovered where
  | raises
  | tracked (names : List String)
  | answered (created : List (Option String))

/-- The tool calls of one answer: a name that is in the state, or was created, is
skipped. -/
def runTools (existing : String → Bool) : List ToolCall → List String → Option (List String)
  | [], created => some created
  | .other raises :: rest, created => if raises then none else runTools existing rest created
  | .createSpec name raises :: rest, created =>
    -- no call is made for a duplicate, and its name is not returned
    if existing name ∨ name ∈ created then runTools existing rest created
    else if raises then none
    else runTools existing rest (created ++ [name])

/-- The loop of `run_discovery`, with the iterations that are left. -/
def runDiscovery (existing : String → Bool) (respond : ℕ → Response) :
    ℕ → List String → Discovered
  | 0, created => .tracked created
  | left + 1, created =>
    -- a call that fails and an answer without a list end the loop with what was tracked
    match respond (maxLlmIterations - (left + 1)) with
    | .fails => .tracked created
    | .stops none => .tracked created
    | .stops (some answer) => .answered answer
    | .toolCalls calls =>
      match runTools existing calls created with
      | none => .raises
      | some created => runDiscovery existing respond left created

/-- The loop that adds what was discovered, and whether it raises. -/
def addCandidates : List (Option String) → Candidates → Candidates × Bool
  | [], candidates => (candidates, false)
  | none :: _, candidates => (candidates, true)
  | some name :: rest, candidates => addCandidates rest (candidates.addCandidate name)

structure Metrics where
  sharpeRatio : ℚ
  winRate : ℚ
  maxDrawdown : ℚ
  cumulativeReturn : ℚ
  totalTrades : ℤ
  profitFactor : ℚ
  sortinoRatio : ℚ

/-- A backtest raises, has no metrics, or has some. -/
inductive Backtest where
  | raises
  | noMetrics
  | metrics (metrics : Metrics)

def PassesMinimumCriteria (metrics : Metrics) : Prop :=
  minSharpeRatio ≤ metrics.sharpeRatio ∧ minWinRate ≤ metrics.winRate ∧
    OrchestrationLoop.maxDrawdown ≤ metrics.maxDrawdown ∧ 5 ≤ metrics.totalTrades

instance : DecidablePred PassesMinimumCriteria := fun metrics =>
  inferInstanceAs (Decidable (_ ∧ _ ∧ _ ∧ 5 ≤ metrics.totalTrades))

/-- The symbols of one candidate. The outer `none` stands for an exception, the inner one
for a candidate that does not pass. -/
def backtestAll (backtest : String → Backtest) :
    List String → Option (Option (List Metrics))
  | [] => some (some [])
  | symbol :: rest =>
    match backtest symbol with
    | .raises => none
    | .noMetrics => some none
    | .metrics metrics =>
      if PassesMinimumCriteria metrics then
        (backtestAll backtest rest).map (Option.map (metrics :: ·))
      else some none

/-- `_aggregate_metrics`: averages, and the sum of the trades. -/
def aggregateMetrics (metrics : List Metrics) : Metrics :=
  let average (field : Metrics → ℚ) : ℚ := (metrics.map field).sum / metrics.length
  { sharpeRatio := average Metrics.sharpeRatio
    winRate := average Metrics.winRate
    maxDrawdown := average Metrics.maxDrawdown
    cumulativeReturn := average Metrics.cumulativeReturn
    totalTrades := (metrics.map Metrics.totalTrades).sum
    profitFactor := average Metrics.profitFactor
    sortinoRatio := average Metrics.sortinoRatio }

def validateCandidate (backtest : String → String → Backtest) (name : String) :
    Option (Option Metrics) :=
  (backtestAll (backtest name) backtestSymbols).map (Option.map aggregateMetrics)

/-- The loop of `validate_candidates`. -/
def passed (backtest : String → String → Backtest) :
    List String → Option (List (String × Metrics))
  | [] => some []
  | name :: rest =>
    -- one backtest that raises ends the phase, and the names that passed are lost
    match validateCandidate backtest name with
    | none => none
    | some none => passed backtest rest
    | some (some metrics) => (passed backtest rest).map ((name, metrics) :: ·)

/-- Those that pass, by Sharpe ratio from the highest. -/
def validateCandidates (backtest : String → String → Backtest) (names : List String) :
    Option (List (String × Metrics)) :=
  (passed backtest names).map fun validated =>
    validated.insertionSort fun a b => b.2.sharpeRatio ≤ a.2.sharpeRatio

def Candidates.isPromoted (candidates : Candidates) (name : String) : Bool :=
  match candidates name with
  | some record => record.phase = .promotion
  | none => false

/-- The loop of `promote_winners`, which may raise after some promotions. -/
def promoteAll : List (String × Metrics) → Option ℕ → Candidates → Candidates × Bool
  | [], _, candidates => (candidates, false)
  | _ :: _, some 0, candidates => (candidates, true)
  | (name, _) :: rest, raisesAfter, candidates =>
    -- a promoted candidate takes one of the places all the same
    if candidates.isPromoted name then promoteAll rest raisesAfter candidates
    else promoteAll rest (raisesAfter.map Nat.pred)
      ((candidates.advanceToValidation name).promote name initialAllocationWeight)

def promoteWinners (validated : List (String × Metrics)) (raisesAfter : Option ℕ)
    (candidates : Candidates) : Candidates × Bool :=
  promoteAll (validated.take maxPromotedPerCycle) raisesAfter candidates

/-- The new allocation of a strategy that stays. -/
def adjust (allocation currentSharpe : ℚ) : ℚ :=
  let newAllocation :=
    if allocationIncreaseThreshold ≤ currentSharpe then
      min (allocation * 1.25) maxAllocationWeight
    else if currentSharpe ≤ allocationDecreaseThreshold then max (allocation * 0.75) 0.01
    else allocation
  if 0.001 < |newAllocation - allocation| then newAllocation else allocation

/-- `monitor_promoted_strategies`, with the live Sharpe ratios that it gets. -/
def monitor (liveSharpe : String → Option ℚ) (candidates : Candidates) : Candidates :=
  fun name =>
    match candidates name, liveSharpe name with
    | some record, some currentSharpe =>
      if record.phase = .promotion then
        if currentSharpe < retirementSharpeThreshold then none
        else some { record with
          allocationWeight := adjust record.allocationWeight currentSharpe }
      else some record
    | record, _ => record

/-- `CircuitBreaker` of the loop's `resilience` module. Half-open, it lets every request
through. -/
structure Breaker where
  failureThreshold : ℤ := 3
  recoverySeconds : ℚ := 300
  state : CircuitBreaker.State := .closed
  failureCount : ℕ := 0
  lastFailureTime : ℚ := 0

def Breaker.allowRequest (now : ℚ) (breaker : Breaker) : Bool × Breaker :=
  match breaker.state with
  | .closed => (true, breaker)
  | .opened =>
    if breaker.recoverySeconds ≤ now - breaker.lastFailureTime then
      (true, { breaker with state := .halfOpen })
    else (false, breaker)
  | .halfOpen => (true, breaker)

def Breaker.recordSuccess (breaker : Breaker) : Breaker :=
  { breaker with failureCount := 0, state := .closed }

def Breaker.recordFailure (now : ℚ) (breaker : Breaker) : Breaker :=
  { breaker with
    failureCount := breaker.failureCount + 1
    lastFailureTime := now
    state :=
      if breaker.failureThreshold ≤ (breaker.failureCount + 1 : ℕ) then .opened
      else breaker.state }

/-- A phase without a breaker always runs. -/
def ask (now : ℚ) : Option Breaker → Bool × Option Breaker
  | none => (true, none)
  | some breaker =>
    let (allowed, breaker) := breaker.allowRequest now
    (allowed, some breaker)

def report (raised : Bool) (now : ℚ) (breaker : Option Breaker) : Option Breaker :=
  breaker.map fun breaker =>
    if raised then breaker.recordFailure now else breaker.recordSuccess

/-- What comes from outside in one cycle. A phase's breaker is asked at `askedAt`, and told
of a failure at `endedAt`. -/
structure Cycle where
  respond : ℕ → Response
  backtest : String → String → Backtest
  promotionRaisesAfter : Option ℕ := none
  liveSharpe : String → Option ℚ := fun _ => none
  monitoringRaises : Bool := false
  askedAt : Phase → ℚ
  endedAt : Phase → ℚ

/-- The loop's state between its cycles. The two lists observe the candidates whose
validation was skipped or raised, and those that were validated and not promoted. -/
structure Orchestration where
  cycleNumber : ℕ
  candidates : Candidates
  strategy : Option Breaker
  backtest : Option Breaker
  signal : Option Breaker
  awaitingValidation : List String
  awaitingPromotion : List String

/-- A state as it is loaded, before its first cycle. -/
def loaded (cycleNumber : ℕ) (candidates : Candidates)
    (strategy backtest signal : Option Breaker) : Orchestration where
  cycleNumber := cycleNumber
  candidates := candidates
  strategy := strategy
  backtest := backtest
  signal := signal
  awaitingValidation := []
  awaitingPromotion := []

def Orchestration.discovered (state : Orchestration) (cycle : Cycle) : Discovered :=
  runDiscovery (fun name => (state.candidates name).isSome) cycle.respond maxLlmIterations []

/-- Phase 1, and the names that it hands on. -/
def Orchestration.runDiscoveryPhase (state : Orchestration) (cycle : Cycle) :
    Orchestration × List String :=
  let (allowed, strategy) := ask (cycle.askedAt .discovery) state.strategy
  if allowed then
    match state.discovered cycle with
    | .raises =>
      ({ state with strategy := report true (cycle.endedAt .discovery) strategy }, [])
    | .tracked names =>
      ({ state with
          candidates := (addCandidates (names.map some) state.candidates).1
          strategy := report false (cycle.endedAt .discovery) strategy }, names)
    | .answered created =>
      let (candidates, raised) := addCandidates created state.candidates
      ({ state with
          candidates := candidates
          strategy := report raised (cycle.endedAt .discovery) strategy },
        if raised then [] else created.reduceOption)
  else ({ state with strategy := strategy }, [])

/-- Phase 2, and the candidates that it hands on. -/
def Orchestration.runValidationPhase (state : Orchestration) (cycle : Cycle)
    (names : List String) : Orchestration × List (String × Metrics) :=
  let (allowed, backtest) := ask (cycle.askedAt .validation) state.backtest
  let awaiting := state.awaitingValidation ++ names
  if allowed then
    match validateCandidates cycle.backtest names with
    | none =>
      ({ state with
          backtest := report true (cycle.endedAt .validation) backtest
          awaitingValidation := awaiting }, [])
    | some validated =>
      ({ state with
          candidates := (validated.map Prod.fst).foldl Candidates.advanceToValidation
            state.candidates
          backtest := report false (cycle.endedAt .validation) backtest
          awaitingValidation := [] }, validated)
  else ({ state with backtest := backtest, awaitingValidation := awaiting }, [])

/-- Phase 3. What was handed to it and is not promoted then goes on waiting. -/
def Orchestration.runPromotionPhase (state : Orchestration) (cycle : Cycle)
    (validated : List (String × Metrics)) : Orchestration :=
  let (allowed, signal) := ask (cycle.askedAt .promotion) state.signal
  let (candidates, raised) :=
    if allowed then promoteWinners validated cycle.promotionRaisesAfter state.candidates
    else (state.candidates, false)
  { state with
    candidates := candidates
    signal := if allowed then report raised (cycle.endedAt .promotion) signal else signal
    awaitingPromotion := (state.awaitingPromotion ++ validated.map Prod.fst).filter
      fun name => ! candidates.isPromoted name }

/-- Phase 4. Where it raises, the live metrics of the strategies after that are missing. -/
def Orchestration.runMonitoringPhase (state : Orchestration) (cycle : Cycle) : Orchestration :=
  let (allowed, signal) := ask (cycle.askedAt .monitoring) state.signal
  if allowed then
    { state with
      candidates := monitor cycle.liveSharpe state.candidates
      signal := report cycle.monitoringRaises (cycle.endedAt .monitoring) signal }
  else { state with signal := signal }

/-- `run_cycle`. -/
def Orchestration.runCycle (state : Orchestration) (cycle : Cycle) : Orchestration :=
  let state := { state with cycleNumber := state.cycleNumber + 1 }
  let (state, names) := state.runDiscoveryPhase cycle
  let (state, validated) := state.runValidationPhase cycle names
  (state.runPromotionPhase cycle validated).runMonitoringPhase cycle

/-- The inputs of the two phases in a cycle. -/
def Orchestration.validationInput (state : Orchestration) (cycle : Cycle) : List String :=
  (state.runDiscoveryPhase cycle).2

def Orchestration.promotionInput (state : Orchestration) (cycle : Cycle) :
    List (String × Metrics) :=
  let (discovered, names) := state.runDiscoveryPhase cycle
  (discovered.runValidationPhase cycle names).2

def Orchestration.validationRuns (state : Orchestration) (cycle : Cycle) : Bool :=
  (ask (cycle.askedAt .validation) state.backtest).1

def Orchestration.promotionRuns (state : Orchestration) (cycle : Cycle) : Bool :=
  (ask (cycle.askedAt .promotion) state.signal).1

/-- A phase that runs has all the candidates that wait for it. -/
def Orchestration.TakesUp (state : Orchestration) (cycle : Cycle) : Prop :=
  (state.validationRuns cycle = true →
      ∀ name ∈ state.awaitingValidation, name ∈ state.validationInput cycle) ∧
    (state.promotionRuns cycle = true →
      ∀ name ∈ state.awaitingPromotion, name ∈ (state.promotionInput cycle).map Prod.fst)

/-- The model's final answer in this cycle has the name, and can be taken over whole. -/
def Orchestration.Answers (state : Orchestration) (cycle : Cycle)
    (created : List (Option String)) (name : String) : Prop :=
  (ask (cycle.askedAt .discovery) state.strategy).1 = true ∧
    state.discovered cycle = .answered created ∧ none ∉ created ∧ some name ∈ created

/-- In a cycle that validates, the model's final answer has every name that waits for it.
In one that promotes, it has every name that waits for that, and the name passes a
validation in which no backtest raises. -/
def Orchestration.FoundAgain (state : Orchestration) (cycle : Cycle) : Prop :=
  (state.validationRuns cycle = true →
      ∀ name ∈ state.awaitingValidation, ∃ created, state.Answers cycle created name) ∧
    (state.promotionRuns cycle = true → ∀ name ∈ state.awaitingPromotion,
      state.validationRuns cycle = true ∧ ∃ created, state.Answers cycle created name ∧
        (∀ other, some other ∈ created → validateCandidate cycle.backtest other ≠ none) ∧
        ∃ metrics, validateCandidate cycle.backtest name = some (some metrics))

/-- A candidate that is in the state and not promoted. -/
def Candidates.Waiting (candidates : Candidates) (name : String) : Prop :=
  ∃ record, candidates name = some record ∧ record.phase ≠ .promotion

def Orchestration.Inv (state : Orchestration) : Prop :=
  ∀ name ∈ state.awaitingValidation ++ state.awaitingPromotion, state.candidates.Waiting name

theorem runTools_new {existing : String → Bool} {calls : List ToolCall}
    {created created' : List String} (h : runTools existing calls created = some created')
    (hnew : ∀ name ∈ created, existing name = false) :
    ∀ name ∈ created', existing name = false := by
  fun_induction runTools existing calls created with
  | case1 created =>
    obtain rfl := Option.some.inj h
    exact hnew
  | case2 => cases h
  | case3 created raises rest hraises ih => exact ih h hnew
  | case4 created name raises rest hdup ih => exact ih h hnew
  | case5 => cases h
  | case6 created name raises rest hdup hraises ih =>
    apply ih h
    intro other hmem
    rcases List.mem_append.mp hmem with hold | hlast
    · exact hnew other hold
    · rw [List.mem_singleton.mp hlast]
      simpa using (not_or.mp hdup).1

/-- The names that discovery saw created are none that the state has. -/
theorem runDiscovery_new {existing : String → Bool} {respond : ℕ → Response} {left : ℕ}
    {created names : List String}
    (h : runDiscovery existing respond left created = .tracked names)
    (hnew : ∀ name ∈ created, existing name = false) :
    ∀ name ∈ names, existing name = false := by
  fun_induction runDiscovery existing respond left created with
  | case1 created => exact Discovered.tracked.inj h ▸ hnew
  | case2 created left hfails => exact Discovered.tracked.inj h ▸ hnew
  | case3 created left hstops => exact Discovered.tracked.inj h ▸ hnew
  | case4 => cases h
  | case5 => cases h
  | case6 created left calls hcalls created' htools ih =>
    exact ih h (runTools_new htools hnew)

theorem addCandidates_raises_iff (created : List (Option String)) (candidates : Candidates) :
    (addCandidates created candidates).2 = true ↔ none ∈ created := by
  fun_induction addCandidates created candidates with
  | case1 => simp
  | case2 => simp
  | case3 candidates name rest ih => simpa using ih

/-- A name that the state has comes back to validation by the final answer only. -/
theorem mem_validationInput_iff {state : Orchestration} {name : String}
    (hname : (state.candidates name).isSome = true) (cycle : Cycle) :
    name ∈ state.validationInput cycle ↔ ∃ created, state.Answers cycle created name := by
  simp only [Orchestration.validationInput, Orchestration.runDiscoveryPhase,
    Orchestration.Answers]
  by_cases hallowed : (ask (cycle.askedAt .discovery) state.strategy).1 = true
  · simp only [hallowed, ↓reduceIte, true_and]
    cases hdiscovered : state.discovered cycle with
    | raises => simp
    | tracked names =>
      -- the names of the specs it saw created are all new
      have hnew := runDiscovery_new hdiscovered (by simp)
      simp only [reduceCtorEq, false_and, exists_false, iff_false]
      intro hmem
      rw [hnew name hmem] at hname
      cases hname
    | answered created =>
      have hraises := addCandidates_raises_iff created state.candidates
      by_cases hnone : none ∈ created
      · simp [hraises.mpr hnone, hnone]
      · have hraised : (addCandidates created state.candidates).2 = false := by
          simpa [hnone] using hraises
        simp [hraised, hnone, List.reduceOption_mem_iff]
  · simp [hallowed]

theorem passed_eq_none_iff (backtest : String → String → Backtest) (names : List String) :
    passed backtest names = none ↔ ∃ name ∈ names, validateCandidate backtest name = none := by
  induction names with
  | nil => simp [passed]
  | cons first rest ih =>
    rw [passed, List.exists_mem_cons_iff, ← ih]
    match validateCandidate backtest first with
    | none => simp
    | some none => simp
    | some (some metrics) => simp

theorem mem_passed_iff {backtest : String → String → Backtest} {names : List String}
    {validated : List (String × Metrics)} (h : passed backtest names = some validated)
    (name : String) :
    name ∈ validated.map Prod.fst ↔
      name ∈ names ∧ ∃ metrics, validateCandidate backtest name = some (some metrics) := by
  induction names generalizing validated with
  | nil =>
    obtain rfl := Option.some.inj h
    simp
  | cons first rest ih =>
    rw [passed] at h
    match hfirst : validateCandidate backtest first, h with
    | some none, h =>
      -- the first name does not pass
      rw [ih h, List.mem_cons]
      constructor
      · rintro ⟨hmem, hpasses⟩
        exact ⟨.inr hmem, hpasses⟩
      · rintro ⟨rfl | hmem, metrics, hmetrics⟩
        · rw [hfirst] at hmetrics
          cases hmetrics
        · exact ⟨hmem, metrics, hmetrics⟩
    | some (some metrics), h =>
      obtain ⟨validated', hrest, rfl⟩ := Option.map_eq_some_iff.mp h
      rw [List.map_cons, List.mem_cons, ih hrest, List.mem_cons, or_and_right]
      apply or_congr_left
      refine (and_iff_left_of_imp ?_).symm
      rintro rfl
      exact ⟨metrics, hfirst⟩

theorem validateCandidates_eq_none_iff (backtest : String → String → Backtest)
    (names : List String) :
    validateCandidates backtest names = none ↔
      ∃ name ∈ names, validateCandidate backtest name = none := by
  rw [validateCandidates, Option.map_eq_none_iff, passed_eq_none_iff]

/-- The spec of `validate_candidates`: the names that pass. -/
theorem mem_validateCandidates_iff {backtest : String → String → Backtest} {names : List String}
    {validated : List (String × Metrics)}
    (h : validateCandidates backtest names = some validated) (name : String) :
    name ∈ validated.map Prod.fst ↔
      name ∈ names ∧ ∃ metrics, validateCandidate backtest name = some (some metrics) := by
  obtain ⟨unsorted, hunsorted, rfl⟩ := Option.map_eq_some_iff.mp h
  rw [← mem_passed_iff hunsorted]
  exact ((List.perm_insertionSort _ unsorted).map Prod.fst).mem_iff

theorem backtest_runDiscoveryPhase (state : Orchestration) (cycle : Cycle) :
    (state.runDiscoveryPhase cycle).1.backtest = state.backtest := by
  simp only [Orchestration.runDiscoveryPhase]
  split_ifs
  · cases state.discovered cycle <;> rfl
  · rfl

theorem runValidationPhase_handsOn (state : Orchestration) (cycle : Cycle)
    (names : List String) :
    (state.runValidationPhase cycle names).2 =
      if state.validationRuns cycle then
        (validateCandidates cycle.backtest names).getD []
      else [] := by
  simp only [Orchestration.runValidationPhase, Orchestration.validationRuns]
  by_cases hruns : (ask (cycle.askedAt .validation) state.backtest).1 = true
  · cases validateCandidates cycle.backtest names <;> simp [hruns]
  · simp [hruns]

theorem promotionInput_eq (state : Orchestration) (cycle : Cycle) :
    state.promotionInput cycle =
      if state.validationRuns cycle then
        (validateCandidates cycle.backtest (state.validationInput cycle)).getD []
      else [] := by
  rw [Orchestration.promotionInput]
  simp only [runValidationPhase_handsOn, Orchestration.validationRuns,
    backtest_runDiscoveryPhase]
  rfl

theorem mem_promotionInput_iff (state : Orchestration) (cycle : Cycle) (name : String) :
    name ∈ (state.promotionInput cycle).map Prod.fst ↔
      state.validationRuns cycle = true ∧ name ∈ state.validationInput cycle ∧
        (∀ other ∈ state.validationInput cycle, validateCandidate cycle.backtest other ≠ none) ∧
        ∃ metrics, validateCandidate cycle.backtest name = some (some metrics) := by
  have hnone := validateCandidates_eq_none_iff cycle.backtest (state.validationInput cycle)
  rw [promotionInput_eq]
  by_cases hruns : state.validationRuns cycle = true
  · rw [if_pos hruns, and_iff_right hruns]
    cases hvalidated : validateCandidates cycle.backtest (state.validationInput cycle) with
    | none =>
      -- the phase raised on one of its names
      obtain ⟨other, hmem, hraises⟩ := hnone.mp hvalidated
      refine iff_of_false (by simp) ?_
      exact fun h => h.2.1 other hmem hraises
    | some validated =>
      have hsome : ∀ other ∈ state.validationInput cycle,
          validateCandidate cycle.backtest other ≠ none := by
        intro other hmem hraises
        rw [hnone.mpr ⟨other, hmem, hraises⟩] at hvalidated
        cases hvalidated
      rw [Option.getD_some, mem_validateCandidates_iff hvalidated]
      tauto
  · simp [hruns]

/-- What a final answer hands on to validation. -/
theorem validationInput_of_answers {state : Orchestration} {cycle : Cycle}
    {created : List (Option String)} {name : String}
    (h : state.Answers cycle created name) :
    state.validationInput cycle = created.reduceOption := by
  obtain ⟨hallowed, hdiscovered, hnone, -⟩ := h
  have hraised : (addCandidates created state.candidates).2 = false := by
    simpa [hnone] using addCandidates_raises_iff created state.candidates
  simp [Orchestration.validationInput, Orchestration.runDiscoveryPhase, hallowed, hdiscovered,
    hraised]

/-- The step lemma. -/
theorem takesUp_iff {state : Orchestration} (h : state.Inv) (cycle : Cycle) :
    state.TakesUp cycle ↔ state.FoundAgain cycle := by
  have hname : ∀ name ∈ state.awaitingValidation ++ state.awaitingPromotion,
      (state.candidates name).isSome = true := by
    intro name hmem
    obtain ⟨record, hrecord, -⟩ := h name hmem
    rw [hrecord]
    rfl
  refine and_congr (imp_congr_right fun _ => forall₂_congr fun name hmem => ?_)
    (imp_congr_right fun _ => forall₂_congr fun name hmem => ?_)
  · exact mem_validationInput_iff (hname name (List.mem_append_left _ hmem)) cycle
  · rw [mem_promotionInput_iff,
      mem_validationInput_iff (hname name (List.mem_append_right _ hmem)) cycle]
    apply and_congr_right
    intro _
    constructor
    · rintro ⟨⟨created, hanswers⟩, hraises, hpasses⟩
      refine ⟨created, hanswers, ?_, hpasses⟩
      simpa [validationInput_of_answers hanswers, List.reduceOption_mem_iff] using hraises
    · rintro ⟨created, hanswers, hraises, hpasses⟩
      refine ⟨⟨created, hanswers⟩, ?_, hpasses⟩
      simpa [validationInput_of_answers hanswers, List.reduceOption_mem_iff] using hraises

theorem waiting_addCandidate {candidates : Candidates} {name other : String}
    (h : other = name ∨ candidates.Waiting other) :
    (candidates.addCandidate name).Waiting other := by
  by_cases hsame : other = name
  · exact ⟨{}, by simp [Candidates.addCandidate, hsame], by simp⟩
  · obtain ⟨record, hrecord, hphase⟩ := h.resolve_left hsame
    exact ⟨record, by simp [Candidates.addCandidate, hsame, hrecord], hphase⟩

theorem waiting_addCandidates {created : List (Option String)} {candidates : Candidates}
    {other : String} (h : candidates.Waiting other) :
    (addCandidates created candidates).1.Waiting other := by
  fun_induction addCandidates created candidates with
  | case1 candidates => exact h
  | case2 rest candidates => exact h
  | case3 candidates name rest ih => exact ih (waiting_addCandidate (.inr h))

theorem waiting_added {created : List (Option String)} {candidates : Candidates} {name : String}
    (hraised : (addCandidates created candidates).2 = false) (hmem : some name ∈ created) :
    (addCandidates created candidates).1.Waiting name := by
  fun_induction addCandidates created candidates with
  | case1 candidates => cases hmem
  | case2 rest candidates => cases hraised
  | case3 candidates first rest ih =>
    rcases List.mem_cons.mp hmem with hfirst | hrest
    · obtain rfl := Option.some.inj hfirst
      exact waiting_addCandidates (waiting_addCandidate (.inl rfl))
    · exact ih hraised hrest

theorem waiting_advanced {candidates : Candidates} {name : String}
    (h : candidates.Waiting name) (validated : List String) :
    (validated.foldl Candidates.advanceToValidation candidates).Waiting name := by
  induction validated generalizing candidates with
  | nil => exact h
  | cons first rest ih =>
    apply ih
    obtain ⟨record, hrecord, hphase⟩ := h
    by_cases hsame : name = first
    · subst hsame
      exact ⟨{ record with phase := .validation },
        by simp [Candidates.advanceToValidation, Candidates.modify, hrecord], by simp⟩
    · exact ⟨record,
        by simp [Candidates.advanceToValidation, Candidates.modify, hsame, hrecord], hphase⟩

/-- Promotion removes no candidate. -/
theorem exists_promoteAll {candidates : Candidates} {name : String}
    (h : ∃ record, candidates name = some record) (validated : List (String × Metrics))
    (raisesAfter : Option ℕ) :
    ∃ record, (promoteAll validated raisesAfter candidates).1 name = some record := by
  fun_induction promoteAll validated raisesAfter candidates with
  | case1 => exact h
  | case2 => exact h
  | case3 _ _ _ _ _ _ _ ih => exact ih h
  | case4 first _ _ _ _ _ _ ih =>
    apply ih
    obtain ⟨record, hrecord⟩ := h
    by_cases hsame : name = first
    · subst hsame
      simp [Candidates.promote, Candidates.advanceToValidation, Candidates.modify, hrecord]
    · simp [Candidates.promote, Candidates.advanceToValidation, Candidates.modify, hsame, hrecord]

theorem waiting_of_not_isPromoted {candidates : Candidates} {name : String}
    (h : ∃ record, candidates name = some record) (hnot : candidates.isPromoted name = false) :
    candidates.Waiting name := by
  obtain ⟨record, hrecord⟩ := h
  exact ⟨record, hrecord, by simpa [Candidates.isPromoted, hrecord] using hnot⟩

theorem waiting_monitor {candidates : Candidates} {name : String} (h : candidates.Waiting name)
    (liveSharpe : String → Option ℚ) : (monitor liveSharpe candidates).Waiting name := by
  obtain ⟨record, hrecord, hphase⟩ := h
  refine ⟨record, ?_, hphase⟩
  simp only [monitor, hrecord]
  cases liveSharpe name <;> simp [hphase]

theorem inv_runDiscoveryPhase {state : Orchestration} (h : state.Inv) (cycle : Cycle) :
    (state.runDiscoveryPhase cycle).1.Inv ∧
      ∀ name ∈ (state.runDiscoveryPhase cycle).2,
        (state.runDiscoveryPhase cycle).1.candidates.Waiting name := by
  simp only [Orchestration.runDiscoveryPhase]
  by_cases hallowed : (ask (cycle.askedAt .discovery) state.strategy).1 = true
  · simp only [hallowed, ↓reduceIte]
    cases state.discovered cycle with
    | raises => exact ⟨h, by simp⟩
    | tracked names =>
      have hraised : (addCandidates (names.map some) state.candidates).2 = false := by
        simpa using addCandidates_raises_iff (names.map some) state.candidates
      refine ⟨fun name hmem => waiting_addCandidates (h name hmem), fun name hmem => ?_⟩
      exact waiting_added hraised (List.mem_map_of_mem hmem)
    | answered created =>
      refine ⟨fun name hmem => waiting_addCandidates (h name hmem), fun name hmem => ?_⟩
      by_cases hraised : (addCandidates created state.candidates).2 = true
      · simp [hraised] at hmem
      · simp only [hraised, Bool.false_eq_true, ↓reduceIte, List.reduceOption_mem_iff] at hmem
        exact waiting_added (by simpa using hraised) hmem
  · simp only [hallowed, Bool.false_eq_true, ↓reduceIte]
    exact ⟨h, by simp⟩

/-- Validation takes up all its names, or none. -/
theorem inv_runValidationPhase {state : Orchestration} (h : state.Inv) (cycle : Cycle)
    {names : List String} (hnames : ∀ name ∈ names, state.candidates.Waiting name) :
    (state.runValidationPhase cycle names).1.Inv ∧
      (∀ name ∈ (state.runValidationPhase cycle names).2.map Prod.fst,
        (state.runValidationPhase cycle names).1.candidates.Waiting name) ∧
      ((state.runValidationPhase cycle names).2 = [] ∨
        (state.runValidationPhase cycle names).1.awaitingValidation = []) := by
  have hnone : ∀ name ∈ state.awaitingValidation ++ names ++ state.awaitingPromotion,
      state.candidates.Waiting name := by
    intro name hmem
    simp only [List.mem_append] at hmem
    rcases hmem with (hold | hnew) | hpromotion
    · exact h name (List.mem_append_left _ hold)
    · exact hnames name hnew
    · exact h name (List.mem_append_right _ hpromotion)
  simp only [Orchestration.runValidationPhase]
  by_cases hallowed : (ask (cycle.askedAt .validation) state.backtest).1 = true
  · simp only [hallowed, ↓reduceIte]
    cases hvalidated : validateCandidates cycle.backtest names with
    | none => exact ⟨hnone, by simp, .inl rfl⟩
    | some validated =>
      -- nobody is left waiting, and those that pass are in the state
      refine ⟨fun name hmem => waiting_advanced (h name (List.mem_append_right _ hmem)) _,
        fun name hmem => waiting_advanced (hnames name ?_) _, .inr rfl⟩
      exact ((mem_validateCandidates_iff hvalidated name).mp hmem).1
  · simp only [hallowed, Bool.false_eq_true, ↓reduceIte]
    exact ⟨hnone, by simp, by simp⟩

theorem inv_runPromotionPhase {state : Orchestration} (h : state.Inv) (cycle : Cycle)
    {validated : List (String × Metrics)}
    (hvalidated : ∀ name ∈ validated.map Prod.fst, state.candidates.Waiting name)
    (hone : validated = [] ∨ state.awaitingValidation = []) :
    (state.runPromotionPhase cycle validated).Inv := by
  have hexists : ∀ name, state.candidates.Waiting name →
      ∃ record, (state.runPromotionPhase cycle validated).candidates name = some record := by
    rintro name ⟨record, hrecord, -⟩
    simp only [Orchestration.runPromotionPhase]
    split_ifs
    · exact exists_promoteAll ⟨record, hrecord⟩ _ _
    · exact ⟨record, hrecord⟩
  intro name hmem
  rcases List.mem_append.mp hmem with hvalidation | hpromotion
  · -- no candidate waits for validation while others are promoted
    rcases hone with rfl | hempty
    · have hsame : (state.runPromotionPhase cycle []).candidates = state.candidates := by
        simp only [Orchestration.runPromotionPhase]
        split_ifs <;> rfl
      rw [hsame]
      exact h name (List.mem_append_left _ hvalidation)
    · change name ∈ state.awaitingValidation at hvalidation
      simp [hempty] at hvalidation
  · obtain ⟨hmem, hnot⟩ := List.mem_filter.mp hpromotion
    apply waiting_of_not_isPromoted
    · rcases List.mem_append.mp hmem with hold | hnew
      · exact hexists name (h name (List.mem_append_right _ hold))
      · exact hexists name (hvalidated name hnew)
    · change (! (state.runPromotionPhase cycle validated).candidates.isPromoted name) = true
        at hnot
      simpa only [Bool.not_eq_true'] using hnot

theorem inv_runCycle {state : Orchestration} (h : state.Inv) (cycle : Cycle) :
    (state.runCycle cycle).Inv := by
  have hbegin : Orchestration.Inv { state with cycleNumber := state.cycleNumber + 1 } := h
  obtain ⟨hdiscovery, hnames⟩ := inv_runDiscoveryPhase hbegin cycle
  -- what a phase hands on waits in the state that it leaves
  obtain ⟨hvalidation, hvalidated, hone⟩ := inv_runValidationPhase hdiscovery cycle hnames
  have hpromotion := inv_runPromotionPhase hvalidation cycle hvalidated hone
  intro name hmem
  simp only [Orchestration.runCycle, Orchestration.runMonitoringPhase] at hmem ⊢
  split_ifs at hmem ⊢
  · exact waiting_monitor (hpromotion name hmem) _
  · exact hpromotion name hmem

/-- The model creates one spec, and then has nothing more to say. -/
def oneSpec (backtest : Backtest) : Cycle where
  respond i := if i = 0 then .toolCalls [.createSpec "ema_rsi_pullback" false] else .stops none
  backtest _ _ := backtest
  askedAt _ := 0
  endedAt _ := 0

end TradeStream.OrchestrationLoop
