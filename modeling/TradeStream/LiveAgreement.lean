import TradeStream.BacktestAgreement
import TradeStream.ConditionEvaluator

/-! Backtest and live: the conditions of a spec at the last bar, by `ConditionEvaluator`
and by the signals of `YamlStrategyLoader`. -/
namespace TradeStream.StrategyExecution
open TradeStream.Fallible TradeStream.SeriesRules TradeStream.Backtesting

section
variable {D ι : Type} (runtime : PythonRuntime D)

/-! ### The rules of the engine -/

section
variable (indicators : String → Option ι) (values : String → Option D)
  (params : String → PyValue D)

/-- A crossing is with the series under `crosses`. -/
def crossingRule (side : Side) (left : ι) : Except PyError (Rule ι D) :=
  (ConditionEvaluator.getOtherSeries params indicators).map fun other =>
    (other.map fun other => .crosses side left (.indicator other)).getD .never

/-- A comparison is with the threshold if there is one, or else with the series under
`other`. -/
def comparisonRule (side : Side) (left : ι) : Except PyError (Rule ι D) := do
  let threshold ← ConditionEvaluator.getThreshold runtime params values
  match threshold with
  | some x => return .compares side left (.constant x)
  | none =>
    let other ← getIndicator indicators (params "other")
    return (other.map fun other => .compares side left (.indicator other)).getD .never

/-- The rule that `_evaluate_one` evaluates at the last two bars. -/
def liveRule (cond : Condition D) : Except PyError (Rule ι D) :=
  match indicators (cond.indicator.getD "") with
  | none => .ok .never
  | some left =>
    let condType := runtime.upper (cond.type.getD "")
    if condType = "CROSSED_UP" then crossingRule indicators cond.params .above left
    else if condType = "CROSSED_DOWN" then crossingRule indicators cond.params .below left
    else if condType = "OVER" then
      comparisonRule runtime indicators values cond.params .above left
    else if condType = "UNDER" then
      comparisonRule runtime indicators values cond.params .below left
    else .ok .never

end

/-- The first `bars` values of every indicator. -/
def histories (indicators : String → Option ι) (v : ι → ℕ → D) (bars : ℕ) (id : String) :
    Option (List D) :=
  (indicators id).map fun i => (List.range bars).map (v i)

section
variable {runtime} {indicators : String → Option ι} {values : String → Option D}
  {params : String → PyValue D} {v : ι → ℕ → D} {t : ℕ}

theorem lastTwo_range (a : ℕ → D) (t : ℕ) :
    lastTwo ((List.range (t + 2)).map a) = some (a t, a (t + 1)) := by
  simp [lastTwo, List.range_succ]

theorem getLast?_range (a : ℕ → D) (t : ℕ) :
    ((List.range (t + 2)).map a).getLast? = some (a (t + 1)) := by
  simp [List.range_succ]

/-- A lookup of histories is the lookup of the indicators. -/
theorem getIndicator_histories (value : PyValue D) (bars : ℕ) :
    getIndicator (histories indicators v bars) value =
      (getIndicator indicators value).map fun found =>
        found.map fun i => (List.range bars).map (v i) := by
  cases value with
  | string s =>
    by_cases hs : s = ""
    · simp [getIndicator, hs, Except.map]
    · simp [getIndicator, hs, histories, Except.map]
  | container isEmpty => cases isEmpty <;> rfl
  | _ => rfl

variable [LinearOrder D]

theorem crossed_histories (side : Side) (left : ι) :
    ConditionEvaluator.crossed (histories indicators v (t + 2)) params side (v left t)
        (v left (t + 1)) =
      (crossingRule indicators params side left).map fun rule =>
        decide (rule.Holds CrossedSince v (t + 1)) := by
  rw [ConditionEvaluator.crossed, crossingRule, ConditionEvaluator.getOtherSeries,
    ConditionEvaluator.getOtherSeries, getIndicator_histories]
  cases getIndicator indicators (params "crosses") with
  | error e => rfl
  | ok other =>
    cases other with
    | none => rfl
    | some other =>
      simp only [Except.map, bind, Except.bind, Option.map_some, Option.bind_some,
        lastTwo_range]
      rfl

theorem beyond_histories (side : Side) (left : ι) :
    ConditionEvaluator.beyond runtime (histories indicators v (t + 2)) values params
        side (v left (t + 1)) =
      (comparisonRule runtime indicators values params side left).map fun rule =>
        decide (rule.Holds CrossedSince v (t + 1)) := by
  rw [ConditionEvaluator.beyond, comparisonRule]
  cases ConditionEvaluator.getThreshold runtime params values with
  | error e => rfl
  | ok threshold =>
    cases threshold with
    | some x => rfl
    | none =>
      simp only [bind, Except.bind, getIndicator_histories]
      cases getIndicator indicators (params "other") with
      | error e => rfl
      | ok other =>
        cases other with
        | none => rfl
        | some other =>
          simp only [Except.map, Option.map_some, Option.bind_some, getLast?_range]
          rfl

/-- From the second bar on the last two values are all that the rule needs. -/
theorem evaluateOne_eq_liveRule (cond : Condition D) :
    ConditionEvaluator.evaluateOne runtime (histories indicators v (t + 2)) values
        cond =
      (liveRule runtime indicators values cond).map fun rule =>
        decide (rule.Holds CrossedSince v (t + 1)) := by
  rw [ConditionEvaluator.evaluateOne, liveRule, histories]
  cases indicators (cond.indicator.getD "") with
  | none => rfl
  | some left =>
    simp only [Option.map_some, Option.getD_some, lastTwo_range, crossed_histories,
      beyond_histories, apply_ite (Except.map _)]
    rfl

theorem exists_evaluateAll {conditions : List (Condition D)}
    (hrules : ∀ c ∈ conditions, ∃ rule,
      liveRule runtime indicators values c = .ok rule) :
    ∃ met, ConditionEvaluator.evaluateAll runtime (histories indicators v (t + 2))
        values conditions = .ok met ∧
      (met = true ↔ ∀ c ∈ conditions, ∀ rule,
        liveRule runtime indicators values c = .ok rule →
          rule.Holds CrossedSince v (t + 1)) := by
  induction conditions with
  | nil => exact ⟨true, rfl, by simp⟩
  | cons c conditions ih =>
    rw [List.forall_mem_cons] at hrules
    obtain ⟨⟨rule, hrule⟩, hrules⟩ := hrules
    have hone : ConditionEvaluator.evaluateOne runtime (histories indicators v (t + 2))
        values c = .ok (decide (rule.Holds CrossedSince v (t + 1))) := by
      rw [evaluateOne_eq_liveRule, hrule]
      rfl
    simp only [ConditionEvaluator.evaluateAll, hone, bind, Except.bind, decide_eq_true_eq,
      List.forall_mem_cons, hrule, Except.ok.injEq, forall_eq']
    by_cases hholds : rule.Holds CrossedSince v (t + 1)
    · simpa only [hholds, if_true, true_and] using ih hrules
    · exact ⟨false, if_neg hholds, by simp [hholds]⟩

end

/-! ### The two readings of a spec -/

/-- The series that the engine computes: of the candles, and of the spec's indicators. -/
def liveIndicators (spec : StrategySpec D) (id : String) : Option String :=
  if id ∈ ["close", "high", "low", "volume", "open"] ∨
      id ∈ spec.indicators.map fun d => d.id.getD "" then some id
  else none

/-- The series that the loader computes. -/
def backtestIndicators (spec : StrategySpec D) : String → Option String :=
  YamlStrategyLoader.definedIndicators (fun id => id) spec

/-- The parameters of the loader, for the same overrides. -/
def backtestParameters (spec : StrategySpec D) (overrides : String → Option D) :
    String → Option (PyValue D) :=
  YamlStrategyLoader.resolvedParameters (fun name => (overrides name).map .number) spec

section
variable (spec : StrategySpec D) (overrides values : String → Option D)

/-- The rule that the loader evaluates for a condition. -/
def backtestRule (c : Condition D) : Except PyError (Rule String D) :=
  YamlStrategyLoader.conditionRule runtime (backtestIndicators spec)
    (backtestParameters spec overrides) c

/-- The engine and the loader read the same operands from a condition, or both read one
that is never met. -/
def LiveShares (c : Condition D) : Prop :=
  ∃ rule rule', liveRule runtime (liveIndicators spec) values c = .ok rule ∧
    backtestRule runtime spec overrides c = .ok rule' ∧ rule.Alike rule'

variable [LinearOrder D] (bars : ℕ) (v : String → ℕ → D)

/-- The engine decides a condition as the loader's signal does at the last bar. -/
def ConditionDecides (c : Condition D) : Prop :=
  ∃ met signal, ConditionEvaluator.evaluateOne runtime
      (histories (liveIndicators spec) v bars) values c = .ok met ∧
    YamlStrategyLoader.evaluateSingleCondition runtime (backtestIndicators spec)
      (backtestParameters spec overrides) c v = .ok signal ∧
    met = signal (bars - 1)

def ConditionsDecide (conditions : List (Condition D)) : Prop :=
  ∃ met signal, ConditionEvaluator.evaluate runtime
      (histories (liveIndicators spec) v bars) values conditions = .ok met ∧
    YamlStrategyLoader.evaluateConditions runtime (backtestIndicators spec)
      (backtestParameters spec overrides) v conditions = .ok signal ∧
    met = signal (bars - 1)

end

/-- The strategy can be started, and the engine decides entry and exit as the loader's
signals do at the last bar. -/
def DecidesAlike [AddMonoidWithOne D] [LinearOrder D] (spec : StrategySpec D)
    (overrides : String → Option D) (bars : ℕ) (v : String → ℕ → D) : Prop :=
  ∃ values entry exit, parameterValues runtime spec overrides = .ok values ∧
    YamlStrategyLoader.generateSignals runtime (fun id => id) v spec
      (fun name => (overrides name).map .number) = .ok (entry, exit) ∧
    ConditionEvaluator.evaluate runtime (histories (liveIndicators spec) v bars) values
      spec.entryConditions = .ok (entry (bars - 1)) ∧
    ConditionEvaluator.evaluate runtime (histories (liveIndicators spec) v bars) values
      spec.exitConditions = .ok (exit (bars - 1))

/-- The condition types that both handle. -/
def sharedTypes : List String := ["OVER", "UNDER", "CROSSED_UP", "CROSSED_DOWN"]

section
variable {runtime} {spec : StrategySpec D} {overrides values : String → Option D}
  {c : Condition D}

theorem tests_of_crossingRule {indicators : String → Option ι} {params : String → PyValue D}
    {side : Side} {left : ι} {rule : Rule ι D}
    (h : crossingRule indicators params side left = .ok rule) :
    rule = .never ∨ (RuleTest.crosses side).Tests left rule := by
  rw [crossingRule] at h
  cases hother : ConditionEvaluator.getOtherSeries params indicators with
  | error e =>
    rw [hother] at h
    cases h
  | ok other =>
    rw [hother] at h
    obtain rfl := Except.ok.inj h
    cases other with
    | none => exact .inl rfl
    | some other => exact .inr (.crosses side _)

theorem tests_of_comparisonRule {indicators : String → Option ι}
    {params : String → PyValue D} {side : Side} {left : ι} {rule : Rule ι D}
    (h : comparisonRule runtime indicators values params side left = .ok rule) :
    rule = .never ∨ (RuleTest.compares side).Tests left rule := by
  obtain ⟨threshold, -, h⟩ := bind_eq_ok_iff.mp h
  cases threshold with
  | some x =>
    obtain rfl := Except.ok.inj h
    exact .inr (.compares side _)
  | none =>
    obtain ⟨other, -, h⟩ := bind_eq_ok_iff.mp h
    obtain rfl := Except.ok.inj h
    cases other with
    | none => exact .inl rfl
    | some other => exact .inr (.compares side _)

/-- The engine's rule tests what the type says of the condition's indicator. -/
theorem tests_of_liveRule {indicators : String → Option ι} {type : String}
    (htype : c.type = some type) (hshared : type ∈ sharedTypes) {rule : Rule ι D}
    (h : liveRule runtime indicators values c = .ok rule) :
    rule = .never ∨ ∃ left test, indicators (c.indicator.getD "") = some left ∧
      YamlStrategyLoader.typeTest.lookup type = some test ∧ test.Tests left rule := by
  rw [liveRule] at h
  cases hleft : indicators (c.indicator.getD "") with
  | none =>
    rw [hleft] at h
    exact .inl (Except.ok.inj h).symm
  | some left =>
    simp only [hleft, htype, Option.getD_some] at h
    suffices htests : ∃ test, YamlStrategyLoader.typeTest.lookup type = some test ∧
        (rule = .never ∨ test.Tests left rule) by
      obtain ⟨test, hlookup, hnever | htests⟩ := htests
      · exact .inl hnever
      · exact .inr ⟨left, test, rfl, hlookup, htests⟩
    -- the types are written in capitals, so that `upper` leaves them
    have hupper : runtime.upper type = type := by
      apply runtime.upper_of_upper
      simp only [sharedTypes, List.mem_cons, List.not_mem_nil, or_false] at hshared
      rcases hshared with rfl | rfl | rfl | rfl <;> simp
    rw [hupper] at h
    simp only [sharedTypes, List.mem_cons, List.not_mem_nil, or_false] at hshared
    rcases hshared with rfl | rfl | rfl | rfl
    · exact ⟨_, rfl, tests_of_comparisonRule h⟩
    · exact ⟨_, rfl, tests_of_comparisonRule h⟩
    · exact ⟨_, rfl, tests_of_crossingRule h⟩
    · exact ⟨_, rfl, tests_of_crossingRule h⟩

theorem sameTest_of_shared {rule rule' : Rule String D}
    (htype : ∃ type ∈ sharedTypes, c.type = some type)
    (h : liveRule runtime (liveIndicators spec) values c = .ok rule)
    (h' : backtestRule runtime spec overrides c = .ok rule') : rule.SameTest rule' := by
  obtain ⟨type, hshared, htype⟩ := htype
  rcases tests_of_liveRule htype hshared h with rfl | ⟨left, test, hleft, hlookup, htests⟩
  · exact .never_left rule'
  · rcases YamlStrategyLoader.tests_of_conditionRule htype hlookup h' with
      rfl | ⟨id, left', hid, hleft', htests'⟩
    · exact .never_right rule
    · -- either names the series by its id
      have hleft : id = left := by
        rw [hid, Option.getD_some, liveIndicators] at hleft
        split_ifs at hleft
        exact Option.some.inj hleft
      have hleft' : id = left' := by
        rw [backtestIndicators, YamlStrategyLoader.definedIndicators] at hleft'
        split_ifs at hleft'
        exact Option.some.inj hleft'
      obtain rfl : left = left' := hleft.symm.trans hleft'
      exact htests.sameTest htests'

/-! ### Agreement -/

variable [LinearOrder D] {v : String → ℕ → D}

theorem signal_eq_backtestRule (c : Condition D) (v : String → ℕ → D) :
    YamlStrategyLoader.evaluateSingleCondition runtime (backtestIndicators spec)
        (backtestParameters spec overrides) c v =
      (backtestRule runtime spec overrides c).map fun rule t =>
        decide (rule.Holds CrossedSince v t) :=
  rfl

/-- From the second bar on the two rules are what is compared. -/
theorem conditionDecides_iff {t : ℕ} :
    ConditionDecides runtime spec overrides values (t + 2) v c ↔
      ∃ rule rule', liveRule runtime (liveIndicators spec) values c = .ok rule ∧
        backtestRule runtime spec overrides c = .ok rule' ∧
        (rule.Holds CrossedSince v (t + 1) ↔ rule'.Holds CrossedSince v (t + 1)) := by
  simp only [ConditionDecides, evaluateOne_eq_liveRule, signal_eq_backtestRule]
  constructor
  · rintro ⟨met, signal, hmet, hsignal, heq⟩
    obtain ⟨rule, hrule, rfl⟩ := map_eq_ok_iff.mp hmet
    obtain ⟨rule', hrule', rfl⟩ := map_eq_ok_iff.mp hsignal
    exact ⟨rule, rule', hrule, hrule', decide_eq_decide.mp heq⟩
  · rintro ⟨rule, rule', hrule, hrule', hiff⟩
    rw [hrule, hrule']
    exact ⟨_, _, rfl, rfl, decide_eq_decide.mpr hiff⟩

/-- At the first bar the engine meets no condition. -/
theorem conditionDecides_one_iff :
    ConditionDecides runtime spec overrides values 1 v c ↔
      ∃ rule', backtestRule runtime spec overrides c = .ok rule' ∧
        ¬ rule'.Holds CrossedSince v 0 := by
  have hone : ConditionEvaluator.evaluateOne runtime (histories (liveIndicators spec) v 1)
      values c = .ok false := by
    rw [ConditionEvaluator.evaluateOne, histories]
    cases liveIndicators spec (c.indicator.getD "") <;> rfl
  simp only [ConditionDecides, hone, signal_eq_backtestRule]
  constructor
  · rintro ⟨met, signal, hmet, hsignal, heq⟩
    obtain rfl := Except.ok.inj hmet
    obtain ⟨rule', hrule', rfl⟩ := map_eq_ok_iff.mp hsignal
    exact ⟨rule', hrule', of_decide_eq_false heq.symm⟩
  · rintro ⟨rule', hrule', hholds⟩
    rw [hrule']
    exact ⟨_, _, rfl, rfl, (decide_eq_false hholds).symm⟩

theorem LiveShares.conditionDecides
    (h : LiveShares runtime spec overrides values c) (t : ℕ) :
    ConditionDecides runtime spec overrides values (t + 2) v c := by
  obtain ⟨rule, rule', hrule, hrule', halike⟩ := h
  refine conditionDecides_iff.mpr ⟨rule, rule', hrule, hrule', ?_⟩
  exact halike.holds_iff_holds v (t + 1)

/-- Exactly the conditions that share their operands are decided alike at every bar from
the second on. -/
theorem forall_conditionDecides_iff [NoMaxOrder D] [NoMinOrder D] [Nonempty D]
    (htype : ∃ type ∈ sharedTypes, c.type = some type) :
    (∀ bars v, 2 ≤ bars →
        ConditionDecides runtime spec overrides values bars v c) ↔
      LiveShares runtime spec overrides values c := by
  constructor
  · intro hdecides
    obtain ⟨x⟩ := ‹Nonempty D›
    obtain ⟨rule, rule', hrule, hrule', -⟩ :=
      conditionDecides_iff.mp (hdecides (0 + 2) (fun _ _ => x) le_rfl)
    refine ⟨rule, rule', hrule, hrule', ?_⟩
    rw [← alike_iff_holds (sameTest_of_shared htype hrule hrule')]
    intro v t ht
    obtain ⟨t, rfl⟩ := Nat.exists_eq_add_one.mpr ht
    obtain ⟨rule₂, rule₂', hrule₂, hrule₂', hiff⟩ :=
      conditionDecides_iff.mp (hdecides (t + 2) v (by omega))
    obtain rfl := Except.ok.inj (hrule.symm.trans hrule₂)
    obtain rfl := Except.ok.inj (hrule'.symm.trans hrule₂')
    exact hiff
  · intro hshares bars v hbars
    obtain ⟨t, rfl⟩ := Nat.exists_eq_add_of_le' hbars
    exact hshares.conditionDecides t

/-- Conditions that are decided alike one by one are decided alike together. -/
theorem conditionsDecide_of_forall {conditions : List (Condition D)} {t : ℕ}
    (h : ∀ c ∈ conditions,
      ConditionDecides runtime spec overrides values (t + 2) v c) :
    ConditionsDecide runtime spec overrides values (t + 2) v conditions := by
  -- no conditions: neither side signals
  by_cases hne : conditions = []
  · exact ⟨false, fun _ => false, if_pos hne, if_pos hne, rfl⟩
  have hrules : ∀ c ∈ conditions, ∃ rule,
      liveRule runtime (liveIndicators spec) values c = .ok rule := by
    intro c hc
    obtain ⟨rule, _, hrule, -⟩ := conditionDecides_iff.mp (h c hc)
    exact ⟨rule, hrule⟩
  have hrules' : ∀ c ∈ conditions, ∃ rule',
      backtestRule runtime spec overrides c = .ok rule' := by
    intro c hc
    obtain ⟨_, rule', -, hrule', -⟩ := conditionDecides_iff.mp (h c hc)
    exact ⟨rule', hrule'⟩
  obtain ⟨met, hmet, hmetIff⟩ := exists_evaluateAll hrules
  obtain ⟨signal, hsignal, hsignalIff⟩ :=
    YamlStrategyLoader.exists_evaluateConditions hne hrules' v
  refine ⟨met, signal, (if_neg hne).trans hmet, hsignal, ?_⟩
  -- both demand all of their rules, the backtest at the last bar
  rw [Bool.eq_iff_iff, hmetIff, Nat.add_succ_sub_one, hsignalIff]
  apply forall₂_congr
  intro c hc
  obtain ⟨rule, rule', hrule, hrule', hiff⟩ := conditionDecides_iff.mp (h c hc)
  rw [backtestRule] at hrule'
  simp only [hrule, hrule', Except.ok.injEq, forall_eq', hiff]

theorem conditionsDecide_singleton {bars : ℕ} :
    ConditionsDecide runtime spec overrides values bars v [c] ↔
      ConditionDecides runtime spec overrides values bars v c := by
  have hone : ∀ indicatorValues : String → Option (List D),
      ConditionEvaluator.evaluate runtime indicatorValues values [c] =
        ConditionEvaluator.evaluateOne runtime indicatorValues values c := by
    intro indicatorValues
    rw [ConditionEvaluator.evaluate, if_neg (List.cons_ne_nil c [])]
    simp only [ConditionEvaluator.evaluateAll]
    cases ConditionEvaluator.evaluateOne runtime indicatorValues values c with
    | error e => rfl
    | ok met => cases met <;> rfl
  rw [ConditionsDecide, ConditionDecides, hone,
    YamlStrategyLoader.evaluateConditions_singleton]

theorem decidesAlike_iff [AddMonoidWithOne D] {bars : ℕ}
    (hnamed : YamlStrategyLoader.IsNamed spec) :
    DecidesAlike runtime spec overrides bars v ↔
      ∃ values, parameterValues runtime spec overrides = .ok values ∧
        ConditionsDecide runtime spec overrides values bars v spec.entryConditions ∧
        ConditionsDecide runtime spec overrides values bars v spec.exitConditions := by
  simp only [DecidesAlike, YamlStrategyLoader.generateSignals_eq_ok_iff hnamed]
  constructor
  · rintro ⟨values, entry, exit, hvalues, ⟨hentry, hexit⟩, hentryMet, hexitMet⟩
    exact ⟨values, hvalues, ⟨_, entry, hentryMet, hentry, rfl⟩,
      ⟨_, exit, hexitMet, hexit, rfl⟩⟩
  · rintro ⟨values, hvalues, ⟨_, entry, hentryMet, hentry, rfl⟩,
      ⟨_, exit, hexitMet, hexit, rfl⟩⟩
    exact ⟨values, entry, exit, hvalues, ⟨hentry, hexit⟩, hentryMet, hexitMet⟩

end

/-- The engine decides as the loader's signals do where the operands of every condition
are shared; none can be left out of it for a condition alone. -/
theorem live_decisions_of_shared [AddMonoidWithOne D] [LinearOrder D] [NoMaxOrder D]
    [NoMinOrder D] (runtime : PythonRuntime D) (spec : StrategySpec D)
    (overrides : String → Option D)
    (hshared : ∀ c ∈ spec.entryConditions ++ spec.exitConditions,
      ∃ type ∈ sharedTypes, c.type = some type) :
    (YamlStrategyLoader.IsNamed spec → ∀ values,
      parameterValues runtime spec overrides = .ok values →
      (∀ c ∈ spec.entryConditions ++ spec.exitConditions,
        LiveShares runtime spec overrides values c) →
      ∀ bars v, 2 ≤ bars → DecidesAlike runtime spec overrides bars v) ∧
    (∀ bars v, DecidesAlike runtime spec overrides bars v →
      YamlStrategyLoader.IsNamed spec ∧ Succeeds (parameterValues runtime spec overrides)) ∧
    (∀ c d, spec.entryConditions = [c] → spec.exitConditions = [d] → ∀ bars v,
      (DecidesAlike runtime spec overrides bars v ↔
        YamlStrategyLoader.IsNamed spec ∧ ∃ values,
          parameterValues runtime spec overrides = .ok values ∧
          ConditionDecides runtime spec overrides values bars v c ∧
          ConditionDecides runtime spec overrides values bars v d)) ∧
    ∀ c ∈ spec.entryConditions ++ spec.exitConditions, ∀ values,
      ((∀ bars v, 2 ≤ bars → ConditionDecides runtime spec overrides values bars v c) ↔
        LiveShares runtime spec overrides values c) ∧
      ∀ v, (ConditionDecides runtime spec overrides values 1 v c ↔
        ∃ rule, backtestRule runtime spec overrides c = .ok rule ∧
          ¬ rule.Holds CrossedSince v 0) := by
  have hnamed : ∀ {bars v}, DecidesAlike runtime spec overrides bars v →
      YamlStrategyLoader.IsNamed spec := by
    rintro bars v ⟨values, entry, exit, -, hsignals, -⟩
    exact YamlStrategyLoader.isNamed_of_generateSignals hsignals
  refine ⟨?_, ?_, ?_, ?_⟩
  -- shared operands are enough from two bars on
  · intro hnamed values hvalues hshares bars v hbars
    obtain ⟨t, rfl⟩ := Nat.exists_eq_add_of_le' hbars
    rw [List.forall_mem_append] at hshares
    refine (decidesAlike_iff hnamed).mpr ⟨values, hvalues, ?_, ?_⟩
    · exact conditionsDecide_of_forall fun c hc => (hshares.1 c hc).conditionDecides t
    · exact conditionsDecide_of_forall fun c hc => (hshares.2 c hc).conditionDecides t
  · intro bars v hdecides
    refine ⟨hnamed hdecides, ?_⟩
    obtain ⟨values, _, _, hvalues, -⟩ := hdecides
    exact ⟨values, hvalues⟩
  · intro c d hc hd bars v
    constructor
    · intro hdecides
      refine ⟨hnamed hdecides, ?_⟩
      simpa only [decidesAlike_iff (hnamed hdecides), hc, hd, conditionsDecide_singleton]
        using hdecides
    · rintro ⟨hnamed, hdecides⟩
      simpa only [decidesAlike_iff hnamed, hc, hd, conditionsDecide_singleton] using hdecides
  · intro c hc values
    exact ⟨forall_conditionDecides_iff (hshared c hc), fun v => conditionDecides_one_iff⟩

end

/-- A crossing of a level. -/
def levelSpec : StrategySpec ℚ where
  parameters := []
  indicators := [⟨some "rsi", some "RSI"⟩]
  entryConditions := [⟨some "CROSSED_UP", some "rsi", fun key =>
    if key = "value" then .number 30 else .none⟩]
  exitConditions := [⟨some "OVER", some "rsi", fun key =>
    if key = "value" then .number 70 else .none⟩]

/-- The series crosses the level. The engine looks for another series to cross, and does
not enter where the loader does. -/
theorem levelSpec_not_decidesAlike :
    ¬ DecidesAlike asciiPython levelSpec (fun _ => none) 2
      fun _ t => if t = 0 then 20 else 40 := by
  intro hdecides
  have hnamed : YamlStrategyLoader.IsNamed levelSpec :=
    ⟨by simp [levelSpec], by simp [levelSpec]⟩
  obtain ⟨values, -, hentry, -⟩ := (decidesAlike_iff hnamed).mp hdecides
  obtain ⟨rule, rule', hrule, hrule', hiff⟩ :=
    conditionDecides_iff.mp (conditionsDecide_singleton.mp hentry)
  obtain rfl : .never = rule := Except.ok.inj hrule
  obtain rfl : .crosses .above "rsi" (.constant 30) = rule' := Except.ok.inj hrule'
  refine hiff.mpr ⟨?_, ?_⟩
  · norm_num [Side.Beyond, Operand.values, Operand.value]
  · norm_num [Side.Beyond, Operand.values, Operand.value]

/-- A crossing of two averages with the other one under both keys, and a level that is a
parameter. -/
def averagesSpec : StrategySpec ℚ where
  parameters := [⟨some "level", none, none, some (.number 30)⟩]
  indicators := [⟨some "fast", some "SMA"⟩, ⟨some "slow", some "SMA"⟩]
  entryConditions := [⟨some "CROSSED_UP", some "fast", fun key =>
    if key = "crosses" ∨ key = "other" then .string "slow" else .none⟩]
  exitConditions := [⟨some "UNDER", some "fast", fun key =>
    if key = "value" then .string "$\x7blevel\x7d" else .none⟩]

theorem averagesSpec_decidesAlike :
    DecidesAlike asciiPython averagesSpec (fun _ => none) 3 fun _ t => t := by
  refine (live_decisions_of_shared asciiPython averagesSpec (fun _ => none) ?_).1 ?_ _ rfl ?_
    3 _ (by norm_num)
  · intro c hc
    simp only [averagesSpec, List.cons_append, List.nil_append, List.mem_cons,
      List.not_mem_nil, or_false] at hc
    rcases hc with rfl | rfl
    · exact ⟨"CROSSED_UP", by simp [sharedTypes], rfl⟩
    · exact ⟨"UNDER", by simp [sharedTypes], rfl⟩
  · exact ⟨by simp [averagesSpec], by simp [averagesSpec]⟩
  · intro c hc
    simp only [averagesSpec, List.cons_append, List.nil_append, List.mem_cons,
      List.not_mem_nil, or_false] at hc
    rcases hc with rfl | rfl
    · exact ⟨_, _, rfl, rfl, .inl rfl⟩
    · -- the threshold is a parameter, which both sides read from the default
      have hname : parameterName "$\x7blevel\x7d" = some "level" := by decide +kernel
      have hplaceholder : asciiPython.placeholder "$\x7blevel\x7d" = some "level" := by
        decide +kernel
      have hthreshold (values : String → Option ℚ) : ConditionEvaluator.getThreshold
          asciiPython (fun key => if key = "value" then .string "$\x7blevel\x7d" else .none)
          values = .ok (values "level") := by
        simp only [ConditionEvaluator.getThreshold, if_true, hname]
      have hsubstitute : YamlStrategyLoader.substituteParam asciiPython
          (backtestParameters averagesSpec fun _ => none) (.string "$\x7blevel\x7d") =
          .number 30 := by
        simp only [YamlStrategyLoader.substituteParam, hplaceholder]
        rfl
      refine ⟨.compares .below "fast" (.constant 30), .compares .below "fast" (.constant 30),
        ?_, ?_, .inl rfl⟩
      · change comparisonRule asciiPython (liveIndicators averagesSpec) _ _ .below "fast" = _
        rw [comparisonRule, hthreshold]
        rfl
      · have hfast : backtestIndicators averagesSpec "fast" = some "fast" := rfl
        simp [backtestRule, YamlStrategyLoader.conditionRule, hfast, getIndicator,
          YamlStrategyLoader.otherOperand, YamlStrategyLoader.valueOperand, hsubstitute,
          PythonRuntime.float, Except.map]

end TradeStream.StrategyExecution
