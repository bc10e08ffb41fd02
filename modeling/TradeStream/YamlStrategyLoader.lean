import TradeStream.Fallible
import TradeStream.SeriesRules

/-! Strategy specs as Python reads them, and `YamlStrategyLoader`: the signals of a spec
at every bar. An indicator is whatever the registry makes of a definition; a valuation
gives its series. -/
namespace TradeStream.Backtesting
open TradeStream.Fallible TradeStream.SeriesRules

/-- A value of a spec. -/
inductive PyValue (D : Type) where
  | none
  | bool (b : Bool)
  | number (x : D)
  | string (s : String)
  -- a list or a dict, which cannot be the key of a dict
  | container (isEmpty : Bool)

inductive PyError where
  | keyError (key : String)
  | valueError
  | typeError
  | indexError
  | zeroDivisionError
  deriving DecidableEq, Repr

/-- What the code takes from Python for texts and numbers. -/
structure PythonRuntime (D : Type) where
  /-- The characters of `\w`. -/
  isWord : Char → Bool
  /-- `float` of a text; `none` stands for a `ValueError`. -/
  parseFloat : String → Option D
  boolFloat : Bool → D
  upper : String → String
  upper_of_upper : ∀ s : String, (∀ c ∈ s.toList, c.isUpper = true ∨ c = '_') → upper s = s

structure Condition (D : Type) where
  type : Option String
  indicator : Option String
  /-- `params.get`. -/
  params : String → PyValue D

structure ParameterDef (D : Type) where
  name : Option String
  min : Option (PyValue D)
  max : Option (PyValue D)
  defaultValue : Option (PyValue D)

structure IndicatorDef where
  id : Option String
  type : Option String

structure StrategySpec (D : Type) where
  parameters : List (ParameterDef D)
  indicators : List IndicatorDef
  entryConditions : List (Condition D)
  exitConditions : List (Condition D)

section
variable {D ι : Type} (runtime : PythonRuntime D)

namespace PythonRuntime

def float : PyValue D → Except PyError D
  | .bool b => .ok (runtime.boolFloat b)
  | .number x => .ok x
  | .string s =>
    match runtime.parseFloat s with
    | some x => .ok x
    | none => .error .valueError
  | .none | .container _ => .error .typeError

/-- The group of a full match of `\$\{(\w+)\}`. -/
def placeholder (text : String) : Option String :=
  match text.toList with
  | '$' :: '\x7b' :: rest =>
    if rest.getLast? = some '\x7d' ∧ rest.dropLast ≠ [] ∧ rest.dropLast.all runtime.isWord then
      some (String.ofList rest.dropLast)
    else none
  | _ => none

end PythonRuntime

/-- `dict.get(id)` for an id that is not falsy. The keys are texts, and of these the empty
one is falsy. -/
def getIndicator (indicators : String → Option ι) : PyValue D → Except PyError (Option ι)
  | .string s => .ok (if s = "" then none else indicators s)
  | .container false => .error .typeError
  | _ => .ok none

namespace YamlStrategyLoader

/-- `_resolve_parameters`. -/
def resolveParameters (overrides : String → Option (PyValue D)) (spec : StrategySpec D) :
    Except PyError (String → Option (PyValue D)) :=
  spec.parameters.foldlM (fun params paramDef =>
    match paramDef.name with
    | none => .error (.keyError "name")
    | some name =>
      match overrides name, paramDef.defaultValue.getD .none with
      | some value, _ => .ok (Function.update params name (some value))
      | none, .none => .ok params
      | none, value => .ok (Function.update params name (some value))) fun _ => none

/-- `_substitute_param`. -/
def substituteParam (params : String → Option (PyValue D)) : PyValue D → PyValue D
  | .string s =>
    match runtime.placeholder s with
    | some name => (params name).getD (.string s)
    | none => .string s
  | value => value

/-- `_compute_indicators`, for a registry that makes `create id` of the definition with
that id. -/
def computeIndicators (create : String → ι) (spec : StrategySpec D) :
    Except PyError (String → Option ι) :=
  spec.indicators.foldlM (fun indicators indDef =>
    match indDef.id, indDef.type with
    | none, _ => .error (.keyError "id")
    | some _, none => .error (.keyError "type")
    | some id, some _ => .ok (Function.update indicators id (some (create id)))) fun _ => none

section
variable (indicators : String → Option ι) (params : String → Option (PyValue D))
  (condition : Condition D)

/-- The threshold, if a `value` is given. -/
def valueOperand : Except PyError (Option (Operand ι D)) :=
  match substituteParam runtime params (condition.params "value") with
  | .none => .ok none
  | value => (runtime.float value).map fun x => some (.constant x)

/-- The other indicator if there is one, or else the threshold. -/
def otherOperand : Except PyError (Option (Operand ι D)) :=
  match getIndicator indicators (condition.params "other") with
  | .error e => .error e
  | .ok (some other) => .ok (some (.indicator other))
  | .ok none => valueOperand runtime params condition

/-- The rule that `_evaluate_single_condition` evaluates on the series. A condition
without an indicator or without an operand is false at every bar. -/
def conditionRule : Except PyError (Rule ι D) :=
  match condition.type, condition.indicator with
  | none, _ => .error (.keyError "type")
  | some _, none => .error (.keyError "indicator")
  | some condType, some indicatorId =>
    match indicators indicatorId with
    | none => .ok .never
    | some indicator =>
      -- without an operand the series is `False` throughout
      let ofOperand (test : Operand ι D → Rule ι D)
          (operand : Except PyError (Option (Operand ι D))) :=
        operand.map fun operand => (operand.map test).getD .never
      if condType = "OVER" then
        ofOperand (.compares .above indicator) (otherOperand runtime indicators params condition)
      else if condType = "UNDER" then
        ofOperand (.compares .below indicator) (otherOperand runtime indicators params condition)
      else if condType = "CROSSED_UP" then
        ofOperand (.crosses .above indicator) (otherOperand runtime indicators params condition)
      else if condType = "CROSSED_DOWN" then
        ofOperand (.crosses .below indicator) (otherOperand runtime indicators params condition)
      else if condType = "OVER_CONSTANT" then
        ofOperand (.compares .above indicator) (valueOperand runtime params condition)
      else if condType = "UNDER_CONSTANT" then
        ofOperand (.compares .below indicator) (valueOperand runtime params condition)
      -- the loader reads no bar count: it compares with the bar before
      else if condType = "IS_RISING" then .ok (.moves .above indicator 1)
      else if condType = "IS_FALLING" then .ok (.moves .below indicator 1)
      else .ok .never

variable [LinearOrder D] (v : ι → ℕ → D)

/-- `_evaluate_single_condition`. A crossing compares with `shift(1)`, which is not a
number at the first bar. -/
def evaluateSingleCondition : Except PyError (ℕ → Bool) :=
  (conditionRule runtime indicators params condition).map fun rule t =>
    rule.Holds CrossedSince v t

/-- `_evaluate_conditions`. -/
def evaluateConditions (conditions : List (Condition D)) : Except PyError (ℕ → Bool) :=
  if conditions = [] then .ok fun _ => false
  else conditions.foldlM (fun result cond => do
    let signal ← evaluateSingleCondition runtime indicators params cond v
    return fun t => result t && signal t) fun _ => true

end

/-- `generate_signals`: entry and exit. -/
def generateSignals [LinearOrder D] (create : String → ι) (v : ι → ℕ → D)
    (spec : StrategySpec D) (overrides : String → Option (PyValue D)) :
    Except PyError ((ℕ → Bool) × (ℕ → Bool)) := do
  let params ← resolveParameters overrides spec
  let indicators ← computeIndicators create spec
  let entry ← evaluateConditions runtime indicators params v spec.entryConditions
  let exit ← evaluateConditions runtime indicators params v spec.exitConditions
  return (entry, exit)

section
variable {runtime} {indicators : String → Option ι} {params : String → Option (PyValue D)}

/-- The loop adds to what holds so far the rules of the conditions left. -/
theorem exists_foldlM_evaluate [LinearOrder D] {conditions : List (Condition D)}
    (hrules : ∀ c ∈ conditions, ∃ rule, conditionRule runtime indicators params c = .ok rule)
    (v : ι → ℕ → D) (result : ℕ → Bool) :
    ∃ signal, conditions.foldlM (fun result cond => do
        let signal ← evaluateSingleCondition runtime indicators params cond v
        return fun t => result t && signal t) result = (.ok signal : Except PyError _) ∧
      ∀ t, signal t = true ↔ result t = true ∧ ∀ c ∈ conditions, ∀ rule,
        conditionRule runtime indicators params c = .ok rule →
          rule.Holds CrossedSince v t := by
  induction conditions generalizing result with
  | nil => exact ⟨result, rfl, by simp⟩
  | cons c conditions ih =>
    rw [List.forall_mem_cons] at hrules
    obtain ⟨⟨rule, hrule⟩, hrules⟩ := hrules
    obtain ⟨signal, hsignal, hiff⟩ :=
      ih hrules fun t => result t && decide (rule.Holds CrossedSince v t)
    refine ⟨signal, ?_, ?_⟩
    · rw [List.foldlM_cons, evaluateSingleCondition, hrule]
      exact hsignal
    · intro t
      rw [hiff]
      simp [hrule, and_assoc]

/-- The signal of conditions that can all be evaluated is true where all their rules
hold. -/
theorem exists_evaluateConditions [LinearOrder D] {conditions : List (Condition D)}
    (hne : conditions ≠ [])
    (hrules : ∀ c ∈ conditions, ∃ rule, conditionRule runtime indicators params c = .ok rule)
    (v : ι → ℕ → D) :
    ∃ signal, evaluateConditions runtime indicators params v conditions = .ok signal ∧
      ∀ t, signal t = true ↔ ∀ c ∈ conditions, ∀ rule,
        conditionRule runtime indicators params c = .ok rule →
          rule.Holds CrossedSince v t := by
  obtain ⟨signal, hsignal, hiff⟩ := exists_foldlM_evaluate hrules v fun _ => true
  refine ⟨signal, ?_, ?_⟩
  · rw [evaluateConditions, if_neg hne]
    exact hsignal
  · simpa using hiff

/-- What a condition of each type tests. -/
def typeTest : List (String × RuleTest) :=
  [("OVER", .compares .above), ("UNDER", .compares .below), ("CROSSED_UP", .crosses .above),
    ("CROSSED_DOWN", .crosses .below), ("OVER_CONSTANT", .compares .above),
    ("UNDER_CONSTANT", .compares .below), ("IS_RISING", .moves .above),
    ("IS_FALLING", .moves .below)]

theorem tests_of_map {test : RuleTest} {left : ι} {ofRight : Operand ι D → Rule ι D}
    (htest : ∀ right, test.Tests left (ofRight right))
    {operand : Except PyError (Option (Operand ι D))} {rule : Rule ι D}
    (h : (operand.map fun operand => (operand.map ofRight).getD .never) = .ok rule) :
    rule = .never ∨ test.Tests left rule := by
  cases operand with
  | error e => cases h
  | ok operand =>
    obtain rfl := Except.ok.inj h
    cases operand with
    | none => exact .inl rfl
    | some right => exact .inr (htest right)

/-- The rule tests what the type says of the condition's indicator. -/
theorem tests_of_conditionRule {c : Condition D} {type : String} (htype : c.type = some type)
    {test : RuleTest} (htest : typeTest.lookup type = some test) {rule : Rule ι D}
    (h : conditionRule runtime indicators params c = .ok rule) :
    rule = .never ∨ ∃ id left, c.indicator = some id ∧ indicators id = some left ∧
      test.Tests left rule := by
  rw [conditionRule, htype] at h
  cases hid : c.indicator with
  | none => simp [hid] at h
  | some id =>
    simp only [hid] at h
    cases hleft : indicators id with
    | none =>
      rw [hleft] at h
      exact .inl (Except.ok.inj h).symm
    | some left =>
      simp only [hleft] at h
      suffices htests : rule = .never ∨ test.Tests left rule from
        htests.imp_right fun htests => ⟨id, left, rfl, hleft, htests⟩
      -- one branch of `conditionRule` for each type of the table
      have hmem : (type, test) ∈ typeTest := by
        obtain ⟨before, after, hsplit, -⟩ := List.lookup_eq_some_iff.mp htest
        rw [hsplit]
        exact List.mem_append_cons_self
      simp only [typeTest, List.mem_cons, List.not_mem_nil, or_false, Prod.mk.injEq] at hmem
      rcases hmem with ⟨rfl, rfl⟩ | ⟨rfl, rfl⟩ | ⟨rfl, rfl⟩ | ⟨rfl, rfl⟩ | ⟨rfl, rfl⟩ |
        ⟨rfl, rfl⟩ | ⟨rfl, rfl⟩ | ⟨rfl, rfl⟩
      · exact tests_of_map (fun right => .compares .above right) h
      · exact tests_of_map (fun right => .compares .below right) h
      · exact tests_of_map (fun right => .crosses .above right) h
      · exact tests_of_map (fun right => .crosses .below right) h
      · exact tests_of_map (fun right => .compares .above right) h
      · exact tests_of_map (fun right => .compares .below right) h
      · exact .inr (Except.ok.inj h ▸ .moves .above 1)
      · exact .inr (Except.ok.inj h ▸ .moves .below 1)

theorem succeeds_resolveParameters_iff {overrides : String → Option (PyValue D)}
    {spec : StrategySpec D} :
    Succeeds (resolveParameters overrides spec) ↔ ∀ d ∈ spec.parameters, d.name ≠ none := by
  rw [resolveParameters]
  apply succeeds_foldlM_iff_forall_mem
  intro params d
  cases d.name with
  | none => simp
  | some name =>
    simp only [ne_eq, reduceCtorEq, not_false_eq_true, iff_true]
    split <;> exact succeeds_ok _

theorem succeeds_computeIndicators_iff {create : String → ι} {spec : StrategySpec D} :
    Succeeds (computeIndicators create spec) ↔
      ∀ d ∈ spec.indicators, d.id ≠ none ∧ d.type ≠ none := by
  rw [computeIndicators]
  apply succeeds_foldlM_iff_forall_mem
  intro indicators d
  cases d.id with
  | none => simp
  | some id => cases d.type <;> simp

/-- The indicators that the spec defines. -/
def definedIndicators (create : String → ι) (spec : StrategySpec D) (id : String) : Option ι :=
  if some id ∈ spec.indicators.map IndicatorDef.id then some (create id) else none

/-- The parameters that the loader resolves, if it can. -/
def resolvedParameters (overrides : String → Option (PyValue D)) (spec : StrategySpec D) :
    String → Option (PyValue D) :=
  match resolveParameters overrides spec with
  | .ok params => params
  | .error _ => fun _ => none

/-- The names that the loader asks for: of every parameter, and of every indicator. -/
structure IsNamed (spec : StrategySpec D) : Prop where
  parameters : ∀ d ∈ spec.parameters, d.name ≠ none
  indicators : ∀ d ∈ spec.indicators, d.id ≠ none ∧ d.type ≠ none

theorem computeIndicators_eq {create : String → ι} {spec : StrategySpec D}
    (hids : ∀ d ∈ spec.indicators, d.id ≠ none ∧ d.type ≠ none) :
    computeIndicators create spec = .ok (definedIndicators create spec) := by
  obtain ⟨parameters, defs, entryConditions, exitConditions⟩ := spec
  -- whatever is there at first, since a later definition replaces an earlier one
  suffices hloop : ∀ indicators : String → Option ι,
      defs.foldlM (fun indicators indDef =>
        match indDef.id, indDef.type with
        | none, _ => .error (.keyError "id")
        | some _, none => .error (.keyError "type")
        | some id, some _ => .ok (Function.update indicators id (some (create id))))
        indicators = (.ok fun id =>
          if some id ∈ defs.map IndicatorDef.id then some (create id) else indicators id :
          Except PyError (String → Option ι)) from
    hloop fun _ => none
  simp only at hids
  induction defs with
  | nil => exact fun indicators => by simp; rfl
  | cons d defs ih =>
    intro indicators
    rw [List.forall_mem_cons] at hids
    obtain ⟨⟨hid, htype⟩, hids⟩ := hids
    obtain ⟨id, hid⟩ := Option.ne_none_iff_exists'.mp hid
    obtain ⟨type, htype⟩ := Option.ne_none_iff_exists'.mp htype
    rw [List.foldlM_cons, hid, htype]
    simp only [bind, Except.bind]
    rw [ih hids]
    congr 1
    funext id'
    by_cases heq : id' = id
    · simp [hid, heq]
    · simp [hid, heq]

section
variable [LinearOrder D] {create : String → ι} {v : ι → ℕ → D} {spec : StrategySpec D}
  {overrides : String → Option (PyValue D)}

theorem isNamed_of_generateSignals {signals : (ℕ → Bool) × (ℕ → Bool)}
    (h : generateSignals runtime create v spec overrides = .ok signals) : IsNamed spec := by
  simp only [generateSignals, bind_eq_ok_iff] at h
  obtain ⟨params, hparams, indicators, hindicators, -⟩ := h
  exact ⟨succeeds_resolveParameters_iff.mp ⟨params, hparams⟩,
    succeeds_computeIndicators_iff.mp ⟨indicators, hindicators⟩⟩

theorem generateSignals_eq_ok_iff (h : IsNamed spec) {entry exit : ℕ → Bool} :
    generateSignals runtime create v spec overrides = .ok (entry, exit) ↔
      evaluateConditions runtime (definedIndicators create spec)
          (resolvedParameters overrides spec) v spec.entryConditions = .ok entry ∧
        evaluateConditions runtime (definedIndicators create spec)
          (resolvedParameters overrides spec) v spec.exitConditions = .ok exit := by
  obtain ⟨params, hparams⟩ : Succeeds (resolveParameters overrides spec) :=
    succeeds_resolveParameters_iff.mpr h.parameters
  have hresolved : resolvedParameters overrides spec = params := by
    rw [resolvedParameters, hparams]
  simp only [generateSignals, hparams, computeIndicators_eq h.indicators, hresolved,
    bind_eq_ok_iff, Except.ok.injEq, exists_eq_left', pure, Except.pure, Prod.mk.injEq]
  constructor
  · rintro ⟨_, hentry, _, hexit, rfl, rfl⟩
    exact ⟨hentry, hexit⟩
  · rintro ⟨hentry, hexit⟩
    exact ⟨entry, hentry, exit, hexit, rfl, rfl⟩

theorem evaluateConditions_singleton {indicators : String → Option ι}
    {params : String → Option (PyValue D)} (c : Condition D) :
    evaluateConditions runtime indicators params v [c] =
      evaluateSingleCondition runtime indicators params c v := by
  rw [evaluateConditions, if_neg (List.cons_ne_nil c []), List.foldlM_cons]
  cases evaluateSingleCondition runtime indicators params c v with
  | error e => rfl
  | ok signal =>
    simp only [bind, Except.bind, pure, Except.pure, List.foldlM_nil, Bool.true_and]

end

end

end YamlStrategyLoader

end

end TradeStream.Backtesting
