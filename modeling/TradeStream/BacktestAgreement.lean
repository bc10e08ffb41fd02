import TradeStream.StrategyConfigValidation
import TradeStream.YamlStrategyLoader

/-! One spec, two interpreters: the rules that `ConfigurableStrategyFactory` builds, and
the signals of `YamlStrategyLoader`. -/
namespace TradeStream.Configurable
open TradeStream.Fallible TradeStream.SeriesRules

section
variable {D : Type} (runtime : JavaRuntime D) (ta4j : Ta4j D)

/-! ### The rules of ta4j -/

def comparisonRule (cls : String) (left : Ta4jObject D) (right : Operand (Ta4jObject D) D) :
    Option (Rule (Ta4jObject D) D) :=
  if cls = "OverIndicatorRule" then some (.compares .above left right)
  else if cls = "UnderIndicatorRule" then some (.compares .below left right)
  else if cls = "CrossedUpIndicatorRule" then some (.crosses .above left right)
  else if cls = "CrossedDownIndicatorRule" then some (.crosses .below left right)
  else none

def trendRule (cls : String) (left : Ta4jObject D) (barCount : Int32) :
    Option (Rule (Ta4jObject D) D) :=
  if cls = "IsRisingRule" then some (.moves .above left barCount.toInt)
  else if cls = "IsFallingRule" then some (.moves .below left barCount.toInt)
  else none

/-- What a rule object of ta4j tests. -/
def ruleOf : Ta4jObject D → Option (Rule (Ta4jObject D) D)
  | .object cls [.inr left, .inr right] => comparisonRule cls left (.indicator right)
  | .object cls [.inr left, .inl (.double x)] => comparisonRule cls left (.constant x)
  | .object cls [.inr left, .inl (.int n)] => trendRule cls left n
  | _ => none

/-- Whether a rule object is satisfied at a bar. -/
def IsSatisfied [LinearOrder D] (v : Ta4jObject D → ℕ → D) (object : Ta4jObject D) (t : ℕ) :
    Prop :=
  match object with
  | .object "AndRule" [.inr a, .inr b] => IsSatisfied v a t ∧ IsSatisfied v b t
  | object => ∃ rule, ruleOf object = some rule ∧ rule.Holds CrossedFrom v t

/-- The rule that a factory of the registry makes, for the factories of comparisons,
crossings and moves. -/
def RuleFactory.rule? (indicators : IndicatorMap D) (params : ResolvedParams D) :
    RuleFactory → Option (Rule (Ta4jObject D) D)
  | operandOrValue cls key => do
    let left ← (params "indicator").bind fun id => indicators (some id.toString)
    let right ← match params key with
      | some id => (indicators (some id.toString)).map .indicator
      | none => (params.double? runtime "value" none).map .constant
    comparisonRule cls left right
  | threshold cls key => do
    let left ← (params "indicator").bind fun id => indicators (some id.toString)
    let x ← params.double? runtime key none
    comparisonRule cls left (.constant x)
  | trend cls => do
    let left ← (params "indicator").bind fun id => indicators (some id.toString)
    let barCount ← params.int? runtime "barCount" (some 1)
    trendRule cls left barCount
  | _ => none

variable {runtime ta4j}

theorem construct_eq_ok {cls : String} {args : List (Ta4jArg D)} {object : Ta4jObject D}
    (h : ta4j.construct cls args = .ok object) : object = .object cls args := by
  unfold Ta4j.construct at h
  split at h
  · exact (Except.ok.inj h).symm
  · cases h

theorem find_eq_ok_iff {indicators : IndicatorMap D} {id : String} {object : Ta4jObject D} :
    indicators.find id = .ok object ↔ indicators (some id) = some object := by
  unfold IndicatorMap.find
  cases indicators (some id) <;> simp

theorem operand_eq_ok_iff {indicators : IndicatorMap D} {params : ResolvedParams D}
    {key : String} {object : Ta4jObject D} :
    operand indicators params key = .ok object ↔
      ((params key).bind fun id => indicators (some id.toString)) = some object := by
  simp only [operand, bind_eq_ok_iff, ResolvedParams.getString_eq_ok_iff, find_eq_ok_iff]
  cases params key <;> simp

/-- The factories whose rules test series. -/
def RuleFactory.IsTest : RuleFactory → Prop
  | operandOrValue cls _ | threshold cls _ =>
    cls ∈ ["OverIndicatorRule", "UnderIndicatorRule", "CrossedUpIndicatorRule",
      "CrossedDownIndicatorRule"]
  | trend cls => cls ∈ ["IsRisingRule", "IsFallingRule"]
  | _ => False

theorem ruleOf_of_create {factory : RuleFactory} (hfactory : factory.IsTest)
    {indicators : IndicatorMap D} {params : ResolvedParams D} {object : Ta4jObject D}
    (h : factory.create runtime ta4j indicators params = .ok object) :
    ruleOf object = factory.rule? runtime indicators params := by
  cases factory with
  | operandOrValue cls key =>
    simp only [RuleFactory.create, bind_eq_ok_iff, operand_eq_ok_iff] at h
    obtain ⟨left, hleft, h⟩ := h
    simp only [RuleFactory.rule?, hleft, Option.bind_eq_bind, Option.bind_some]
    -- the right side is the series that `key` names, or else the number `value`
    cases hkey : params key with
    | none =>
      simp only [hkey, Option.isSome_none, Bool.false_eq_true, if_false, bind_eq_ok_iff,
        ResolvedParams.getDouble_eq_ok_iff] at h
      obtain ⟨x, hx, h⟩ := h
      rw [construct_eq_ok h, hx]
      rfl
    | some id =>
      simp only [hkey, Option.isSome_some, if_true, bind_eq_ok_iff, operand_eq_ok_iff,
        Option.bind_some] at h
      obtain ⟨right, hright, h⟩ := h
      simp only [construct_eq_ok h, hright, Option.map_some]
      rfl
  | threshold cls key =>
    simp only [RuleFactory.create, bind_eq_ok_iff, operand_eq_ok_iff,
      ResolvedParams.getDouble_eq_ok_iff] at h
    obtain ⟨left, hleft, x, hx, h⟩ := h
    simp only [RuleFactory.rule?, hleft, hx, Option.bind_eq_bind, Option.bind_some]
    rw [construct_eq_ok h]
    rfl
  | trend cls =>
    simp only [RuleFactory.create, bind_eq_ok_iff, operand_eq_ok_iff,
      ResolvedParams.getInt_eq_ok_iff] at h
    obtain ⟨left, hleft, n, hn, h⟩ := h
    simp only [RuleFactory.rule?, hleft, hn, Option.bind_eq_bind, Option.bind_some]
    rw [construct_eq_ok h]
    rfl
  | _ => exact absurd hfactory id

theorem comparisonRule_ne_none {cls : String} (h : cls ∈ ["OverIndicatorRule",
    "UnderIndicatorRule", "CrossedUpIndicatorRule", "CrossedDownIndicatorRule"])
    (left : Ta4jObject D) (right : Operand (Ta4jObject D) D) :
    comparisonRule cls left right ≠ none := by
  simp only [List.mem_cons, List.not_mem_nil, or_false] at h
  rcases h with rfl | rfl | rfl | rfl <;> simp [comparisonRule]

theorem trendRule_ne_none {cls : String} (h : cls ∈ ["IsRisingRule", "IsFallingRule"])
    (left : Ta4jObject D) (barCount : Int32) : trendRule cls left barCount ≠ none := by
  simp only [List.mem_cons, List.not_mem_nil, or_false] at h
  rcases h with rfl | rfl <;> simp [trendRule]

theorem rule?_ne_none {factory : RuleFactory} (hfactory : factory.IsTest)
    {indicators : IndicatorMap D} {params : ResolvedParams D} {object : Ta4jObject D}
    (h : factory.create runtime ta4j indicators params = .ok object) :
    factory.rule? runtime indicators params ≠ none := by
  -- every class that such a factory constructs is one that `ruleOf` reads
  rw [← ruleOf_of_create hfactory h]
  cases factory with
  | operandOrValue cls key =>
    simp only [RuleFactory.create, bind_eq_ok_iff] at h
    obtain ⟨left, -, h⟩ := h
    split at h
    · obtain ⟨right, -, h⟩ := bind_eq_ok_iff.mp h
      rw [construct_eq_ok h]
      exact comparisonRule_ne_none hfactory left _
    · obtain ⟨x, -, h⟩ := bind_eq_ok_iff.mp h
      rw [construct_eq_ok h]
      exact comparisonRule_ne_none hfactory left _
  | threshold cls key =>
    simp only [RuleFactory.create, bind_eq_ok_iff] at h
    obtain ⟨left, -, x, -, h⟩ := h
    rw [construct_eq_ok h]
    exact comparisonRule_ne_none hfactory left _
  | trend cls =>
    simp only [RuleFactory.create, bind_eq_ok_iff] at h
    obtain ⟨left, -, n, -, h⟩ := h
    rw [construct_eq_ok h]
    exact trendRule_ne_none hfactory left n
  | _ => exact absurd hfactory id

theorem isSatisfied_iff [LinearOrder D] {object : Ta4jObject D} {rule : Rule (Ta4jObject D) D}
    (h : ruleOf object = some rule) (v : Ta4jObject D → ℕ → D) (t : ℕ) :
    IsSatisfied v object t ↔ rule.Holds CrossedFrom v t := by
  unfold IsSatisfied
  split
  · simp [ruleOf, comparisonRule] at h
  · simp [h]

/-! ### Conditions and their rules -/

/-- The types that `YamlStrategyLoader` handles. -/
def handledTypes : List String :=
  ["OVER", "UNDER", "CROSSED_UP", "CROSSED_DOWN", "OVER_CONSTANT", "UNDER_CONSTANT",
    "IS_RISING", "IS_FALLING"]

section
variable (runtime) (config : StrategyConfig D) (p : ParameterValues D)
  (indicators : IndicatorMap D)

/-- The rule that a condition names. -/
def conditionRule? (condition : ConditionConfig D) : Option (Rule (Ta4jObject D) D) :=
  match resolveEntries (resolveObject runtime config p) condition.params, condition.type with
  | .ok resolvedParams, some type =>
    (RuleRegistry.get runtime type).bind fun factory =>
      factory.rule? runtime indicators (augment condition.indicator resolvedParams)
  | _, _ => none

end

theorem get_eq_lookup {type : String} (h : type ∈ handledTypes) :
    RuleRegistry.get runtime type = RuleRegistry.factories.lookup type := by
  have hupper : ∀ c ∈ type.toList, c.isUpper = true ∨ c = '_' := by
    simp only [handledTypes, List.mem_cons, List.not_mem_nil, or_false] at h
    rcases h with rfl | rfl | rfl | rfl | rfl | rfl | rfl | rfl <;> simp
  rw [RuleRegistry.get, runtime.toUpperCase_of_upper type hupper]

theorem get_of_handled {type : String} (h : type ∈ handledTypes) :
    ∃ factory, RuleRegistry.get runtime type = some factory ∧ factory.IsTest := by
  rw [get_eq_lookup h]
  simp only [handledTypes, List.mem_cons, List.not_mem_nil, or_false] at h
  rcases h with rfl | rfl | rfl | rfl | rfl | rfl | rfl | rfl <;>
    exact ⟨_, rfl, by simp [RuleFactory.IsTest]⟩

/-- A round of the loop of `buildRule` adds the rule of its condition. -/
theorem rule_of_addCondition {config : StrategyConfig D} {p : ParameterValues D}
    {indicators : IndicatorMap D} {combined combined' : Option (Ta4jObject D)}
    {condition : ConditionConfig D} (htype : ∃ type ∈ handledTypes, condition.type = some type)
    (h : addCondition runtime ta4j config p indicators combined condition = .ok combined') :
    ∃ object rule, conditionRule? runtime config p indicators condition = some rule ∧
      ruleOf object = some rule ∧
      combined' = some (combined.elim object fun combined =>
        .object "AndRule" [.inr combined, .inr object]) := by
  obtain ⟨type, hhandled, htype⟩ := htype
  obtain ⟨factory, hget, htest⟩ : ∃ factory, RuleRegistry.get runtime type = some factory ∧
      factory.IsTest := get_of_handled hhandled
  simp only [addCondition, bind_eq_ok_iff] at h
  obtain ⟨resolved, hresolved, h⟩ := h
  simp only [htype, RuleRegistry.create, hget] at h
  obtain ⟨object, hobject, h⟩ := bind_eq_ok_iff.mp h
  obtain ⟨rule, hrule⟩ := Option.ne_none_iff_exists'.mp (rule?_ne_none htest hobject)
  refine ⟨object, rule, ?_, ?_, ?_⟩
  · simp only [conditionRule?, hresolved, htype, hget, Option.bind_some, hrule]
  · rw [ruleOf_of_create htest hobject, hrule]
  · cases combined <;> exact (Except.ok.inj h).symm

section
variable (runtime) (config : StrategyConfig D) (p : ParameterValues D)
  (indicators : IndicatorMap D)

/-- Every condition has a rule, and the object is satisfied where all of them hold. -/
structure CombinedRule [LinearOrder D] (conditions : List (ConditionConfig D))
    (object : Ta4jObject D) : Prop where
  exists_rule : ∀ c ∈ conditions, ∃ rule,
    conditionRule? runtime config p indicators c = some rule
  isSatisfied_iff : ∀ (v : Ta4jObject D → ℕ → D) t, IsSatisfied v object t ↔
    ∀ c ∈ conditions, ∀ rule, conditionRule? runtime config p indicators c = some rule →
      rule.Holds CrossedFrom v t

end

theorem CombinedRule.single [LinearOrder D] {config : StrategyConfig D}
    {p : ParameterValues D} {indicators : IndicatorMap D} {c : ConditionConfig D}
    {object : Ta4jObject D} {rule : Rule (Ta4jObject D) D}
    (hrule : conditionRule? runtime config p indicators c = some rule)
    (hobject : ruleOf object = some rule) :
    CombinedRule runtime config p indicators [c] object := by
  constructor
  · simpa using ⟨rule, hrule⟩
  · intro v t
    simp [Configurable.isSatisfied_iff hobject, hrule]

theorem CombinedRule.and [LinearOrder D] {config : StrategyConfig D}
    {p : ParameterValues D} {indicators : IndicatorMap D} {before : List (ConditionConfig D)}
    {c : ConditionConfig D} {combined object : Ta4jObject D} {rule : Rule (Ta4jObject D) D}
    (h : CombinedRule runtime config p indicators before combined)
    (hrule : conditionRule? runtime config p indicators c = some rule)
    (hobject : ruleOf object = some rule) :
    CombinedRule runtime config p indicators (before ++ [c])
      (.object "AndRule" [.inr combined, .inr object]) := by
  constructor
  · intro c' hc'
    rcases List.mem_append.mp hc' with hc' | hc'
    · exact h.exists_rule c' hc'
    · obtain rfl := List.mem_singleton.mp hc'
      exact ⟨rule, hrule⟩
  · intro v t
    rw [IsSatisfied, h.isSatisfied_iff, Configurable.isSatisfied_iff hobject]
    simp [or_imp, forall_and, hrule]

/-- The rule of a list of conditions holds where the rules of all of them do. -/
theorem combinedRule_of_buildRule [LinearOrder D] {config : StrategyConfig D}
    {p : ParameterValues D} {indicators : IndicatorMap D}
    {conditions : Option (List (ConditionConfig D))} {object : Ta4jObject D}
    (hhandled : ∀ c ∈ conditions.getD [], ∃ type ∈ handledTypes, c.type = some type)
    (h : buildRule runtime ta4j config p indicators conditions = .ok object) :
    conditions.getD [] ≠ [] ∧
      CombinedRule runtime config p indicators (conditions.getD []) object := by
  match conditions, h with
  | some (c :: cs), h =>
    rw [Option.getD_some] at hhandled ⊢
    refine ⟨List.cons_ne_nil c cs, ?_⟩
    simp only [buildRule, bind_eq_ok_iff] at h
    obtain ⟨combined, hloop, h⟩ := h
    -- past some conditions the loop has the rule of these
    let Inv (before : List (ConditionConfig D)) (combined : Option (Ta4jObject D)) : Prop :=
      (∀ c ∈ before, ∃ type ∈ handledTypes, c.type = some type) →
        before = [] ∧ combined = none ∨
          ∃ object, combined = some object ∧
            CombinedRule runtime config p indicators before object
    have hstep : ∀ before c combined combined', Inv before combined →
        addCondition runtime ta4j config p indicators combined c = .ok combined' →
        Inv (before ++ [c]) combined' := by
      intro before c combined combined' hinv hadd hhandled
      rw [List.forall_mem_append] at hhandled
      obtain ⟨object, rule, hrule, hobject, rfl⟩ :=
        rule_of_addCondition (hhandled.2 c (by simp)) hadd
      right
      refine ⟨_, rfl, ?_⟩
      rcases hinv hhandled.1 with ⟨rfl, rfl⟩ | ⟨combined, rfl, hcombined⟩
      · exact CombinedRule.single hrule hobject
      · exact hcombined.and hrule hobject
    have hend : Inv ([] ++ c :: cs) combined :=
      foldlM_invariant hstep (fun _ => .inl ⟨rfl, rfl⟩) hloop
    rcases hend hhandled with ⟨hnil, -⟩ | ⟨object', rfl, hcombined⟩
    · exact absurd hnil (List.cons_ne_nil c cs)
    · obtain rfl : object' = object := Except.ok.inj h
      exact hcombined

end

end TradeStream.Configurable

namespace TradeStream.Backtesting
open TradeStream.Fallible TradeStream.SeriesRules TradeStream.Configurable

/-! ### The spec as Python reads it -/

section
variable {D : Type}

/-- YAML has lists and maps where Java keeps only their text. -/
def PyValue.ofJava : JavaObject D → PyValue D
  | .number n => .number n.doubleValue
  | .string s => .string s
  | .other text =>
    if text = "true" then .bool true
    else if text = "false" then .bool false
    else .container (text = "[]" ∨ text = "\x7b\x7d")

def Condition.ofJava (c : ConditionConfig D) : Condition D where
  type := c.type
  indicator := c.indicator
  params := fun key => ((valueAt c.params key).map PyValue.ofJava).getD .none

def StrategySpec.ofJava (config : StrategyConfig D) : StrategySpec D where
  parameters := (config.parameters.getD []).map fun d =>
    { name := d.name
      min := d.min.map fun n => .number n.doubleValue
      max := d.max.map fun n => .number n.doubleValue
      defaultValue := d.defaultValue.map fun n => .number n.doubleValue }
  indicators := (config.indicators.getD []).map fun d => ⟨d.id, d.type⟩
  entryConditions := (config.entryConditions.getD []).map Condition.ofJava
  exitConditions := (config.exitConditions.getD []).map Condition.ofJava

/-- The parameters that the loader resolves. -/
def loaderParams (config : StrategyConfig D) (overrides : String → Option (PyValue D)) :
    String → Option (PyValue D) :=
  YamlStrategyLoader.resolvedParameters overrides (.ofJava config)

/-- The indicators of the loader: those of the spec, with the series that they have in
Java. -/
def loaderIndicators (config : StrategyConfig D) (indicators : IndicatorMap D) :
    String → Option (Ta4jObject D) :=
  YamlStrategyLoader.definedIndicators (fun id => (indicators (some id)).getD .null)
    (.ofJava config)

section
variable (python : PythonRuntime D) (java : JavaRuntime D) (config : StrategyConfig D)
  (p : ParameterValues D) (overrides : String → Option (PyValue D))
  (indicators : IndicatorMap D)

/-- The rule that the loader evaluates for a condition. -/
def loaderRule (c : ConditionConfig D) : Except PyError (Rule (Ta4jObject D) D) :=
  YamlStrategyLoader.conditionRule python (loaderIndicators config indicators)
    (loaderParams config overrides) (.ofJava c)

/-- Java and Python read the same operands from a condition, or both read one that is
false at every bar. -/
def SharesOperands (c : ConditionConfig D) : Prop :=
  ∃ rule rule', conditionRule? java config p indicators c = some rule ∧
    loaderRule python config overrides indicators c = .ok rule' ∧ rule.Alike rule'

/-- No crossing of the condition leaves a tie on the side that it was entered from. -/
def CrossesThrough [LinearOrder D] (v : Ta4jObject D → ℕ → D) (c : ConditionConfig D) : Prop :=
  ∀ rule, conditionRule? java config p indicators c = some rule → rule.PassesThrough v

/-- The loader's signal for a condition is its rule's, at every bar. -/
def ConditionAgrees [LinearOrder D] (v : Ta4jObject D → ℕ → D) (c : ConditionConfig D) : Prop :=
  ∃ rule signal, conditionRule? java config p indicators c = some rule ∧
    YamlStrategyLoader.evaluateSingleCondition python (loaderIndicators config indicators)
      (loaderParams config overrides) (.ofJava c) v = .ok signal ∧
    ∀ t, signal t = true ↔ rule.Holds CrossedFrom v t

end

variable {python : PythonRuntime D} {java : JavaRuntime D} {config : StrategyConfig D}
  {p : ParameterValues D} {overrides : String → Option (PyValue D)}
  {indicators : IndicatorMap D}

/-- What the type names is tested by the loader. -/
theorem exists_typeTest {type : String} (h : type ∈ handledTypes) :
    ∃ test, YamlStrategyLoader.typeTest.lookup type = some test := by
  simp only [handledTypes, List.mem_cons, List.not_mem_nil, or_false] at h
  rcases h with rfl | rfl | rfl | rfl | rfl | rfl | rfl | rfl <;> exact ⟨_, rfl⟩

/-- The series that a rule of the registry is on. -/
def leftOf (indicators : IndicatorMap D) (params : ResolvedParams D) : Option (Ta4jObject D) :=
  (params "indicator").bind fun id => indicators (some id.toString)

theorem comparison_of_operandOrValue {cls key : String} {params : ResolvedParams D}
    {rule : Rule (Ta4jObject D) D}
    (h : (RuleFactory.operandOrValue cls key).rule? java indicators params = some rule) :
    ∃ left right, leftOf indicators params = some left ∧
      comparisonRule cls left right = some rule := by
  simp only [RuleFactory.rule?, Option.bind_eq_bind, Option.bind_eq_some_iff] at h
  obtain ⟨left, hleft, h⟩ := h
  cases hkey : params key with
  | none =>
    simp only [hkey, Option.bind_eq_some_iff] at h
    obtain ⟨right, -, hrule⟩ := h
    exact ⟨left, right, Option.bind_eq_some_iff.mpr hleft, hrule⟩
  | some id =>
    simp only [hkey, Option.bind_eq_some_iff] at h
    obtain ⟨right, -, hrule⟩ := h
    exact ⟨left, right, Option.bind_eq_some_iff.mpr hleft, hrule⟩

theorem comparison_of_threshold {cls key : String} {params : ResolvedParams D}
    {rule : Rule (Ta4jObject D) D}
    (h : (RuleFactory.threshold cls key).rule? java indicators params = some rule) :
    ∃ left right, leftOf indicators params = some left ∧
      comparisonRule cls left right = some rule := by
  simp only [RuleFactory.rule?, Option.bind_eq_bind, Option.bind_eq_some_iff] at h
  obtain ⟨left, hleft, x, -, hrule⟩ := h
  exact ⟨left, .constant x, Option.bind_eq_some_iff.mpr hleft, hrule⟩

theorem trend_of_trend {cls : String} {params : ResolvedParams D}
    {rule : Rule (Ta4jObject D) D}
    (h : (RuleFactory.trend cls).rule? java indicators params = some rule) :
    ∃ left barCount, leftOf indicators params = some left ∧
      trendRule cls left barCount = some rule := by
  simp only [RuleFactory.rule?, Option.bind_eq_bind, Option.bind_eq_some_iff] at h
  obtain ⟨left, hleft, barCount, -, hrule⟩ := h
  exact ⟨left, barCount, Option.bind_eq_some_iff.mpr hleft, hrule⟩

/-- The rule of the factory that is registered for a type tests what the type says. -/
theorem tests_of_rule? {type : String} (hhandled : type ∈ handledTypes)
    {factory : RuleFactory} (hget : RuleRegistry.get java type = some factory)
    {params : ResolvedParams D} {rule : Rule (Ta4jObject D) D}
    (h : factory.rule? java indicators params = some rule) :
    ∃ left test, leftOf indicators params = some left ∧
      YamlStrategyLoader.typeTest.lookup type = some test ∧ test.Tests left rule := by
  rw [get_eq_lookup hhandled] at hget
  simp only [handledTypes, List.mem_cons, List.not_mem_nil, or_false] at hhandled
  -- for each type the factory that Java registers, beside the test of the loader's branch
  rcases hhandled with rfl | rfl | rfl | rfl | rfl | rfl | rfl | rfl
  · obtain rfl : .operandOrValue "OverIndicatorRule" "other" = factory := Option.some.inj hget
    obtain ⟨left, right, hleft, hrule⟩ := comparison_of_operandOrValue h
    exact ⟨left, _, hleft, rfl, Option.some.inj hrule ▸ .compares .above right⟩
  · obtain rfl : .operandOrValue "UnderIndicatorRule" "other" = factory := Option.some.inj hget
    obtain ⟨left, right, hleft, hrule⟩ := comparison_of_operandOrValue h
    exact ⟨left, _, hleft, rfl, Option.some.inj hrule ▸ .compares .below right⟩
  · obtain rfl : .operandOrValue "CrossedUpIndicatorRule" "crosses" = factory :=
      Option.some.inj hget
    obtain ⟨left, right, hleft, hrule⟩ := comparison_of_operandOrValue h
    exact ⟨left, _, hleft, rfl, Option.some.inj hrule ▸ .crosses .above right⟩
  · obtain rfl : .operandOrValue "CrossedDownIndicatorRule" "crosses" = factory :=
      Option.some.inj hget
    obtain ⟨left, right, hleft, hrule⟩ := comparison_of_operandOrValue h
    exact ⟨left, _, hleft, rfl, Option.some.inj hrule ▸ .crosses .below right⟩
  · obtain rfl : .threshold "OverIndicatorRule" "threshold" = factory := Option.some.inj hget
    obtain ⟨left, right, hleft, hrule⟩ := comparison_of_threshold h
    exact ⟨left, _, hleft, rfl, Option.some.inj hrule ▸ .compares .above right⟩
  · obtain rfl : .threshold "UnderIndicatorRule" "threshold" = factory := Option.some.inj hget
    obtain ⟨left, right, hleft, hrule⟩ := comparison_of_threshold h
    exact ⟨left, _, hleft, rfl, Option.some.inj hrule ▸ .compares .below right⟩
  · obtain rfl : .trend "IsRisingRule" = factory := Option.some.inj hget
    obtain ⟨left, barCount, hleft, hrule⟩ := trend_of_trend h
    exact ⟨left, _, hleft, rfl, Option.some.inj hrule ▸ .moves .above _⟩
  · obtain rfl : .trend "IsFallingRule" = factory := Option.some.inj hget
    obtain ⟨left, barCount, hleft, hrule⟩ := trend_of_trend h
    exact ⟨left, _, hleft, rfl, Option.some.inj hrule ▸ .moves .below _⟩

/-- Java's rule of a condition and the loader's test the same, if the loader's tests
anything. -/
theorem sameTest_of_handled {c : ConditionConfig D}
    (htype : ∃ type ∈ handledTypes, c.type = some type) {rule rule' : Rule (Ta4jObject D) D}
    (h : conditionRule? java config p indicators c = some rule)
    (h' : loaderRule python config overrides indicators c = .ok rule') :
    rule.SameTest rule' := by
  obtain ⟨type, hhandled, htype⟩ := htype
  obtain ⟨test', hlookup'⟩ := exists_typeTest hhandled
  rcases YamlStrategyLoader.tests_of_conditionRule htype hlookup' h' with
    rfl | ⟨id, left', hid, hleft', htests'⟩
  -- the loader has no series for the condition: a rule that never holds
  · exact .never_right rule
  · unfold conditionRule? at h
    split at h
    next resolvedParams type' _ htype' =>
      obtain rfl : type = type' := Option.some.inj (htype.symm.trans htype')
      obtain ⟨factory, hget, h⟩ := Option.bind_eq_some_iff.mp h
      obtain ⟨left, test, hleft, hlookup, htests⟩ := tests_of_rule? hhandled hget h
      obtain rfl : test = test' := Option.some.inj (hlookup.symm.trans hlookup')
      -- the left sides are one series, since the loader computes what the factory built
      have hindicator : c.indicator = some id := hid
      have hid : indicators (some id) = some left := by
        simpa [leftOf, augment, hindicator, JavaObject.toString] using hleft
      obtain rfl : left = left' := by
        simp only [loaderIndicators, YamlStrategyLoader.definedIndicators, hid,
          Option.getD_some] at hleft'
        split_ifs at hleft'
        exact Option.some.inj hleft'
      exact htests.sameTest htests'
    next => cases h

/-! ### Agreement -/

section
variable [LinearOrder D]

theorem evaluateSingleCondition_of_rule {c : ConditionConfig D} {rule : Rule (Ta4jObject D) D}
    (h : loaderRule python config overrides indicators c = .ok rule)
    (v : Ta4jObject D → ℕ → D) :
    YamlStrategyLoader.evaluateSingleCondition python (loaderIndicators config indicators)
      (loaderParams config overrides) (.ofJava c) v =
        .ok fun t => decide (rule.Holds CrossedSince v t) := by
  rw [loaderRule] at h
  rw [YamlStrategyLoader.evaluateSingleCondition, h]
  rfl

/-- With the operands shared, ties at crossings are what remains. -/
theorem conditionAgrees_iff_of_shares {c : ConditionConfig D}
    (h : SharesOperands python java config p overrides indicators c)
    (v : Ta4jObject D → ℕ → D) :
    ConditionAgrees python java config p overrides indicators v c ↔
      CrossesThrough java config p indicators v c := by
  obtain ⟨rule, rule', hrule, hrule', halike⟩ := h
  have hevaluate := evaluateSingleCondition_of_rule hrule' v
  simp only [ConditionAgrees, CrossesThrough, hrule, Option.some.injEq, forall_eq', hevaluate,
    Except.ok.injEq]
  rw [← halike.holds_iff v]
  constructor
  · rintro ⟨_, signal, rfl, rfl, hsignal⟩ t
    simpa using hsignal t
  · intro hholds
    exact ⟨rule, _, rfl, rfl, fun t => by simpa using hholds t⟩

/-- Exactly the conditions that share their operands agree whenever crossings do not
depend on ties. -/
theorem forall_conditionAgrees_iff [NoMaxOrder D] [NoMinOrder D] [Nonempty D]
    {c : ConditionConfig D} (htype : ∃ type ∈ handledTypes, c.type = some type)
    (hrule : ∃ rule, conditionRule? java config p indicators c = some rule) :
    (∀ v, CrossesThrough java config p indicators v c →
        ConditionAgrees python java config p overrides indicators v c) ↔
      SharesOperands python java config p overrides indicators c := by
  obtain ⟨rule, hrule⟩ := hrule
  constructor
  · intro hagrees
    obtain ⟨x⟩ := ‹Nonempty D›
    cases hrule' : loaderRule python config overrides indicators c with
    | error e =>
      -- the loader raises, on any series
      have hthrough : CrossesThrough java config p indicators (fun _ _ => x) c :=
        fun rule _ => rule.passesThrough_of_constant fun _ => x
      obtain ⟨_, signal, -, hsignal, -⟩ := hagrees _ hthrough
      rw [loaderRule] at hrule'
      simp [YamlStrategyLoader.evaluateSingleCondition, hrule', Except.map] at hsignal
    | ok rule' =>
      refine ⟨rule, rule', hrule, hrule', ?_⟩
      rw [← alike_iff (sameTest_of_handled htype hrule hrule')]
      intro v hpass t
      obtain ⟨_, signal, hrule₂, hsignal, hiff⟩ := hagrees v (by simpa [CrossesThrough, hrule])
      obtain rfl := Option.some.inj (hrule.symm.trans hrule₂)
      rw [evaluateSingleCondition_of_rule hrule'] at hsignal
      obtain rfl := Except.ok.inj hsignal
      simpa using hiff t
  · intro hshares v hthrough
    exact (conditionAgrees_iff_of_shares hshares v).mpr hthrough

/-- The loader's signals, with the series that the indicators have in Java. -/
def loaderSignals (python : PythonRuntime D) (config : StrategyConfig D)
    (overrides : String → Option (PyValue D)) (indicators : IndicatorMap D)
    (v : Ta4jObject D → ℕ → D) : Except PyError ((ℕ → Bool) × (ℕ → Bool)) :=
  YamlStrategyLoader.generateSignals python (fun id => (indicators (some id)).getD .null) v
    (.ofJava config) overrides

/-- The signal of a list of conditions that all agree is that of Java's rule. -/
theorem exists_signal_of_agree {conditions : List (ConditionConfig D)}
    {object : Ta4jObject D} (hne : conditions ≠ [])
    (hobject : CombinedRule java config p indicators conditions object)
    {v : Ta4jObject D → ℕ → D}
    (hagree : ∀ c ∈ conditions, ConditionAgrees python java config p overrides indicators v c) :
    ∃ signal, YamlStrategyLoader.evaluateConditions python (loaderIndicators config indicators)
        (loaderParams config overrides) v (conditions.map .ofJava) = .ok signal ∧
      ∀ t, signal t = true ↔ IsSatisfied v object t := by
  -- conditions that agree have a rule on each side, and the loader raises on none
  have hrule : ∀ c ∈ conditions, ∃ rule rule',
      conditionRule? java config p indicators c = some rule ∧
      loaderRule python config overrides indicators c = .ok rule' ∧
      ∀ t, rule'.Holds CrossedSince v t ↔ rule.Holds CrossedFrom v t := by
    intro c hc
    obtain ⟨rule, signal, hrule, hsignal, hiff⟩ := hagree c hc
    cases hrule' : loaderRule python config overrides indicators c with
    | error e =>
      rw [loaderRule] at hrule'
      simp [YamlStrategyLoader.evaluateSingleCondition, hrule', Except.map] at hsignal
    | ok rule' =>
      rw [evaluateSingleCondition_of_rule hrule'] at hsignal
      obtain rfl := Except.ok.inj hsignal
      exact ⟨rule, rule', hrule, rfl, fun t => by simpa using hiff t⟩
  have hloader : ∀ c ∈ conditions.map Condition.ofJava, ∃ rule,
      YamlStrategyLoader.conditionRule python (loaderIndicators config indicators)
        (loaderParams config overrides) c = .ok rule := by
    rw [List.forall_mem_map]
    intro c hc
    obtain ⟨_, rule', -, hrule', -⟩ := hrule c hc
    exact ⟨rule', hrule'⟩
  obtain ⟨signal, hsignal, hiff⟩ :=
    YamlStrategyLoader.exists_evaluateConditions (by simpa using hne) hloader v
  refine ⟨signal, hsignal, ?_⟩
  intro t
  rw [hiff, hobject.isSatisfied_iff, List.forall_mem_map]
  apply forall₂_congr
  intro c hc
  obtain ⟨rule, rule', hjava, hpython, hholds⟩ := hrule c hc
  rw [loaderRule] at hpython
  simp only [hjava, hpython, Except.ok.injEq, Option.some.injEq, forall_eq', hholds]

/-- The indicators of the strategy that Java builds. -/
def builtIndicators (java : JavaRuntime D) (ta4j : Ta4j D) (config : StrategyConfig D)
    (p : ParameterValues D) : IndicatorMap D :=
  match buildIndicators java ta4j config p with
  | .ok indicators => indicators
  | .error _ => fun _ => none

/-- At every bar the loader's signals are the strategy's rules. -/
def SignalsAgree (python : PythonRuntime D) (config : StrategyConfig D)
    (overrides : String → Option (PyValue D)) (indicators : IndicatorMap D)
    (v : Ta4jObject D → ℕ → D) (strategy : Strategy D) : Prop :=
  ∃ entry exit, loaderSignals python config overrides indicators v = .ok (entry, exit) ∧
    ∀ t, (entry t = true ↔ IsSatisfied v strategy.entryRule t) ∧
      (exit t = true ↔ IsSatisfied v strategy.exitRule t)

omit [LinearOrder D] in
/-- What a built strategy consists of. -/
theorem rules_of_createStrategy {ta4j : Ta4j D} {strategy : Strategy D}
    (h : createStrategy java ta4j config p = .ok strategy) :
    buildRule java ta4j config p (builtIndicators java ta4j config p) config.entryConditions =
        .ok strategy.entryRule ∧
      buildRule java ta4j config p (builtIndicators java ta4j config p) config.exitConditions =
        .ok strategy.exitRule := by
  simp only [createStrategy, bind_eq_ok_iff] at h
  obtain ⟨indicators, hindicators, entryRule, hentry, exitRule, hexit, h⟩ := h
  obtain rfl := Except.ok.inj h
  have hbuilt : builtIndicators java ta4j config p = indicators := by
    rw [builtIndicators, hindicators]
  rw [hbuilt]
  exact ⟨hentry, hexit⟩

/-- The signal of one condition is Java's rule exactly when the condition agrees. -/
theorem signal_iff_of_singleton {c : ConditionConfig D} {object : Ta4jObject D}
    (hobject : CombinedRule java config p indicators [c] object) (v : Ta4jObject D → ℕ → D) :
    (∃ signal, YamlStrategyLoader.evaluateConditions python
        (loaderIndicators config indicators) (loaderParams config overrides) v
        [Condition.ofJava c] = .ok signal ∧ ∀ t, signal t = true ↔ IsSatisfied v object t) ↔
      ConditionAgrees python java config p overrides indicators v c := by
  obtain ⟨rule, hrule⟩ := hobject.exists_rule c List.mem_cons_self
  have hsatisfied : ∀ t, IsSatisfied v object t ↔ rule.Holds CrossedFrom v t := by
    intro t
    rw [hobject.isSatisfied_iff]
    simp [hrule]
  simp only [YamlStrategyLoader.evaluateConditions_singleton, hsatisfied, ConditionAgrees, hrule,
    Option.some.injEq, exists_and_left, exists_eq_left']

theorem signalsAgree_of_agree {ta4j : Ta4j D} {strategy : Strategy D}
    (hbuilt : createStrategy java ta4j config p = .ok strategy)
    (hhandled : ∀ c ∈ allConditions config, ∃ type ∈ handledTypes, c.type = some type)
    (hnamed : YamlStrategyLoader.IsNamed (.ofJava config)) {v : Ta4jObject D → ℕ → D}
    (hagree : ∀ c ∈ allConditions config, ConditionAgrees python java config p overrides
      (builtIndicators java ta4j config p) v c) :
    SignalsAgree python config overrides (builtIndicators java ta4j config p) v strategy := by
  rw [allConditions, List.forall_mem_append] at hhandled hagree
  obtain ⟨hentry, hexit⟩ := rules_of_createStrategy hbuilt
  obtain ⟨hentryNe, hentryRule⟩ := combinedRule_of_buildRule hhandled.1 hentry
  obtain ⟨hexitNe, hexitRule⟩ := combinedRule_of_buildRule hhandled.2 hexit
  obtain ⟨entry, hentrySignal, hentryIff⟩ :=
    exists_signal_of_agree hentryNe hentryRule hagree.1
  obtain ⟨exit, hexitSignal, hexitIff⟩ := exists_signal_of_agree hexitNe hexitRule hagree.2
  refine ⟨entry, exit, ?_, fun t => ⟨hentryIff t, hexitIff t⟩⟩
  exact (YamlStrategyLoader.generateSignals_eq_ok_iff hnamed).mpr ⟨hentrySignal, hexitSignal⟩

/-- With one condition on either side, nothing can hide that one does not agree. -/
theorem signalsAgree_iff_of_singletons {ta4j : Ta4j D} {strategy : Strategy D}
    (hbuilt : createStrategy java ta4j config p = .ok strategy)
    (hhandled : ∀ c ∈ allConditions config, ∃ type ∈ handledTypes, c.type = some type)
    {c d : ConditionConfig D} (hc : config.entryConditions = some [c])
    (hd : config.exitConditions = some [d]) (v : Ta4jObject D → ℕ → D) :
    SignalsAgree python config overrides (builtIndicators java ta4j config p) v strategy ↔
      YamlStrategyLoader.IsNamed (.ofJava config) ∧
        ConditionAgrees python java config p overrides (builtIndicators java ta4j config p) v c ∧
        ConditionAgrees python java config p overrides (builtIndicators java ta4j config p) v
          d := by
  have hall : allConditions config = [c, d] := by
    rw [allConditions, hc, hd]
    rfl
  constructor
  · rintro ⟨entry, exit, hsignals, hiff⟩
    have hnamed := YamlStrategyLoader.isNamed_of_generateSignals hsignals
    obtain ⟨hentrySignal, hexitSignal⟩ :=
      (YamlStrategyLoader.generateSignals_eq_ok_iff hnamed).mp hsignals
    simp only [StrategySpec.ofJava, hc, hd, Option.getD_some, List.map_cons, List.map_nil]
      at hentrySignal hexitSignal
    -- with one condition on each side the signals are those of the conditions
    rw [allConditions, List.forall_mem_append] at hhandled
    obtain ⟨hentry, hexit⟩ := rules_of_createStrategy hbuilt
    have hentryRule := (combinedRule_of_buildRule hhandled.1 hentry).2
    have hexitRule := (combinedRule_of_buildRule hhandled.2 hexit).2
    rw [hc, Option.getD_some] at hentryRule
    rw [hd, Option.getD_some] at hexitRule
    exact ⟨hnamed,
      (signal_iff_of_singleton hentryRule v).mp ⟨_, hentrySignal, fun t => (hiff t).1⟩,
      (signal_iff_of_singleton hexitRule v).mp ⟨_, hexitSignal, fun t => (hiff t).2⟩⟩
  · rintro ⟨hnamed, hcAgrees, hdAgrees⟩
    apply signalsAgree_of_agree hbuilt hhandled hnamed
    rw [hall]
    simpa using ⟨hcAgrees, hdAgrees⟩

/-- The loader's signals are Java's rules where the operands of every condition are shared
and no crossing depends on a tie; neither can be left out of it for a condition alone. -/
theorem loader_signals_of_shared [NoMaxOrder D] [NoMinOrder D] [Nonempty D]
    (python : PythonRuntime D) (java : JavaRuntime D) (ta4j : Ta4j D) (config : StrategyConfig D)
    (p : ParameterValues D) (overrides : String → Option (PyValue D)) (strategy : Strategy D)
    (hbuilt : createStrategy java ta4j config p = .ok strategy)
    (hhandled : ∀ c ∈ allConditions config, ∃ type ∈ handledTypes, c.type = some type) :
    let indicators := builtIndicators java ta4j config p
    (YamlStrategyLoader.IsNamed (.ofJava config) → ∀ v, (∀ c ∈ allConditions config,
        SharesOperands python java config p overrides indicators c ∧
          CrossesThrough java config p indicators v c) →
      SignalsAgree python config overrides indicators v strategy) ∧
    (∀ v, SignalsAgree python config overrides indicators v strategy →
      YamlStrategyLoader.IsNamed (.ofJava config)) ∧
    (∀ c d, config.entryConditions = some [c] → config.exitConditions = some [d] → ∀ v,
      (SignalsAgree python config overrides indicators v strategy ↔
        YamlStrategyLoader.IsNamed (.ofJava config) ∧
          ConditionAgrees python java config p overrides indicators v c ∧
          ConditionAgrees python java config p overrides indicators v d)) ∧
    ∀ c ∈ allConditions config,
      ((∀ v, CrossesThrough java config p indicators v c →
          ConditionAgrees python java config p overrides indicators v c) ↔
        SharesOperands python java config p overrides indicators c) ∧
      (SharesOperands python java config p overrides indicators c → ∀ v,
        (ConditionAgrees python java config p overrides indicators v c ↔
          CrossesThrough java config p indicators v c)) := by
  intro indicators
  refine ⟨?_, ?_, ?_, ?_⟩
  · intro hnamed v hconditions
    apply signalsAgree_of_agree hbuilt hhandled hnamed
    intro c hc
    obtain ⟨hshares, hthrough⟩ := hconditions c hc
    exact (conditionAgrees_iff_of_shares hshares v).mpr hthrough
  · rintro v ⟨entry, exit, hsignals, -⟩
    exact YamlStrategyLoader.isNamed_of_generateSignals hsignals
  · intro c d hc hd v
    exact signalsAgree_iff_of_singletons hbuilt hhandled hc hd v
  · intro c hc
    -- a strategy that was built has a rule for each of its conditions
    have hrule : ∃ rule, conditionRule? java config p indicators c = some rule := by
      rw [allConditions, List.forall_mem_append] at hhandled
      obtain ⟨hentry, hexit⟩ := rules_of_createStrategy hbuilt
      rcases List.mem_append.mp hc with hc | hc
      · exact (combinedRule_of_buildRule hhandled.1 hentry).2.exists_rule c hc
      · exact (combinedRule_of_buildRule hhandled.2 hexit).2.exists_rule c hc
    exact ⟨forall_conditionAgrees_iff (hhandled c hc) hrule,
      fun hshares v => conditionAgrees_iff_of_shares hshares v⟩

end

end

/-- Python on ASCII texts, for specs whose numbers are whole. -/
def asciiPython : PythonRuntime ℚ where
  isWord := fun c => c.isAlphanum || c = '_'
  parseFloat := fun s => (wholeNumber? s).map fun n => (n : ℚ)
  boolFloat := fun b => if b then 1 else 0
  upper := asciiRuntime.toUpperCase
  upper_of_upper := asciiRuntime.toUpperCase_of_upper

/-- What `getDefaultParameters` makes of the config of an average against a level. -/
def averageDefaults : ParameterValues ℚ := ParameterValues.empty.putIntValues "period" 20

/-- Java enters when the average is over the level. The loader looks for the level under
another key, and never enters. -/
theorem averageConfig_not_signalsAgree :
    getDefaultParameters (averageConfig "close") = .ok averageDefaults ∧
      ∃ strategy, createStrategy asciiRuntime permissiveTa4j (averageConfig "close")
        averageDefaults = .ok strategy ∧
      ¬ SignalsAgree asciiPython (averageConfig "close") (fun _ => none)
        (builtIndicators asciiRuntime permissiveTa4j (averageConfig "close") averageDefaults)
        (fun _ _ => 60) strategy := by
  refine ⟨rfl, _, rfl, ?_⟩
  rintro ⟨entry, exit, hsignals, hiff⟩
  have hloader : (loaderSignals asciiPython (averageConfig "close") (fun _ => none)
      (builtIndicators asciiRuntime permissiveTa4j (averageConfig "close") averageDefaults)
      fun _ _ => 60).map (fun signals => signals.1 0) = .ok false := rfl
  rw [hsignals] at hloader
  have hentry : entry 0 = false := Except.ok.inj hloader
  have hjava := (hiff 0).1.mpr
  rw [hentry] at hjava
  refine Bool.false_ne_true (hjava ?_)
  refine (@isSatisfied_iff ℚ _ _ (.compares .above _ (.constant 50)) rfl _ 0).mpr ?_
  norm_num [Rule.Holds, Side.Beyond, Operand.values, Operand.value]

/-- The same average, with its level under the key that both read. -/
def levelConfig : StrategyConfig ℚ :=
  { averageConfig "close" with
    entryConditions := some [⟨some "OVER", some "sma",
      some (AList.singleton "value" (some (.number ⟨50, 50, "50"⟩)))⟩]
    exitConditions := some [⟨some "CROSSED_DOWN", some "sma",
      some (AList.singleton "value" (some (.number ⟨50, 50, "50"⟩)))⟩] }

theorem levelConfig_signalsAgree :
    ∃ strategy, createStrategy asciiRuntime permissiveTa4j levelConfig averageDefaults =
        .ok strategy ∧
      SignalsAgree asciiPython levelConfig (fun _ => none)
        (builtIndicators asciiRuntime permissiveTa4j levelConfig averageDefaults)
        (fun _ t => t) strategy := by
  refine ⟨_, rfl, ?_⟩
  apply (loader_signals_of_shared asciiPython asciiRuntime permissiveTa4j levelConfig
    averageDefaults (fun _ => none) _ rfl ?_).1
  · exact ⟨by decide, by decide⟩
  · intro c hc
    simp only [allConditions, levelConfig, Option.getD_some, List.cons_append, List.nil_append,
      List.mem_cons, List.not_mem_nil, or_false] at hc
    rcases hc with rfl | rfl
    · refine ⟨⟨_, _, rfl, rfl, .inl rfl⟩, ?_⟩
      intro rule hrule
      obtain rfl := Option.some.inj hrule
      exact trivial
    · refine ⟨⟨_, _, rfl, rfl, .inl rfl⟩, ?_⟩
      intro rule hrule
      obtain rfl := Option.some.inj hrule
      -- the average only rises
      intro t htie hnow
      change (t : ℚ) = 50 at htie
      change ((t + 1 : ℕ) : ℚ) < 50 at hnow
      push_cast at hnow
      linarith
  · intro c hc
    simp only [allConditions, levelConfig, Option.getD_some, List.cons_append, List.nil_append,
      List.mem_cons, List.not_mem_nil, or_false] at hc
    rcases hc with rfl | rfl
    · exact ⟨"OVER", by simp [handledTypes], rfl⟩
    · exact ⟨"CROSSED_DOWN", by simp [handledTypes], rfl⟩

end TradeStream.Backtesting
