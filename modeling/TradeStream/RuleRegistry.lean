import TradeStream.IndicatorRegistry

/-! `RuleRegistry`: the rules that a condition can name, and what each needs of the
indicators built so far and of the parameters of the condition. -/
namespace TradeStream.Configurable
open TradeStream.Fallible

/-- The indicators built so far. An indicator without an id stands under `null`. -/
abbrev IndicatorMap (D : Type) := Option String → Option (Ta4jObject D)

/-- The lambdas of the registry, one constructor for those that differ only in the rule
class they make or in the key they read. -/
inductive RuleFactory where
  | crossover
  /-- against the indicator under the key, if there is one, else against a value -/
  | operandOrValue (cls key : String)
  | threshold (cls key : String)
  | comparison (cls : String)
  | trend (cls : String)
  | unsupported (message : String)
  | stop (cls : String)
  | trailingStop
  deriving DecidableEq

section
variable {D : Type} (runtime : JavaRuntime D) (ta4j : Ta4j D)

def IndicatorMap.find (indicators : IndicatorMap D) (id : String) :
    Except BuildError (Ta4jObject D) :=
  match indicators (some id) with
  | some indicator => .ok indicator
  | none => .error (.illegalArgument ("Indicator not found: " ++ id))

/-- The indicator whose id stands under the key. -/
def operand (indicators : IndicatorMap D) (params : ResolvedParams D) (key : String) :
    Except BuildError (Ta4jObject D) := do
  let id ← params.getString key
  indicators.find id

/-- The ids under which there is an indicator. -/
def IndicatorMap.HasIds (indicators : IndicatorMap D) (built : List String) : Prop :=
  ∀ id, indicators (some id) ≠ none ↔ id ∈ built

theorem IndicatorMap.HasIds.succeeds_find_iff {indicators : IndicatorMap D}
    {built : List String} (h : indicators.HasIds built) (id : String) :
    Succeeds (indicators.find id) ↔ id ∈ built := by
  rw [← h id, IndicatorMap.find]
  cases indicators (some id) <;> simp

namespace ResolvedParams
variable (built : List String) (params : ResolvedParams D)

/-- An id of an indicator stands under the key. -/
def NamesIndicator (key : String) : Prop :=
  ∃ value, params key = some value ∧ value.toString ∈ built

/-- A double stands under the key, and the constructor takes it. -/
def GivesDouble (cls key : String) : Prop :=
  ∃ x, params.double? runtime key none = some x ∧ ta4j.accepts cls [.double x] = true

variable {built params}

theorem succeeds_operand_iff {indicators : IndicatorMap D} (h : indicators.HasIds built)
    {key : String} :
    Succeeds (operand indicators params key) ↔ params.NamesIndicator built key := by
  rw [operand, succeeds_bind_iff]
  constructor
  · rintro ⟨id, hid, hfind⟩
    rw [getString_eq_ok_iff] at hid
    obtain ⟨value, hvalue, rfl⟩ := hid
    exact ⟨value, hvalue, (h.succeeds_find_iff _).mp hfind⟩
  · rintro ⟨value, hvalue, hmem⟩
    exact ⟨value.toString, (params.getString_eq_ok_iff).mpr ⟨value, hvalue, rfl⟩,
      (h.succeeds_find_iff _).mpr hmem⟩

theorem succeeds_getDouble_construct_iff {cls key : String} (objects : List (Ta4jObject D)) :
    Succeeds (params.getDouble runtime key none >>= fun x =>
      ta4j.construct cls (objects.map .inr ++ [.inl (.double x)])) ↔
      params.GivesDouble runtime ta4j cls key := by
  have hnumbers (x : D) : (objects.map Sum.inr ++ [Sum.inl (ParameterValue.double x)]).filterMap
      Sum.getLeft? = [ParameterValue.double x] := by
    simp [List.filterMap_append, List.filterMap_map, Function.comp_def]
  rw [succeeds_bind_iff]
  apply exists_congr
  intro x
  rw [getDouble_eq_ok_iff, ta4j.succeeds_construct_iff, hnumbers]

end ResolvedParams

/-- An object made of objects alone is always made. -/
theorem Ta4j.succeeds_construct_objects {cls : String} (objects : List (Ta4jObject D)) :
    Succeeds (ta4j.construct cls (objects.map .inr)) := by
  have hnumbers : (objects.map Sum.inr).filterMap Sum.getLeft? =
      ([] : List (ParameterValue D)) := by
    simp [List.filterMap_map, Function.comp_def]
  rw [ta4j.succeeds_construct_iff, hnumbers]
  exact ta4j.accepts_nil cls

namespace RuleFactory
variable (indicators : IndicatorMap D) (params : ResolvedParams D)

def create : RuleFactory → Except BuildError (Ta4jObject D)
  | crossover => do
    let firstId ← params.getString "indicator"
    let secondId ← params.getString "crosses"
    -- any other direction than "UP" is taken for "DOWN"
    let direction := ((params "direction").map JavaObject.toString).getD "UP"
    let first ← indicators.find firstId
    let second ← indicators.find secondId
    if runtime.equalsIgnoreCase direction "UP" then
      ta4j.construct "CrossedUpIndicatorRule" [.inr first, .inr second]
    else ta4j.construct "CrossedDownIndicatorRule" [.inr first, .inr second]
  | operandOrValue cls key => do
    -- the other indicator comes before a value, if both are given
    let indicator ← operand indicators params "indicator"
    if (params key).isSome then
      let other ← operand indicators params key
      ta4j.construct cls [.inr indicator, .inr other]
    else
      let value ← params.getDouble runtime "value" none
      ta4j.construct cls [.inr indicator, .inl (.double value)]
  | threshold cls key => do
    let indicator ← operand indicators params "indicator"
    let value ← params.getDouble runtime key none
    ta4j.construct cls [.inr indicator, .inl (.double value)]
  | comparison cls => do
    let indicator ← operand indicators params "indicator"
    let other ← operand indicators params "other"
    ta4j.construct cls [.inr indicator, .inr other]
  | trend cls => do
    let indicator ← operand indicators params "indicator"
    let barCount ← params.getInt runtime "barCount" (some 1)
    ta4j.construct cls [.inr indicator, .inl (.int barCount)]
  | unsupported message => .error (.unsupportedOperation message)
  | stop cls => do
    let percentage ← params.getDouble runtime "percentage" none
    let closePrice ← ta4j.construct "ClosePriceIndicator" [.inr .series]
    ta4j.construct cls [.inr closePrice, .inl (.double percentage)]
  | trailingStop => do
    let percentage ← params.getDouble runtime "percentage" none
    let closePrice ← ta4j.construct "ClosePriceIndicator" [.inr .series]
    let loss ← ta4j.construct "numFactory().numOf" [.inl (.double percentage)]
    ta4j.construct "TrailingStopLossRule" [.inr closePrice, .inr loss]

/-- What the rule needs: the ids of its operands among those built, its numbers, and
constructors that take them. -/
def Accepted (built : List String) : RuleFactory → Prop
  | crossover =>
    params.NamesIndicator built "indicator" ∧ params.NamesIndicator built "crosses"
  | operandOrValue cls key =>
    params.NamesIndicator built "indicator" ∧
      if (params key).isSome then params.NamesIndicator built key
      else params.GivesDouble runtime ta4j cls "value"
  | threshold cls key =>
    params.NamesIndicator built "indicator" ∧ params.GivesDouble runtime ta4j cls key
  | comparison _ =>
    params.NamesIndicator built "indicator" ∧ params.NamesIndicator built "other"
  | trend cls =>
    params.NamesIndicator built "indicator" ∧
      ∃ n, params.int? runtime "barCount" (some 1) = some n ∧
        ta4j.accepts cls [.int n] = true
  | unsupported _ => False
  | stop cls => params.GivesDouble runtime ta4j cls "percentage"
  | trailingStop => params.GivesDouble runtime ta4j "numFactory().numOf" "percentage"

theorem succeeds_create_iff {built : List String} (h : indicators.HasIds built)
    (factory : RuleFactory) :
    Succeeds (factory.create runtime ta4j indicators params) ↔
      factory.Accepted runtime ta4j params built := by
  have hobjects (cls : String) (a b : Ta4jObject D) :
      Succeeds (ta4j.construct cls [.inr a, .inr b]) := ta4j.succeeds_construct_objects [a, b]
  have hclose : Succeeds (ta4j.construct "ClosePriceIndicator" [.inr .series]) :=
    ta4j.succeeds_construct_objects [.series]
  cases factory with
  | crossover =>
    simp only [create, Accepted, ← ResolvedParams.succeeds_operand_iff h]
    constructor
    · intro hcreate
      obtain ⟨firstId, hfirstId, hcreate⟩ := succeeds_bind_iff.mp hcreate
      obtain ⟨secondId, hsecondId, hcreate⟩ := succeeds_bind_iff.mp hcreate
      obtain ⟨first, hfirst, hcreate⟩ := succeeds_bind_iff.mp hcreate
      obtain ⟨second, hsecond, -⟩ := succeeds_bind_iff.mp hcreate
      exact ⟨succeeds_bind_iff.mpr ⟨firstId, hfirstId, first, hfirst⟩,
        succeeds_bind_iff.mpr ⟨secondId, hsecondId, second, hsecond⟩⟩
    · rintro ⟨hfirst, hsecond⟩
      obtain ⟨firstId, hfirstId, first, hfirst⟩ := succeeds_bind_iff.mp hfirst
      obtain ⟨secondId, hsecondId, second, hsecond⟩ := succeeds_bind_iff.mp hsecond
      refine succeeds_bind_iff.mpr ⟨firstId, hfirstId, ?_⟩
      refine succeeds_bind_iff.mpr ⟨secondId, hsecondId, ?_⟩
      refine succeeds_bind_iff.mpr ⟨first, hfirst, ?_⟩
      refine succeeds_bind_iff.mpr ⟨second, hsecond, ?_⟩
      -- the direction only picks the class
      split
      · exact hobjects _ first second
      · exact hobjects _ first second
  | operandOrValue cls key =>
    simp only [create, Accepted, ← ResolvedParams.succeeds_operand_iff h]
    apply succeeds_bind_iff_and
    intro indicator _
    split
    · simp only [succeeds_bind_iff, hobjects, and_true]
      rfl
    · exact ResolvedParams.succeeds_getDouble_construct_iff runtime ta4j [indicator]
  | threshold cls key =>
    simp only [create, Accepted, ← ResolvedParams.succeeds_operand_iff h]
    apply succeeds_bind_iff_and
    intro indicator _
    exact ResolvedParams.succeeds_getDouble_construct_iff runtime ta4j [indicator]
  | comparison cls =>
    simp only [create, Accepted, ← ResolvedParams.succeeds_operand_iff h]
    apply succeeds_bind_iff_and
    intro indicator _
    simp only [succeeds_bind_iff, hobjects, and_true]
    rfl
  | trend cls =>
    simp only [create, Accepted, ← ResolvedParams.succeeds_operand_iff h]
    apply succeeds_bind_iff_and
    intro indicator _
    rw [succeeds_bind_iff]
    apply exists_congr
    intro n
    rw [ResolvedParams.getInt_eq_ok_iff, ta4j.succeeds_construct_iff]
    rfl
  | unsupported message => simp [create, Accepted]
  | stop cls =>
    simp only [create, Accepted, ResolvedParams.GivesDouble]
    rw [succeeds_bind_iff]
    apply exists_congr
    intro x
    have hrule (closePrice : Ta4jObject D) :
        Succeeds (ta4j.construct cls [.inr closePrice, .inl (.double x)]) ↔
          ta4j.accepts cls [.double x] = true := ta4j.succeeds_construct_iff _ _
    rw [ResolvedParams.getDouble_eq_ok_iff, succeeds_bind_iff_and fun closePrice _ =>
      hrule closePrice, and_iff_right hclose]
  | trailingStop =>
    simp only [create, Accepted, ResolvedParams.GivesDouble]
    rw [succeeds_bind_iff]
    apply exists_congr
    intro x
    have hloss : Succeeds (ta4j.construct "numFactory().numOf" [.inl (.double x)]) ↔
        ta4j.accepts "numFactory().numOf" [.double x] = true := ta4j.succeeds_construct_iff _ _
    have hrule (closePrice : Ta4jObject D) :
        Succeeds (ta4j.construct "numFactory().numOf" [.inl (.double x)] >>= fun loss =>
          ta4j.construct "TrailingStopLossRule" [.inr closePrice, .inr loss]) ↔
          ta4j.accepts "numFactory().numOf" [.double x] = true := by
      rw [succeeds_bind_iff_and fun loss _ => iff_true_intro (hobjects _ closePrice loss),
        and_true, hloss]
    rw [ResolvedParams.getDouble_eq_ok_iff, succeeds_bind_iff_and fun closePrice _ =>
      hrule closePrice, and_iff_right hclose]

end RuleFactory

end

namespace RuleRegistry

/-- `defaultRegistry`. -/
def factories : List (String × RuleFactory) := [
  ("CROSSOVER", .crossover),
  ("CROSSED_UP", .operandOrValue "CrossedUpIndicatorRule" "crosses"),
  ("CROSSED_DOWN", .operandOrValue "CrossedDownIndicatorRule" "crosses"),
  ("CROSSES_ABOVE", .threshold "CrossedUpIndicatorRule" "value"),
  ("CROSSES_BELOW", .threshold "CrossedDownIndicatorRule" "value"),
  ("ABOVE", .operandOrValue "OverIndicatorRule" "other"),
  ("BELOW", .operandOrValue "UnderIndicatorRule" "other"),
  ("OVER", .operandOrValue "OverIndicatorRule" "other"),
  ("UNDER", .operandOrValue "UnderIndicatorRule" "other"),
  ("OVER_CONSTANT", .threshold "OverIndicatorRule" "threshold"),
  ("UNDER_CONSTANT", .threshold "UnderIndicatorRule" "threshold"),
  ("CROSSED_UP_CONSTANT", .threshold "CrossedUpIndicatorRule" "threshold"),
  ("CROSSED_DOWN_CONSTANT", .threshold "CrossedDownIndicatorRule" "threshold"),
  ("OVER_INDICATOR", .comparison "OverIndicatorRule"),
  ("UNDER_INDICATOR", .comparison "UnderIndicatorRule"),
  ("IS_RISING", .trend "IsRisingRule"),
  ("IS_FALLING", .trend "IsFallingRule"),
  ("AND", .unsupported "AND rule should be handled by combining conditions"),
  ("OR", .unsupported "OR rule should be handled by combining conditions"),
  ("STOP_GAIN", .stop "StopGainRule"),
  ("STOP_LOSS", .stop "StopLossRule"),
  ("TRAILING_STOP_LOSS", .trailingStop)]

section
variable {D : Type} (runtime : JavaRuntime D) (ta4j : Ta4j D)

/-- `factories.get(type.toUpperCase())`. The names of the table are in upper case. -/
def get (type : String) : Option RuleFactory := factories.lookup (runtime.toUpperCase type)

def hasRule (type : String) : Bool := (get runtime type).isSome

def create (type : String) (indicators : IndicatorMap D) (params : ResolvedParams D) :
    Except BuildError (Ta4jObject D) :=
  match get runtime type with
  | none => .error (.illegalArgument ("Unknown rule type: " ++ type))
  | some factory => factory.create runtime ta4j indicators params

/-- The type is registered and its rule has what it needs. -/
def Accepted (type : String) (built : List String) (params : ResolvedParams D) : Prop :=
  ∃ factory, get runtime type = some factory ∧ factory.Accepted runtime ta4j params built

theorem succeeds_create_iff {type : String} {indicators : IndicatorMap D}
    {built : List String} (h : indicators.HasIds built) {params : ResolvedParams D} :
    Succeeds (create runtime ta4j type indicators params) ↔
      Accepted runtime ta4j type built params := by
  unfold create Accepted
  cases get runtime type with
  | none => simp
  | some factory => simp [factory.succeeds_create_iff runtime ta4j indicators params h]

end

end RuleRegistry

end TradeStream.Configurable
