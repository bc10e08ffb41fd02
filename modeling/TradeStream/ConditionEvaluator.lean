import TradeStream.YamlStrategyLoader

/-! `ConditionEvaluator` of the strategy execution engine: the conditions of a spec at the
last bar. -/
namespace TradeStream.StrategyExecution
open TradeStream.SeriesRules TradeStream.Backtesting

section
variable {D S : Type} (runtime : PythonRuntime D)

/-- `float` of a dict's value, or of its default. -/
def numberOr (default : D) : Option (PyValue D) → Except PyError D
  | none => .ok default
  | some value => runtime.float value

/-- `StrategyConfig.from_dict` on one of the parameters: its name and its default. -/
def parameterDef [AddMonoidWithOne D] (p : ParameterDef D) : Except PyError (String × D) := do
  let _ ← numberOr runtime 0 p.min
  let _ ← numberOr runtime 100 p.max
  let defaultValue ← numberOr runtime 0 p.defaultValue
  return (p.name.getD "", defaultValue)

/-- `param_values` of `start_strategy`. -/
def parameterValues [AddMonoidWithOne D] (spec : StrategySpec D)
    (overrides : String → Option D) : Except PyError (String → Option D) := do
  let parameters ← spec.parameters.mapM (parameterDef runtime)
  let defaults := parameters.foldl
    (fun (values : String → Option D) p => Function.update values p.1 (some p.2)) fun _ => none
  return fun name => (overrides name).or (defaults name)

/-- The name in a text that starts with `${` and ends with `}`. -/
def parameterName (text : String) : Option String :=
  match text.toList with
  | '$' :: '\x7b' :: rest =>
    if rest.getLast? = some '\x7d' then some (String.ofList rest.dropLast) else none
  | _ => none

/-- `series[-2]` and `series[-1]`. -/
def lastTwo (series : List D) : Option (D × D) :=
  match series.reverse with
  | curr :: prev :: _ => some (prev, curr)
  | _ => none

namespace ConditionEvaluator

/-- `_get_threshold`. -/
def getThreshold (params : String → PyValue D) (parameterValues : String → Option D) :
    Except PyError (Option D) :=
  match params "value" with
  | .none => .ok none
  | .string s =>
    match parameterName s with
    | some name => .ok (parameterValues name)
    | none => (runtime.float (.string s)).map some
  | value => (runtime.float value).map some

/-- `_get_other_series`. -/
def getOtherSeries (params : String → PyValue D) (indicatorValues : String → Option S) :
    Except PyError (Option S) :=
  getIndicator indicatorValues (params "crosses")

variable [LinearOrder D] (indicatorValues : String → Option (List D))
  (parameterValues : String → Option D) (params : String → PyValue D)

/-- `_crossed_up` and `_crossed_down`. -/
def crossed (side : Side) (prevA currA : D) : Except PyError Bool := do
  let other ← getOtherSeries params indicatorValues
  match other.bind lastTwo with
  | none => return false
  | some (prevB, currB) => return ¬ side.Beyond prevA prevB ∧ side.Beyond currA currB

/-- `_over` and `_under`. -/
def beyond (side : Side) (curr : D) : Except PyError Bool := do
  let threshold ← getThreshold runtime params parameterValues
  match threshold with
  | some x => return side.Beyond curr x
  | none =>
    let other ← getIndicator indicatorValues (params "other")
    match other.bind List.getLast? with
    | some y => return side.Beyond curr y
    | none => return false

/-- `_evaluate_one`. -/
def evaluateOne (cond : Condition D) : Except PyError Bool :=
  match lastTwo ((indicatorValues (cond.indicator.getD "")).getD []) with
  | none => .ok false
  | some (prev, curr) =>
    let condType := runtime.upper (cond.type.getD "")
    if condType = "CROSSED_UP" then crossed indicatorValues cond.params .above prev curr
    else if condType = "CROSSED_DOWN" then crossed indicatorValues cond.params .below prev curr
    else if condType = "OVER" then
      beyond runtime indicatorValues parameterValues cond.params .above curr
    else if condType = "UNDER" then
      beyond runtime indicatorValues parameterValues cond.params .below curr
    else .ok false

/-- `all` stops at the first condition that is not met. -/
def evaluateAll : List (Condition D) → Except PyError Bool
  | [] => .ok true
  | cond :: conditions => do
    let met ← evaluateOne runtime indicatorValues parameterValues cond
    if met then evaluateAll conditions else return false

def evaluate (conditions : List (Condition D)) : Except PyError Bool :=
  if conditions = [] then .ok false
  else evaluateAll runtime indicatorValues parameterValues conditions

end ConditionEvaluator

end

end TradeStream.StrategyExecution
