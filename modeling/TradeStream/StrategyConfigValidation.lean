import TradeStream.StrategyBuild

/-! `StrategyConfigValidationService`: the findings of the validator of configs, and which
of the configs without an error the factory builds. -/
namespace TradeStream.Configurable
open TradeStream.Fallible

/-- The names of the `${name}` placeholders found in a text, from left to right. The first
argument bounds the number of characters. -/
def placeholdersFrom : ℕ → List Char → List String
  | 0, _ => []
  | _, [] => []
  | n + 1, '$' :: '\x7b' :: rest =>
    match rest.span (· ≠ '\x7d') with
    | (c :: name, '\x7d' :: after) => String.ofList (c :: name) :: placeholdersFrom n after
    | _ => placeholdersFrom n ('\x7b' :: rest)
  | n + 1, _ :: rest => placeholdersFrom n rest

def placeholders (text : String) : List String :=
  placeholdersFrom text.toList.length text.toList

inductive Severity where
  | ERROR
  | WARNING
  | INFO
  deriving DecidableEq, Repr

structure ValidationResult where
  severity : Severity
  strategyName : String
  message : String
  deriving DecidableEq

namespace ValidationResult

def error (strategyName message : String) : ValidationResult := ⟨.ERROR, strategyName, message⟩

def warning (strategyName message : String) : ValidationResult :=
  ⟨.WARNING, strategyName, message⟩

end ValidationResult

/-- The findings if there is a problem. -/
def reportIf {α : Type} (problem : Bool) (finding : α) : List α :=
  if problem then [finding] else []

def isNullOrEmpty (text : Option String) : Bool := text.getD "" == ""

section
variable {D : Type} (runtime : JavaRuntime D) (config : StrategyConfig D) (name : String)

def validateRequiredFields : List ValidationResult :=
  reportIf (isNullOrEmpty config.name) (.error name "Missing required field: name") ++
  reportIf (isNullOrEmpty config.description)
    (.error name "Missing required field: description") ++
  reportIf (config.indicators.getD []).isEmpty
    (.error name "Strategy must define at least one indicator") ++
  reportIf (config.entryConditions.getD []).isEmpty
    (.error name "Strategy must define at least one entry condition") ++
  reportIf (config.exitConditions.getD []).isEmpty
    (.error name "Strategy must define at least one exit condition") ++
  reportIf (config.parameters.getD []).isEmpty
    (.warning name "Strategy defines no parameters (not optimizable)")

def validComplexities : List String := ["SIMPLE", "MODERATE", "COMPLEX"]

def validateComplexity : List ValidationResult :=
  match config.complexity with
  | none => []
  | some complexity =>
    reportIf (!validComplexities.contains (runtime.toUpperCase complexity))
      (.error name ("Invalid complexity '" ++ complexity ++ "'. Must be one of: " ++
        runtime.setToString validComplexities))

/-- The checks of one parameter that has a name. -/
def validateParameter (param : ParameterDefinition D) (paramName : String) :
    List ValidationResult :=
  let parameter := "Parameter '" ++ paramName ++ "'"
  reportIf param.type.isNone (.error name (parameter ++ " has no type")) ++
  (match param.min, param.max with
    | some min, some max =>
      reportIf (runtime.lt max.doubleValue min.doubleValue)
        (.error name (parameter ++ " has min (" ++ min.text ++ ") > max (" ++ max.text ++ ")"))
    | _, _ => []) ++
  (match param.defaultValue, param.min with
    | some value, some min =>
      reportIf (runtime.lt value.doubleValue min.doubleValue)
        (.error name (parameter ++ " default (" ++ value.text ++ ") is below min (" ++
          min.text ++ ")"))
    | _, _ => []) ++
  (match param.defaultValue, param.max with
    | some value, some max =>
      reportIf (runtime.lt max.doubleValue value.doubleValue)
        (.error name (parameter ++ " default (" ++ value.text ++ ") exceeds max (" ++
          max.text ++ ")"))
    | _, _ => []) ++
  (match param.type, param.defaultValue with
    | some .INTEGER, some value =>
      reportIf (!runtime.isWhole value.doubleValue)
        (.warning name (parameter ++ " is INTEGER but default is not a whole number: " ++
          value.text))
    | _, _ => [])

/-- The loop over the parameters, with the names seen so far. -/
def validateParametersFrom (seenNames : List String) :
    List (ParameterDefinition D) → List ValidationResult
  | [] => []
  | param :: params =>
    if isNullOrEmpty param.name then
      .error name "Parameter has no name" :: validateParametersFrom seenNames params
    else
      let paramName := param.name.getD ""
      reportIf (seenNames.contains paramName)
          (.error name ("Duplicate parameter name: " ++ paramName)) ++
        validateParameter runtime name param paramName ++
        validateParametersFrom (paramName :: seenNames) params

def validateParameters : List ValidationResult :=
  validateParametersFrom runtime name [] (config.parameters.getD [])

def validInputs : List String :=
  ["close", "open", "high", "low", "volume", "typical_price", "median_price"]

def deprecatedIndicatorTypes : List String := ["MOMENTUM"]

/-- The checks of one indicator that has an id, with the ids so far, its own among them. -/
def validateIndicator (definedIds : List String) (indicator : IndicatorConfig) (id : String) :
    List ValidationResult :=
  (if isNullOrEmpty indicator.type then
      [.error name ("Indicator '" ++ id ++ "' has no type")]
    else
      reportIf (!IndicatorRegistry.hasIndicator runtime (indicator.type.getD ""))
        (.error name ("Indicator '" ++ id ++ "' uses unregistered type: " ++
          indicator.type.getD ""))) ++
  (match indicator.type with
    | some type =>
      reportIf (deprecatedIndicatorTypes.contains (runtime.toUpperCase type))
        (.warning name ("Indicator '" ++ id ++ "' uses deprecated type: " ++ type ++
          ". Consider using ROC instead."))
    | none => []) ++
  (match indicator.input with
    | some input =>
      -- an indicator that only comes later is found as well
      reportIf (!validInputs.contains (runtime.toLowerCase input) &&
          !definedIds.contains input &&
          !(config.indicators.getD []).any fun other => other.id == some input)
        (.error name ("Indicator '" ++ id ++ "' references unknown input: " ++ input))
    | none => [])

/-- The loop over the indicators, with the ids seen so far. -/
def validateIndicatorsFrom (definedIds : List String) :
    List IndicatorConfig → List ValidationResult
  | [] => []
  | indicator :: indicators =>
    if isNullOrEmpty indicator.id then
      .error name "Indicator has no id" :: validateIndicatorsFrom definedIds indicators
    else
      let id := indicator.id.getD ""
      reportIf (definedIds.contains id) (.error name ("Duplicate indicator id: " ++ id)) ++
        validateIndicator runtime config name (id :: definedIds) indicator id ++
        validateIndicatorsFrom (id :: definedIds) indicators

def validateIndicators : List ValidationResult :=
  validateIndicatorsFrom runtime config name [] (config.indicators.getD [])

/-- The ids that `validateIndicators` returns. -/
def definedIndicatorIds : List String :=
  ((config.indicators.getD []).filterMap IndicatorConfig.id).filter (· ≠ "")

/-- A parameter of a condition that is a string refers to an indicator. -/
def validateCrossReference (key : String) (definedIds : List String)
    (condition : ConditionConfig D) : List ValidationResult :=
  match valueAt condition.params key with
  | some (.string ref) =>
    reportIf (!definedIds.contains ref)
      (.error name ("Condition param '" ++ key ++ "' references undefined indicator: " ++ ref))
  | _ => []

def validateCondition (conditionType : String) (definedIds : List String)
    (condition : ConditionConfig D) : List ValidationResult :=
  if isNullOrEmpty condition.type then
    [.error name ("An " ++ conditionType ++ " condition has no type")]
  else
    let type := condition.type.getD ""
    reportIf (!RuleRegistry.hasRule runtime type)
        (.error name ("Unknown " ++ conditionType ++ " condition type: " ++ type)) ++
      (match condition.indicator with
        | some indicator =>
          reportIf (!definedIds.contains indicator)
            (.error name ("Condition type '" ++ type ++ "' references undefined indicator: " ++
              indicator))
        | none => []) ++
      validateCrossReference name "crosses" definedIds condition ++
      validateCrossReference name "other" definedIds condition

def validateConditions (conditions : Option (List (ConditionConfig D)))
    (conditionType : String) (definedIds : List String) : List ValidationResult :=
  (conditions.getD []).flatMap (validateCondition runtime name conditionType definedIds)

def collectParameterNames : List String :=
  (config.parameters.getD []).filterMap ParameterDefinition.name

/-- The placeholders of one entry. The matcher throws on a null value. -/
def validatePlaceholders (definedParamNames : List String) (indicator : IndicatorConfig)
    (entry : Σ _ : String, Option String) : Option (List ValidationResult) :=
  match entry.2 with
  | none => none
  | some value =>
    some ((placeholders value).flatMap fun paramRef =>
      reportIf (!definedParamNames.contains paramRef)
        (.error name ("Indicator '" ++ indicator.id.getD "null" ++ "' param '" ++ entry.1 ++
          "' references undefined parameter: $\x7b" ++ paramRef ++ "\x7d")))

def validatePlaceholderReferences (definedParamNames : List String) :
    Option (List ValidationResult) := do
  let findings ← (config.indicators.getD []).mapM fun indicator =>
    ((indicator.params.map AList.entries).getD []).mapM
      (validatePlaceholders name definedParamNames indicator)
  return findings.flatten.flatten

/-- `validate`. `none` stands for the `NullPointerException` of a null parameter. -/
def validate : Option (List ValidationResult) := do
  let name := config.name.getD "<unnamed>"
  let placeholderFindings ←
    validatePlaceholderReferences config name (collectParameterNames config)
  return validateRequiredFields config name ++ validateComplexity runtime config name ++
    validateParameters runtime config name ++ validateIndicators runtime config name ++
    validateConditions runtime name config.entryConditions "entry"
      (definedIndicatorIds config) ++
    validateConditions runtime name config.exitConditions "exit"
      (definedIndicatorIds config) ++
    placeholderFindings

end

def NoErrors (results : List ValidationResult) : Prop :=
  ∀ result ∈ results, result.severity ≠ .ERROR

@[simp] theorem noErrors_append {a b : List ValidationResult} :
    NoErrors (a ++ b) ↔ NoErrors a ∧ NoErrors b :=
  List.forall_mem_append

@[simp] theorem noErrors_reportIf_error {problem : Bool} {name message : String} :
    NoErrors (reportIf problem (.error name message)) ↔ problem = false := by
  cases problem <;> simp [reportIf, NoErrors, ValidationResult.error]

@[simp] theorem not_noErrors_error_cons {name message : String}
    {results : List ValidationResult} :
    ¬ NoErrors (ValidationResult.error name message :: results) := by
  intro h
  exact h _ List.mem_cons_self rfl

theorem eq_some_of_not_isNullOrEmpty {text : Option String} (h : isNullOrEmpty text = false) :
    text = some (text.getD "") := by
  cases text with
  | none => simp [isNullOrEmpty] at h
  | some s => rfl

section
variable {D : Type} {runtime : JavaRuntime D} {ta4j : Ta4j D} {config : StrategyConfig D}
  {name : String}

theorem named_of_validateParametersFrom {params : List (ParameterDefinition D)}
    {seenNames : List String}
    (h : NoErrors (validateParametersFrom runtime name seenNames params)) :
    ∀ param ∈ params, param.name ≠ none := by
  induction params generalizing seenNames with
  | nil => simp
  | cons param params ih =>
    rw [validateParametersFrom] at h
    rw [List.forall_mem_cons]
    by_cases hnull : isNullOrEmpty param.name = true
    · rw [if_pos hnull] at h
      exact absurd h not_noErrors_error_cons
    · rw [if_neg hnull, noErrors_append] at h
      refine ⟨?_, ih h.2⟩
      intro hnone
      simp [hnone, isNullOrEmpty] at hnull

/-- The types of the indicators that the loop lets pass are registered. -/
theorem indicatorTypes_of_validateIndicatorsFrom {indicators : List IndicatorConfig}
    {definedIds : List String}
    (h : NoErrors (validateIndicatorsFrom runtime config name definedIds indicators)) :
    ∀ indicator ∈ indicators, ∃ type, indicator.type = some type ∧
      IndicatorRegistry.hasIndicator runtime type = true := by
  induction indicators generalizing definedIds with
  | nil => simp
  | cons indicator indicators ih =>
    rw [validateIndicatorsFrom] at h
    rw [List.forall_mem_cons]
    by_cases hnull : isNullOrEmpty indicator.id = true
    · rw [if_pos hnull] at h
      exact absurd h not_noErrors_error_cons
    · rw [if_neg hnull] at h
      simp only [noErrors_append] at h
      refine ⟨?_, ih h.2⟩
      -- no error means that no check of the chain reports one
      have hchecks := h.1.2
      simp only [validateIndicator, noErrors_append] at hchecks
      have htype := hchecks.1.1
      by_cases hnotype : isNullOrEmpty indicator.type = true
      · rw [if_pos hnotype] at htype
        exact absurd htype not_noErrors_error_cons
      · rw [if_neg hnotype, noErrors_reportIf_error] at htype
        rw [Bool.not_eq_true] at hnotype
        exact ⟨_, eq_some_of_not_isNullOrEmpty hnotype, by simpa using htype⟩

theorem ruleTypes_of_validateConditions {conditions : Option (List (ConditionConfig D))}
    {conditionType : String} {definedIds : List String}
    (h : NoErrors (validateConditions runtime name conditions conditionType definedIds)) :
    ∀ condition ∈ conditions.getD [], ∃ type, condition.type = some type ∧
      RuleRegistry.hasRule runtime type = true := by
  intro condition hmem
  have hcondition : NoErrors (validateCondition runtime name conditionType definedIds condition) :=
    fun result hresult => h result (List.mem_flatMap.mpr ⟨condition, hmem, hresult⟩)
  rw [validateCondition] at hcondition
  by_cases hnotype : isNullOrEmpty condition.type = true
  · rw [if_pos hnotype] at hcondition
    exact absurd hcondition not_noErrors_error_cons
  · rw [if_neg hnotype] at hcondition
    simp only [noErrors_append, noErrors_reportIf_error] at hcondition
    rw [Bool.not_eq_true] at hnotype
    exact ⟨_, eq_some_of_not_isNullOrEmpty hnotype, by simpa using hcondition.1.1.1⟩

/-- What a config without an error is known to have. -/
theorem wellFormed_of_validate {results : List ValidationResult}
    (h : validate runtime config = some results) (hno : NoErrors results) :
    WellFormed runtime config := by
  simp only [validate, Option.bind_eq_bind, Option.bind_eq_some_iff, Option.pure_def,
    Option.some.injEq] at h
  obtain ⟨placeholderFindings, -, rfl⟩ := h
  simp only [noErrors_append, validateRequiredFields, noErrors_reportIf_error] at hno
  obtain ⟨⟨⟨⟨⟨⟨hrequired, -⟩, hparameters⟩, hindicators⟩, hentry⟩, hexit⟩, -⟩ := hno
  obtain ⟨⟨⟨-, hentryConditions⟩, hexitConditions⟩, -⟩ := hrequired
  constructor
  · exact named_of_validateParametersFrom hparameters
  · exact indicatorTypes_of_validateIndicatorsFrom hindicators
  · simpa using hentryConditions
  · simpa using hexitConditions
  · rw [allConditions, List.forall_mem_append]
    exact ⟨ruleTypes_of_validateConditions hentry, ruleTypes_of_validateConditions hexit⟩

theorem succeeds_iff_resolves_of_validate {results : List ValidationResult}
    (h : validate runtime config = some results) (hno : NoErrors results) :
    Succeeds (createDefaultStrategy runtime ta4j config) ↔ Resolves runtime ta4j config :=
  succeeds_createDefaultStrategy_iff (wellFormed_of_validate h hno)

end

/-- The value of a text of decimal digits. -/
def digits? (text : List Char) : Option ℤ :=
  if text ≠ [] ∧ text.all Char.isDigit then
    some (text.foldl (fun n c => 10 * n + (c.toNat - '0'.toNat : ℤ)) 0)
  else none

def wholeNumber? (text : String) : Option ℤ :=
  match text.toList with
  | '-' :: rest => (digits? rest).map Neg.neg
  | '+' :: rest => digits? rest
  | text => digits? text

theorem toUpper_of_isUpper {c : Char} (h : c.isUpper = true ∨ c = '_') : c.toUpper = c := by
  rcases h with hupper | rfl
  · simp only [Char.isUpper, decide_eq_true_eq] at hupper
    unfold Char.toUpper
    split
    next hlower =>
      -- no character lies in both ranges
      have hle := UInt32.le_iff_toNat_le.mp hupper.2
      have hge := UInt32.le_iff_toNat_le.mp hlower.1
      simp at hle hge
      omega
    next => rfl
  · rfl

/-- The Java library on ASCII texts, for configs whose numbers are whole. -/
def asciiRuntime : JavaRuntime ℚ where
  toUpperCase := fun s => String.ofList (s.toList.map Char.toUpper)
  toLowerCase := fun s => String.ofList (s.toList.map Char.toLower)
  equalsIgnoreCase := fun s t => s.toList.map Char.toLower == t.toList.map Char.toLower
  isBlank := fun s => s.toList.all Char.isWhitespace
  setToString := fun names => "[" ++ ", ".intercalate names ++ "]"
  parseInt := fun s => (wholeNumber? s).bind fun n =>
    if (Int32.ofInt n).toInt = n then some (Int32.ofInt n) else none
  parseDouble := fun s => (wholeNumber? s).map fun n => (n : ℚ)
  boxInteger := fun n => ⟨n, n.toInt, toString n.toInt⟩
  boxDouble := fun x => ⟨toInt32 x, x, toString x.num ++ ".0"⟩
  literal := id
  lt := fun x y => x < y
  isWhole := fun x => x.den = 1
  toUpperCase_of_upper := by
    intro s h
    have hmap : s.toList.map Char.toUpper = s.toList := by
      rw [List.map_congr_left fun c hc => toUpper_of_isUpper (h c hc), List.map_id']
    rw [hmap, String.ofList_toList]

/-- Constructors that take every number. -/
def permissiveTa4j : Ta4j ℚ where
  accepts := fun _ _ => true
  accepts_nil := fun _ => rfl
  accepts_own := fun _ _ _ => rfl

/-- A config of one moving average over the input, held against a level. -/
def averageConfig (input : String) : StrategyConfig ℚ where
  name := some "SMA_LEVEL"
  description := some "Price average against a level"
  complexity := some "SIMPLE"
  indicators := some [⟨some "sma", some "SMA", some input,
    some (AList.singleton "period" (some "$\x7bperiod\x7d"))⟩]
  entryConditions := some [⟨some "OVER_CONSTANT", some "sma",
    some (AList.singleton "threshold" (some (.number ⟨50, 50, "50"⟩)))⟩]
  exitConditions := some [⟨some "UNDER_CONSTANT", some "sma",
    some (AList.singleton "threshold" (some (.number ⟨50, 50, "50"⟩)))⟩]
  parameters := some [⟨some "period", some .INTEGER, some ⟨5, 5, "5"⟩, some ⟨50, 50, "50"⟩,
    some ⟨20, 20, "20"⟩⟩]

theorem resolves_averageConfig_close :
    validate asciiRuntime (averageConfig "close") = some [] ∧
      Resolves asciiRuntime permissiveTa4j (averageConfig "close") := by
  have hvalid : validate asciiRuntime (averageConfig "close") = some [] := by decide +kernel
  refine ⟨hvalid, (succeeds_iff_resolves_of_validate hvalid (by simp [NoErrors])).mp ?_⟩
  exact ⟨_, rfl⟩

theorem not_succeeds_averageConfig_typical_price :
    validate asciiRuntime (averageConfig "typical_price") = some [] ∧
      ¬ Succeeds (createDefaultStrategy asciiRuntime permissiveTa4j
        (averageConfig "typical_price")) := by
  refine ⟨by decide +kernel, ?_⟩
  have herror : createDefaultStrategy asciiRuntime permissiveTa4j
      (averageConfig "typical_price") = .error (.illegalArgument
        ("Unknown input indicator: typical_price" ++
          ". Make sure indicators are defined in order.")) := rfl
  rw [herror]
  exact not_succeeds_error _

end TradeStream.Configurable
