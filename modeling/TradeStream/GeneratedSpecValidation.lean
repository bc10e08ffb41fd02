import TradeStream.StrategyConfigValidation

/-! `GeneratedSpecValidator`: which generated configs it accepts, and which of those the
factory builds. -/
namespace TradeStream.Configurable.Llm
open TradeStream.Configurable TradeStream.Fallible

structure ValidationReport where
  isValid : Bool
  syntaxValid : Bool
  logicValid : Bool
  novel : Bool
  errors : List String
  warnings : List String
  deriving DecidableEq

section
variable {D : Type} (runtime : JavaRuntime D) (config : StrategyConfig D)

def isNullOrBlank (text : Option String) : Bool :=
  match text with
  | none => true
  | some text => runtime.isBlank text

/-- The loop over the indicators of `validateSyntax`, with the ids seen so far. -/
def indicatorSyntaxErrors (ids : List String) : List IndicatorConfig → List String
  | [] => []
  | ind :: inds =>
    let blank := isNullOrBlank runtime ind.id
    let id := ind.id.getD ""
    reportIf blank "Indicator missing id" ++
      reportIf (!blank && ids.contains id) ("Duplicate indicator id: " ++ id) ++
      (match ind.type with
        | none => ["Unknown indicator type: null"]
        | some type =>
          reportIf (!IndicatorRegistry.hasIndicator runtime type)
            ("Unknown indicator type: " ++ type)) ++
      indicatorSyntaxErrors (if blank then ids else id :: ids) inds

def conditionSyntaxErrors (condType : String) (conditions : List (ConditionConfig D)) :
    List String :=
  conditions.flatMap fun cond =>
    match cond.type with
    | none => ["Unknown " ++ condType ++ " condition type: null"]
    | some type =>
      reportIf (!RuleRegistry.hasRule runtime type)
        ("Unknown " ++ condType ++ " condition type: " ++ type)

def parameterSyntaxErrors (param : ParameterDefinition D) : List String :=
  let parameter := "Parameter '" ++ param.name.getD "null" ++ "'"
  reportIf (isNullOrBlank runtime param.name) "Parameter missing name" ++
  reportIf param.type.isNone (parameter ++ " missing type") ++
  match param.min, param.max with
  | some min, some max =>
    reportIf (runtime.lt max.doubleValue min.doubleValue) (parameter ++ " has min > max") ++
      match param.defaultValue with
      | some value =>
        reportIf (runtime.lt value.doubleValue min.doubleValue ||
          runtime.lt max.doubleValue value.doubleValue)
          (parameter ++ " default outside [min, max]")
      | none => []
  | _, _ => []

/-- The errors of `validateSyntax`, which is true when there are none. -/
def syntaxErrors : List String :=
  reportIf (isNullOrBlank runtime config.name) "Missing name" ++
  reportIf (config.indicators.getD []).isEmpty "No indicators defined" ++
  reportIf (config.entryConditions.getD []).isEmpty "No entry conditions" ++
  reportIf (config.exitConditions.getD []).isEmpty "No exit conditions" ++
  reportIf (config.parameters.getD []).isEmpty "No parameters (not optimizable)" ++
  indicatorSyntaxErrors runtime [] (config.indicators.getD []) ++
  conditionSyntaxErrors runtime "entry" (config.entryConditions.getD []) ++
  conditionSyntaxErrors runtime "exit" (config.exitConditions.getD []) ++
  (config.parameters.getD []).flatMap (parameterSyntaxErrors runtime)

/-- The checks of one parameter of a condition that may refer to an indicator. -/
def paramRefErrors (condType : String) (indicatorIds : List String) (cond : ConditionConfig D)
    (key : String) : List String :=
  match valueAt cond.params key with
  | some (.string ref) =>
    reportIf (!indicatorIds.contains ref)
      (condType ++ " condition '" ++ key ++ "' references undefined indicator: " ++ ref)
  | _ => []

/-- The errors of `validateConditionRefs`. -/
def conditionRefErrors (condType : String) (indicatorIds : List String)
    (conditions : List (ConditionConfig D)) : List String :=
  conditions.flatMap fun cond =>
    (match cond.indicator with
      | some indicator =>
        reportIf (!indicatorIds.contains indicator)
          (condType ++ " condition references undefined indicator: " ++ indicator)
      | none => []) ++
    paramRefErrors condType indicatorIds cond "crosses" ++
    paramRefErrors condType indicatorIds cond "other"

def placeholderErrors (paramNames : List String) (ind : IndicatorConfig) : List String :=
  ((ind.params.map AList.entries).getD []).flatMap fun entry =>
    match entry.2 with
    | none => []
    | some value =>
      (placeholders value).flatMap fun paramName =>
        reportIf (!paramNames.contains paramName)
          ("Indicator '" ++ ind.id.getD "null" ++ "' references undefined parameter: $\x7b" ++
            paramName ++ "\x7d")

def validInputs : List String := ["close", "high", "low", "open", "volume"]

/-- The loop over the inputs, with the ids built so far. -/
def inputErrors (builtSoFar : List String) : List IndicatorConfig → List String
  | [] => []
  | ind :: inds =>
    (match ind.input with
      | some input =>
        reportIf (!runtime.isBlank input && !validInputs.contains (runtime.toLowerCase input) &&
            !builtSoFar.contains input)
          ("Indicator '" ++ ind.id.getD "null" ++ "' references undefined input: " ++ input)
      | none => []) ++
    inputErrors (ind.id.toList ++ builtSoFar) inds

/-- The errors of `validateLogic`, which is true when there are none. -/
def logicErrors : List String :=
  let indicatorIds := (config.indicators.getD []).filterMap IndicatorConfig.id
  conditionRefErrors "entry" indicatorIds (config.entryConditions.getD []) ++
  conditionRefErrors "exit" indicatorIds (config.exitConditions.getD []) ++
  (config.indicators.getD []).flatMap (placeholderErrors (collectParameterNames config)) ++
  inputErrors runtime [] (config.indicators.getD [])

def indicatorTypes : List String :=
  (config.indicators.getD []).map fun ind => ind.type.getD ""

def conditionTypes (conditions : Option (List (ConditionConfig D))) : List String :=
  (conditions.getD []).map fun cond => cond.type.getD ""

def sameStructure (a b : StrategyConfig D) : Bool :=
  indicatorTypes a == indicatorTypes b &&
    conditionTypes a.entryConditions == conditionTypes b.entryConditions &&
    conditionTypes a.exitConditions == conditionTypes b.exitConditions

def checkNovelty (existing : Option (List (StrategyConfig D))) : Bool :=
  let name := (config.name.map runtime.toUpperCase).getD ""
  (existing.getD []).all fun ex =>
    !(ex.name.map runtime.toUpperCase == some name) && !sameStructure config ex

/-- `checkBuildable`: it looks at nothing. -/
def checkBuildable (_ : StrategyConfig D) : Bool := true

/-- `validate`; a config that could not be parsed is null. -/
def validate (config : Option (StrategyConfig D))
    (existingConfigs : Option (List (StrategyConfig D))) : ValidationReport :=
  match config with
  | none => ⟨false, false, false, false, ["Config is null (could not parse)"], []⟩
  | some config =>
    let syntaxValid := (syntaxErrors runtime config).isEmpty
    let logicValid := syntaxValid && (logicErrors runtime config).isEmpty
    let novel := checkNovelty runtime config existingConfigs
    let buildable := logicValid && checkBuildable config
    -- the logic is only looked at behind a valid syntax
    let errors := if syntaxValid then logicErrors runtime config else syntaxErrors runtime config
    ⟨syntaxValid && logicValid && novel && buildable, syntaxValid, logicValid, novel, errors, []⟩

end

section
variable {D : Type} {runtime : JavaRuntime D} {ta4j : Ta4j D} {config : StrategyConfig D}

theorem reportIf_eq_nil_iff {α : Type} {problem : Bool} {finding : α} :
    reportIf problem finding = [] ↔ problem = false := by
  cases problem <;> simp [reportIf]

theorem indicatorTypes_of_indicatorSyntaxErrors {ids : List String}
    {inds : List IndicatorConfig} (h : indicatorSyntaxErrors runtime ids inds = []) :
    ∀ ind ∈ inds, ∃ type, ind.type = some type ∧
      IndicatorRegistry.hasIndicator runtime type = true := by
  induction inds generalizing ids with
  | nil => simp
  | cons ind inds ih =>
    simp only [indicatorSyntaxErrors, List.append_eq_nil_iff] at h
    rw [List.forall_mem_cons]
    refine ⟨?_, ih h.2⟩
    have htype := h.1.2
    cases hind : ind.type with
    | none => simp [hind] at htype
    | some type =>
      rw [hind, reportIf_eq_nil_iff, Bool.not_eq_false'] at htype
      exact ⟨type, rfl, htype⟩

theorem ruleTypes_of_conditionSyntaxErrors {condType : String}
    {conditions : List (ConditionConfig D)}
    (h : conditionSyntaxErrors runtime condType conditions = []) :
    ∀ cond ∈ conditions, ∃ type, cond.type = some type ∧
      RuleRegistry.hasRule runtime type = true := by
  intro cond hmem
  have hcond := List.flatMap_eq_nil_iff.mp h cond hmem
  cases htype : cond.type with
  | none => simp [htype] at hcond
  | some type =>
    rw [htype, reportIf_eq_nil_iff, Bool.not_eq_false'] at hcond
    exact ⟨type, rfl, hcond⟩

/-- What a config of valid syntax is known to have. -/
theorem wellFormed_of_syntaxErrors (h : syntaxErrors runtime config = []) :
    WellFormed runtime config := by
  simp only [syntaxErrors, List.append_eq_nil_iff, reportIf_eq_nil_iff] at h
  obtain ⟨⟨⟨⟨⟨⟨⟨⟨-, -⟩, hentry⟩, hexit⟩, -⟩, hindicators⟩, hentryTypes⟩, hexitTypes⟩,
    hparameters⟩ := h
  constructor
  · intro param hmem hnone
    have hparam := List.flatMap_eq_nil_iff.mp hparameters param hmem
    simp only [parameterSyntaxErrors, List.append_eq_nil_iff, reportIf_eq_nil_iff] at hparam
    simp [hnone, isNullOrBlank] at hparam
  · exact indicatorTypes_of_indicatorSyntaxErrors hindicators
  · simpa using hentry
  · simpa using hexit
  · rw [allConditions, List.forall_mem_append]
    exact ⟨ruleTypes_of_conditionSyntaxErrors hentryTypes,
      ruleTypes_of_conditionSyntaxErrors hexitTypes⟩

theorem succeeds_iff_resolves_of_isValid {existingConfigs : Option (List (StrategyConfig D))}
    (h : (validate runtime (some config) existingConfigs).isValid = true) :
    Succeeds (createDefaultStrategy runtime ta4j config) ↔ Resolves runtime ta4j config := by
  have hsyntax : syntaxErrors runtime config = [] := by
    simp only [validate, Bool.and_eq_true, List.isEmpty_iff] at h
    exact h.1.1.1
  exact succeeds_createDefaultStrategy_iff (wellFormed_of_syntaxErrors hsyntax)

end

theorem resolves_averageConfig_isValid :
    (validate asciiRuntime (some (averageConfig "close")) none).isValid = true ∧
      Resolves asciiRuntime permissiveTa4j (averageConfig "close") := by
  have hvalid : (validate asciiRuntime (some (averageConfig "close")) none).isValid = true := by
    decide +kernel
  exact ⟨hvalid, (succeeds_iff_resolves_of_isValid hvalid).mp ⟨_, rfl⟩⟩

/-- An entry condition that joins others, which no config can build. -/
def joinedConfig : StrategyConfig ℚ :=
  { averageConfig "close" with entryConditions := some [⟨some "AND", none, none⟩] }

theorem not_succeeds_joinedConfig :
    (validate asciiRuntime (some joinedConfig) none).isValid = true ∧
      ¬ Succeeds (createDefaultStrategy asciiRuntime permissiveTa4j joinedConfig) := by
  refine ⟨by decide +kernel, ?_⟩
  have herror : ∃ e, createDefaultStrategy asciiRuntime permissiveTa4j joinedConfig =
      .error e := ⟨_, rfl⟩
  obtain ⟨e, he⟩ := herror
  rw [he]
  exact not_succeeds_error e

end TradeStream.Configurable.Llm
