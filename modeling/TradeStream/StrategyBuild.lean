import TradeStream.ConfigurableStrategyFactory

/-! When the factory builds a config with its default parameters: what each part of the
config has to resolve to. -/
namespace TradeStream.Configurable
open TradeStream.Fallible

section
variable {D : Type} (runtime : JavaRuntime D) (ta4j : Ta4j D) (config : StrategyConfig D)

/-- What a definition with a name puts into the default parameters. -/
def addDefault (p : ParameterValues D) (param : ParameterDefinition D) : ParameterValues D :=
  match param.name, param.defaultValue, param.type with
  | some name, some value, some .INTEGER => p.putIntValues name value.intValue
  | some name, some value, some .DOUBLE => p.putDoubleValues name value.doubleValue
  | _, _, _ => p

def defaultParameters : ParameterValues D :=
  (config.parameters.getD []).foldl addDefault .empty

/-- The parameter is defined with a default value. -/
def HasDefault (paramName : String) : Prop :=
  ∃ param ∈ config.parameters.getD [], param.name = some paramName ∧ param.defaultValue ≠ none

/-- What a placeholder stands for under the default parameters. -/
def referenceValue? (paramName : String) : Option (JavaObject D) :=
  match (defaultParameters config).intValues paramName,
    (defaultParameters config).doubleValues paramName with
  | some n, _ => some (.number (runtime.boxInteger n))
  | none, some x => some (.number (runtime.boxDouble x))
  | none, none => (config.parameters.getD []).findSome? fun param =>
      if param.name = some paramName then param.defaultValue.map .number else none

def textValue? (value : String) : Option (JavaObject D) :=
  match paramReference value with
  | some paramName => referenceValue? runtime config paramName
  | none => some (parseValue runtime value)

def objectValue? (value : JavaObject D) : Option (JavaObject D) :=
  match paramReference value.toString, value with
  | some paramName, _ => referenceValue? runtime config paramName
  | none, .number n => some (.number n)
  | none, value => some (parseValue runtime value.toString)

/-- The parameters of an indicator under the default parameters. -/
def indicatorParams (indicatorConfig : IndicatorConfig) : ResolvedParams D :=
  fun key => (valueAt indicatorConfig.params key).bind (textValue? runtime config)

/-- The parameters of a condition under the default parameters, with its indicator. -/
def conditionParams (condition : ConditionConfig D) : ResolvedParams D :=
  augment condition.indicator fun key =>
    (valueAt condition.params key).bind (objectValue? runtime config)

/-- The key of the base input that the text stands for. -/
def baseInput? (input : Option String) : Option String :=
  match input with
  | none => some "close"
  | some text =>
    if text = "" ∨ runtime.equalsIgnoreCase text "close" then some "close"
    else (baseInputs.find? fun base => runtime.equalsIgnoreCase text base.1).map Prod.fst

/-- The ids under which there is an indicator once those before are built: close, theirs,
and the base inputs that they use. -/
def builtIds (before : List IndicatorConfig) : List String :=
  "close" :: before.flatMap fun indicatorConfig =>
    (baseInput? runtime indicatorConfig.input).toList ++ indicatorConfig.id.toList

/-- The input is a base input or an indicator built before. -/
def InputResolves (built : List String) (input : Option String) : Prop :=
  baseInput? runtime input ≠ none ∨ ∃ text, input = some text ∧ text ∈ built

def allIndicators : List IndicatorConfig := config.indicators.getD []

def allConditions : List (ConditionConfig D) :=
  config.entryConditions.getD [] ++ config.exitConditions.getD []

/-- What both validators see to: names of parameters, types of indicators and rules that
are registered, and a condition on either side. -/
structure WellFormed : Prop where
  named : ∀ param ∈ config.parameters.getD [], param.name ≠ none
  indicatorTypes : ∀ indicatorConfig ∈ allIndicators config,
    ∃ type, indicatorConfig.type = some type ∧
      IndicatorRegistry.hasIndicator runtime type = true
  entryConditions : config.entryConditions.getD [] ≠ []
  exitConditions : config.exitConditions.getD [] ≠ []
  ruleTypes : ∀ condition ∈ allConditions config,
    ∃ type, condition.type = some type ∧ RuleRegistry.hasRule runtime type = true

/-- What the builder needs beyond. -/
structure Resolves : Prop where
  inputs : ∀ before indicatorConfig after,
    allIndicators config = before ++ indicatorConfig :: after →
      InputResolves runtime (builtIds runtime before) indicatorConfig.input
  indicatorPlaceholders : ∀ indicatorConfig ∈ allIndicators config, ∀ key value paramName,
    valueAt indicatorConfig.params key = some value → paramReference value = some paramName →
      HasDefault config paramName
  indicatorParams : ∀ indicatorConfig ∈ allIndicators config, ∀ type factory,
    indicatorConfig.type = some type → IndicatorRegistry.get runtime type = some factory →
      factory.Accepted runtime ta4j (indicatorParams runtime config indicatorConfig)
  conditionPlaceholders : ∀ condition ∈ allConditions config, ∀ key value paramName,
    valueAt condition.params key = some value →
      paramReference value.toString = some paramName → HasDefault config paramName
  rules : ∀ condition ∈ allConditions config, ∀ type factory,
    condition.type = some type → RuleRegistry.get runtime type = some factory →
      factory.Accepted runtime ta4j (conditionParams runtime config condition)
        (builtIds runtime (allIndicators config))

end

section
variable {D : Type} {runtime : JavaRuntime D} {ta4j : Ta4j D} {config : StrategyConfig D}

theorem getDefaultParameters_eq
    (hnamed : ∀ param ∈ config.parameters.getD [], param.name ≠ none) :
    getDefaultParameters config = .ok (defaultParameters config) := by
  unfold getDefaultParameters defaultParameters
  generalize ParameterValues.empty = p
  generalize config.parameters.getD [] = params at hnamed
  induction params generalizing p with
  | nil => rfl
  | cons param params ih =>
    rw [List.forall_mem_cons] at hnamed
    obtain ⟨name, hname⟩ := Option.ne_none_iff_exists'.mp hnamed.1
    have hput : putDefault p param = .ok (addDefault p param) := by
      unfold putDefault addDefault
      rw [hname]
      cases param.defaultValue with
      | none => cases param.type <;> rfl
      | some value =>
        cases param.type with
        | none => rfl
        | some type => cases type <;> rfl
    rw [List.foldlM_cons, hput, List.foldl_cons]
    exact ih (addDefault p param) hnamed.2

theorem addDefault_of_other {paramName : String} {param : ParameterDefinition D}
    (h : ¬ (param.name = some paramName ∧ param.defaultValue ≠ none)) (p : ParameterValues D) :
    (addDefault p param).intValues paramName = p.intValues paramName ∧
      (addDefault p param).doubleValues paramName = p.doubleValues paramName := by
  have hother {name : String} {value : JavaNumber D} (hname : param.name = some name)
      (hvalue : param.defaultValue = some value) : paramName ≠ name := by
    rintro rfl
    exact h ⟨hname, by rw [hvalue]; exact Option.some_ne_none value⟩
  unfold addDefault
  split
  next name value hname hvalue _ =>
    exact ⟨Function.update_of_ne (hother hname hvalue) _ _, rfl⟩
  next name value hname hvalue _ =>
    exact ⟨rfl, Function.update_of_ne (hother hname hvalue) _ _⟩
  next => exact ⟨rfl, rfl⟩

theorem exists_default_of_foldl {paramName : String} {params : List (ParameterDefinition D)}
    {p : ParameterValues D}
    (h : (params.foldl addDefault p).intValues paramName ≠ none ∨
      (params.foldl addDefault p).doubleValues paramName ≠ none) :
    (p.intValues paramName ≠ none ∨ p.doubleValues paramName ≠ none) ∨
      ∃ param ∈ params, param.name = some paramName ∧ param.defaultValue ≠ none := by
  induction params generalizing p with
  | nil => exact .inl h
  | cons param params ih =>
    rcases ih h with hp | ⟨param', hmem, hparam'⟩
    · by_cases hhere : param.name = some paramName ∧ param.defaultValue ≠ none
      · exact .inr ⟨param, List.mem_cons_self, hhere⟩
      · obtain ⟨hint, hdouble⟩ := addDefault_of_other hhere p
        rw [hint, hdouble] at hp
        exact .inl hp
    · exact .inr ⟨param', List.mem_cons_of_mem param hmem, hparam'⟩

/-- Whatever a name stands for in the default parameters was given as a default. -/
theorem hasDefault_of_defaultParameters {paramName : String}
    (h : (defaultParameters config).intValues paramName ≠ none ∨
      (defaultParameters config).doubleValues paramName ≠ none) :
    HasDefault config paramName := by
  rcases exists_default_of_foldl h with hempty | hparam
  · simp [ParameterValues.empty] at hempty
  · exact hparam

theorem configDefault_eq_ok_iff {params : List (ParameterDefinition D)}
    (hnamed : ∀ param ∈ params, param.name ≠ none) {paramName : String} {v : JavaObject D} :
    configDefault paramName params = .ok v ↔
      (params.findSome? fun param =>
        if param.name = some paramName then param.defaultValue.map .number else none) =
        some v := by
  induction params with
  | nil => simp [configDefault]
  | cons param params ih =>
    rw [List.forall_mem_cons] at hnamed
    obtain ⟨name, hname⟩ := Option.ne_none_iff_exists'.mp hnamed.1
    rw [List.findSome?_cons]
    simp only [configDefault, hname, Option.some.injEq]
    cases hvalue : param.defaultValue with
    | none => simpa using ih hnamed.2
    | some value =>
      by_cases hsame : name = paramName
      · simp [hsame]
      · simpa [hsame] using ih hnamed.2

theorem resolveParameterReference_eq_ok_iff
    (hnamed : ∀ param ∈ config.parameters.getD [], param.name ≠ none) {paramName : String}
    {v : JavaObject D} :
    resolveParameterReference runtime config (defaultParameters config) paramName = .ok v ↔
      referenceValue? runtime config paramName = some v := by
  unfold resolveParameterReference referenceValue?
  split <;> simp_all [configDefault_eq_ok_iff hnamed]

theorem referenceValue?_ne_none_iff {paramName : String} :
    referenceValue? runtime config paramName ≠ none ↔ HasDefault config paramName := by
  constructor
  · intro h
    unfold referenceValue? at h
    split at h
    next hint => exact hasDefault_of_defaultParameters (.inl (by simp [hint]))
    next hdouble => exact hasDefault_of_defaultParameters (.inr (by simp [hdouble]))
    next =>
      obtain ⟨v, hv⟩ := Option.ne_none_iff_exists'.mp h
      obtain ⟨param, hmem, hparam⟩ := List.exists_of_findSome?_eq_some hv
      refine ⟨param, hmem, ?_⟩
      split at hparam
      next hname =>
        obtain ⟨value, hvalue, -⟩ := Option.map_eq_some_iff.mp hparam
        exact ⟨hname, by rw [hvalue]; exact Option.some_ne_none value⟩
      next => cases hparam
  · rintro ⟨param, hmem, hname, hvalue⟩
    unfold referenceValue?
    split
    next => exact Option.some_ne_none _
    next => exact Option.some_ne_none _
    next =>
      intro hnone
      rw [List.findSome?_eq_none_iff] at hnone
      have hparam := hnone param hmem
      rw [if_pos hname, Option.map_eq_none_iff] at hparam
      exact hvalue hparam

theorem resolveText_eq_ok_iff
    (hnamed : ∀ param ∈ config.parameters.getD [], param.name ≠ none) (value : String)
    (w : JavaObject D) :
    resolveText runtime config (defaultParameters config) value = .ok w ↔
      textValue? runtime config value = some w := by
  unfold resolveText textValue?
  cases paramReference value with
  | none => simp
  | some paramName => exact resolveParameterReference_eq_ok_iff hnamed

theorem textValue?_ne_none_iff {value : String} :
    textValue? runtime config value ≠ none ↔
      ∀ paramName, paramReference value = some paramName → HasDefault config paramName := by
  unfold textValue?
  cases paramReference value with
  | none => simp
  | some paramName => simp [referenceValue?_ne_none_iff]

theorem resolveObject_eq_ok_iff
    (hnamed : ∀ param ∈ config.parameters.getD [], param.name ≠ none) (value : JavaObject D)
    (w : JavaObject D) :
    resolveObject runtime config (defaultParameters config) value = .ok w ↔
      objectValue? runtime config value = some w := by
  unfold resolveObject objectValue?
  cases paramReference value.toString with
  | none => cases value <;> simp
  | some paramName => exact resolveParameterReference_eq_ok_iff hnamed

theorem objectValue?_ne_none_iff {value : JavaObject D} :
    objectValue? runtime config value ≠ none ↔
      ∀ paramName, paramReference value.toString = some paramName →
        HasDefault config paramName := by
  unfold objectValue?
  cases paramReference value.toString with
  | none => cases value <;> simp
  | some paramName => simp [referenceValue?_ne_none_iff]

theorem IndicatorMap.HasIds.update {indicators : IndicatorMap D} {built : List String}
    (h : indicators.HasIds built) (id : Option String) (indicator : Ta4jObject D) :
    IndicatorMap.HasIds (Function.update indicators id (some indicator))
      (built ++ id.toList) := by
  intro id'
  rw [List.mem_append, ← h id']
  by_cases hid : some id' = id
  · subst hid
    simp
  · rw [Function.update_of_ne hid]
    have hmem : id' ∉ id.toList := by
      rw [Option.mem_toList]
      exact fun hid' => hid hid'.symm
    simp [hmem]

/-- An id that is there already makes no difference. -/
theorem IndicatorMap.HasIds.append_of_mem {indicators : IndicatorMap D} {built : List String}
    (h : indicators.HasIds built) {id : String} (hmem : id ∈ built) :
    indicators.HasIds (built ++ [id]) := by
  intro id'
  rw [h id', List.mem_append, List.mem_singleton]
  constructor
  · exact .inl
  · rintro (hid | rfl)
    · exact hid
    · exact hmem

theorem succeeds_computeIfAbsent {indicators : IndicatorMap D} {key : String}
    {create : Except BuildError (Ta4jObject D)} (h : Succeeds create) :
    Succeeds (computeIfAbsent indicators key create) := by
  unfold computeIfAbsent
  cases indicators (some key) with
  | some indicator => simp
  | none => exact succeeds_bind_pure_iff.mpr h

theorem IndicatorMap.HasIds.computeIfAbsent {indicators indicators' : IndicatorMap D}
    {built : List String} (h : indicators.HasIds built) {key : String}
    {create : Except BuildError (Ta4jObject D)} {indicator : Ta4jObject D}
    (hcompute : computeIfAbsent indicators key create = .ok (indicator, indicators')) :
    indicators'.HasIds (built ++ [key]) := by
  unfold Configurable.computeIfAbsent at hcompute
  cases hkey : indicators (some key) with
  | some present =>
    rw [hkey] at hcompute
    cases hcompute
    exact h.append_of_mem ((h key).mp (by rw [hkey]; exact Option.some_ne_none _))
  | none =>
    rw [hkey] at hcompute
    simp only [bind_eq_ok_iff] at hcompute
    obtain ⟨made, -, hcompute⟩ := hcompute
    cases hcompute
    exact h.update (some key) indicator

theorem succeeds_closePrice (ta4j : Ta4j D) : Succeeds (closePrice ta4j) :=
  ta4j.succeeds_construct_objects [.series]

/-- The types of the base inputs are registered under their own names. -/
theorem succeeds_create_of_mem_baseInputs (runtime : JavaRuntime D) (ta4j : Ta4j D)
    {base : String × String} (h : base ∈ baseInputs) :
    Succeeds (IndicatorRegistry.create runtime ta4j base.2 .null fun _ => none) := by
  rw [IndicatorRegistry.succeeds_create_iff]
  simp only [baseInputs, List.mem_cons, List.not_mem_nil, or_false] at h
  rcases h with rfl | rfl | rfl | rfl
  · exact IndicatorRegistry.accepted_of_plain runtime ta4j
      (runtime.toUpperCase_of_upper "HIGH" (by simp)) rfl _
  · exact IndicatorRegistry.accepted_of_plain runtime ta4j
      (runtime.toUpperCase_of_upper "LOW" (by simp)) rfl _
  · exact IndicatorRegistry.accepted_of_plain runtime ta4j
      (runtime.toUpperCase_of_upper "OPEN" (by simp)) rfl _
  · exact IndicatorRegistry.accepted_of_plain runtime ta4j
      (runtime.toUpperCase_of_upper "VOLUME" (by simp)) rfl _

/-- What `resolveInput` does: it finds a base input, at most building it, or an indicator
built before, or nothing. -/
theorem resolveInput_cases (runtime : JavaRuntime D) (ta4j : Ta4j D) (input : Option String)
    (indicators : IndicatorMap D) :
    (∃ key create, baseInput? runtime input = some key ∧ Succeeds create ∧
      resolveInput runtime ta4j input indicators = computeIfAbsent indicators key create) ∨
    (∃ text indicator, baseInput? runtime input = none ∧ input = some text ∧
      indicators (some text) = some indicator ∧
      resolveInput runtime ta4j input indicators = .ok (indicator, indicators)) ∨
    (∃ text e, baseInput? runtime input = none ∧ input = some text ∧
      indicators (some text) = none ∧ resolveInput runtime ta4j input indicators = .error e) := by
  cases input with
  -- no input stands for the close, like the empty text and any spelling of "close"
  | none => exact .inl ⟨"close", _, rfl, succeeds_closePrice ta4j, rfl⟩
  | some text =>
    by_cases hclose : text = "" ∨ runtime.equalsIgnoreCase text "close" = true
    · refine .inl ⟨"close", closePrice ta4j, ?_, succeeds_closePrice ta4j, ?_⟩
      · rw [baseInput?, if_pos hclose]
      · rw [resolveInput, if_pos hclose]
    · cases hbase : baseInputs.find? fun base => runtime.equalsIgnoreCase text base.1 with
      | some base =>
        have hcreate := succeeds_create_of_mem_baseInputs runtime ta4j
          (List.mem_of_find?_eq_some hbase)
        refine .inl ⟨base.1, _, ?_, hcreate, ?_⟩
        · rw [baseInput?, if_neg hclose, hbase, Option.map_some]
        · rw [resolveInput, if_neg hclose, hbase]
      | none =>
        have hnone : baseInput? runtime (some text) = none := by
          rw [baseInput?, if_neg hclose, hbase, Option.map_none]
        cases hid : indicators (some text) with
        | some indicator =>
          refine .inr (.inl ⟨text, indicator, hnone, rfl, hid, ?_⟩)
          rw [resolveInput, if_neg hclose, hbase, hid]
        | none =>
          have herror : ∃ e, resolveInput runtime ta4j (some text) indicators = .error e := by
            rw [resolveInput, if_neg hclose, hbase, hid]
            exact ⟨_, rfl⟩
          obtain ⟨e, he⟩ := herror
          exact .inr (.inr ⟨text, e, hnone, rfl, hid, he⟩)

theorem succeeds_resolveInput_iff (ta4j : Ta4j D) {input : Option String}
    {indicators : IndicatorMap D} {built : List String} (h : indicators.HasIds built) :
    Succeeds (resolveInput runtime ta4j input indicators) ↔
      InputResolves runtime built input := by
  unfold InputResolves
  rcases resolveInput_cases runtime ta4j input indicators with
    ⟨key, create, hkey, hcreate, heq⟩ | ⟨text, indicator, hnone, rfl, hid, heq⟩ |
    ⟨text, e, hnone, rfl, hid, heq⟩
  · rw [heq]
    simp [hkey, succeeds_computeIfAbsent hcreate]
  · have hmem := (h text).mp (by rw [hid]; exact Option.some_ne_none _)
    rw [heq]
    simp [hmem]
  · have hmem : text ∉ built := by
      rw [← h text, hid]
      simp
    rw [heq]
    simp [hnone, hmem]

theorem IndicatorMap.HasIds.resolveInput {input : Option String}
    {indicators indicators' : IndicatorMap D} {built : List String}
    (h : indicators.HasIds built) {indicator : Ta4jObject D}
    (hresolve : resolveInput runtime ta4j input indicators = .ok (indicator, indicators')) :
    indicators'.HasIds (built ++ (baseInput? runtime input).toList) := by
  rcases resolveInput_cases runtime ta4j input indicators with
    ⟨key, create, hkey, -, heq⟩ | ⟨text, found, hnone, -, -, heq⟩ |
    ⟨text, e, -, -, -, heq⟩
  · rw [heq] at hresolve
    rw [hkey]
    exact h.computeIfAbsent hresolve
  · rw [heq] at hresolve
    cases hresolve
    rw [hnone, Option.toList_none, List.append_nil]
    exact h
  · rw [heq] at hresolve
    cases hresolve

/-- The indicator resolves behind those before it. -/
def IndicatorResolves (runtime : JavaRuntime D) (ta4j : Ta4j D) (config : StrategyConfig D)
    (before : List IndicatorConfig) (indicatorConfig : IndicatorConfig) : Prop :=
  InputResolves runtime (builtIds runtime before) indicatorConfig.input ∧
    (∀ key value paramName, valueAt indicatorConfig.params key = some value →
      paramReference value = some paramName → HasDefault config paramName) ∧
    ∃ type, indicatorConfig.type = some type ∧
      IndicatorRegistry.Accepted runtime ta4j type
        (indicatorParams runtime config indicatorConfig)

def ConditionResolves (runtime : JavaRuntime D) (ta4j : Ta4j D) (config : StrategyConfig D)
    (built : List String) (condition : ConditionConfig D) : Prop :=
  (∀ key value paramName, valueAt condition.params key = some value →
      paramReference value.toString = some paramName → HasDefault config paramName) ∧
    ∃ type, condition.type = some type ∧
      RuleRegistry.Accepted runtime ta4j type built (conditionParams runtime config condition)

/-- The invariant of the loop over the indicators: the map has those built so far. -/
def HasIdsOf (runtime : JavaRuntime D) (before : List IndicatorConfig)
    (indicators : IndicatorMap D) : Prop :=
  indicators.HasIds (builtIds runtime before)

theorem hasIds_buildIndicator (before : List IndicatorConfig) (indicatorConfig : IndicatorConfig)
    (indicators indicators' : IndicatorMap D) (h : HasIdsOf runtime before indicators)
    (hbuild : buildIndicator runtime ta4j config (defaultParameters config) indicators
      indicatorConfig = .ok indicators') :
    HasIdsOf runtime (before ++ [indicatorConfig]) indicators' := by
  simp only [buildIndicator, bind_eq_ok_iff] at hbuild
  obtain ⟨⟨input, indicators₁⟩, hinput, resolvedParams, -, hbuild⟩ := hbuild
  cases htype : indicatorConfig.type with
  | none =>
    rw [htype] at hbuild
    cases hbuild
  | some type =>
    simp only [htype, bind_eq_ok_iff] at hbuild
    obtain ⟨indicator, -, hbuild⟩ := hbuild
    cases hbuild
    have hids := (IndicatorMap.HasIds.resolveInput h hinput).update indicatorConfig.id indicator
    have hbuilt : builtIds runtime (before ++ [indicatorConfig]) = builtIds runtime before ++
        (baseInput? runtime indicatorConfig.input).toList ++ indicatorConfig.id.toList := by
      simp [builtIds]
    rw [HasIdsOf, hbuilt]
    exact hids

theorem hasIds_close (close : Ta4jObject D) :
    HasIdsOf runtime [] (Function.update (fun _ => none) (some "close") (some close)) := by
  intro id
  by_cases hid : id = "close"
  · simp [hid, builtIds]
  · simp [hid, builtIds]

theorem hasIds_buildIndicators {indicators : IndicatorMap D}
    (hbuild : buildIndicators runtime ta4j config (defaultParameters config) = .ok indicators) :
    indicators.HasIds (builtIds runtime (allIndicators config)) := by
  rw [buildIndicators, bind_eq_ok_iff] at hbuild
  obtain ⟨close, -, hbuild⟩ := hbuild
  exact foldlM_invariant hasIds_buildIndicator (hasIds_close close) hbuild

section
variable (hnamed : ∀ param ∈ config.parameters.getD [], param.name ≠ none)
include hnamed

theorem succeeds_buildIndicator_iff {before : List IndicatorConfig}
    {indicators : IndicatorMap D} (h : indicators.HasIds (builtIds runtime before))
    (indicatorConfig : IndicatorConfig) :
    Succeeds (buildIndicator runtime ta4j config (defaultParameters config) indicators
      indicatorConfig) ↔ IndicatorResolves runtime ta4j config before indicatorConfig := by
  have hplaceholders : Succeeds (resolveEntries
      (resolveText runtime config (defaultParameters config)) indicatorConfig.params) ↔
      ∀ key value paramName, valueAt indicatorConfig.params key = some value →
        paramReference value = some paramName → HasDefault config paramName := by
    rw [succeeds_resolveEntries_iff (resolveText_eq_ok_iff hnamed)]
    simp only [textValue?_ne_none_iff]
    exact ⟨fun hall key value paramName hv hp => hall key value hv paramName hp,
      fun hall key value hv paramName hp => hall key value paramName hv hp⟩
  rw [buildIndicator, IndicatorResolves, ← succeeds_resolveInput_iff ta4j h,
    ← hplaceholders]
  apply succeeds_bind_iff_and
  rintro ⟨input, indicators'⟩ _
  apply succeeds_bind_iff_and
  intro resolvedParams hresolved
  have hparams : resolvedParams = indicatorParams runtime config indicatorConfig :=
    resolveEntries_eq_ok (resolveText_eq_ok_iff hnamed) hresolved
  cases htype : indicatorConfig.type with
  | none => simp
  | some type =>
    simp only [succeeds_bind_pure_iff, IndicatorRegistry.succeeds_create_iff, hparams]
    simp

/-- The loop over the indicators: `HasIds` is what holds of the map at every round. -/
theorem succeeds_buildIndicators_iff :
    Succeeds (buildIndicators runtime ta4j config (defaultParameters config)) ↔
      ∀ before indicatorConfig after,
        allIndicators config = before ++ indicatorConfig :: after →
          IndicatorResolves runtime ta4j config before indicatorConfig := by
  obtain ⟨close, hclose⟩ := succeeds_closePrice ta4j
  rw [buildIndicators, hclose]
  have hok : ∀ before a indicators, HasIdsOf runtime before indicators →
      (Succeeds (buildIndicator runtime ta4j config (defaultParameters config) indicators a) ↔
        IndicatorResolves runtime ta4j config before a) :=
    fun before a indicators h => succeeds_buildIndicator_iff hnamed h a
  exact succeeds_foldlM_iff hok hasIds_buildIndicator [] (hasIds_close close)

theorem succeeds_addCondition_iff {built : List String} {indicators : IndicatorMap D}
    (h : indicators.HasIds built) (combinedRule : Option (Ta4jObject D))
    (condition : ConditionConfig D) :
    Succeeds (addCondition runtime ta4j config (defaultParameters config) indicators
      combinedRule condition) ↔ ConditionResolves runtime ta4j config built condition := by
  have hplaceholders : Succeeds (resolveEntries
      (resolveObject runtime config (defaultParameters config)) condition.params) ↔
      ∀ key value paramName, valueAt condition.params key = some value →
        paramReference value.toString = some paramName → HasDefault config paramName := by
    rw [succeeds_resolveEntries_iff (resolveObject_eq_ok_iff hnamed)]
    simp only [objectValue?_ne_none_iff]
    exact ⟨fun hall key value paramName hv hp => hall key value hv paramName hp,
      fun hall key value hv paramName hp => hall key value paramName hv hp⟩
  rw [addCondition, ConditionResolves, ← hplaceholders]
  apply succeeds_bind_iff_and
  intro resolvedParams hresolved
  have hparams : augment condition.indicator resolvedParams =
      conditionParams runtime config condition := by
    rw [conditionParams, resolveEntries_eq_ok (resolveObject_eq_ok_iff hnamed) hresolved]
  cases htype : condition.type with
  | none => simp
  | some type =>
    cases combinedRule with
    | none =>
      simp only [succeeds_bind_pure_iff, RuleRegistry.succeeds_create_iff runtime ta4j h, hparams]
      simp
    | some combined =>
      simp only [succeeds_bind_pure_iff, RuleRegistry.succeeds_create_iff runtime ta4j h, hparams]
      simp

theorem succeeds_buildRule_iff {built : List String} {indicators : IndicatorMap D}
    (h : indicators.HasIds built) {conditions : Option (List (ConditionConfig D))}
    (hne : conditions.getD [] ≠ []) :
    Succeeds (buildRule runtime ta4j config (defaultParameters config) indicators conditions) ↔
      ∀ condition ∈ conditions.getD [],
        ConditionResolves runtime ta4j config built condition := by
  cases conditions with
  | none => exact absurd rfl hne
  | some conditions =>
    cases conditions with
    | nil => exact absurd rfl hne
    | cons condition conditions =>
      simp only [buildRule, succeeds_bind_pure_iff]
      exact succeeds_foldlM_iff_forall_mem
        (fun combinedRule a => succeeds_addCondition_iff hnamed h combinedRule a)
        (condition :: conditions) none

end

/-- The build succeeds if each indicator and each condition resolves where its turn comes. -/
theorem succeeds_createDefaultStrategy_iff_each (h : WellFormed runtime config) :
    Succeeds (createDefaultStrategy runtime ta4j config) ↔
      (∀ before indicatorConfig after,
        allIndicators config = before ++ indicatorConfig :: after →
          IndicatorResolves runtime ta4j config before indicatorConfig) ∧
      ∀ condition ∈ allConditions config, ConditionResolves runtime ta4j config
        (builtIds runtime (allIndicators config)) condition := by
  rw [createDefaultStrategy, getDefaultParameters_eq h.named,
    ← succeeds_buildIndicators_iff h.named]
  show Succeeds (createStrategy runtime ta4j config (defaultParameters config)) ↔ _
  rw [createStrategy]
  apply succeeds_bind_iff_and
  intro indicators hbuild
  have hids := hasIds_buildIndicators hbuild
  rw [allConditions, List.forall_mem_append, ← succeeds_buildRule_iff h.named hids
    h.entryConditions, ← succeeds_buildRule_iff h.named hids h.exitConditions]
  apply succeeds_bind_iff_and
  intro entryRule _
  rw [succeeds_bind_pure_iff]

theorem resolves_of_each
    (hindicators : ∀ before indicatorConfig after,
      allIndicators config = before ++ indicatorConfig :: after →
        IndicatorResolves runtime ta4j config before indicatorConfig)
    (hconditions : ∀ condition ∈ allConditions config, ConditionResolves runtime ta4j config
      (builtIds runtime (allIndicators config)) condition) :
    Resolves runtime ta4j config := by
  have hmem (indicatorConfig) (hmem : indicatorConfig ∈ allIndicators config) :
      ∃ before, IndicatorResolves runtime ta4j config before indicatorConfig := by
    obtain ⟨before, after, heq⟩ := List.append_of_mem hmem
    exact ⟨before, hindicators before indicatorConfig after heq⟩
  constructor
  · exact fun before indicatorConfig after heq =>
      (hindicators before indicatorConfig after heq).1
  · intro indicatorConfig hin
    obtain ⟨before, -, hplaceholders, -⟩ := hmem indicatorConfig hin
    exact hplaceholders
  · intro indicatorConfig hin type factory htype hget
    obtain ⟨before, -, -, type', htype', factory', hget', haccepted⟩ :=
      hmem indicatorConfig hin
    cases htype.symm.trans htype'
    cases hget.symm.trans hget'
    exact haccepted
  · exact fun condition hin => (hconditions condition hin).1
  · intro condition hin type factory htype hget
    obtain ⟨-, type', htype', factory', hget', haccepted⟩ := hconditions condition hin
    cases htype.symm.trans htype'
    cases hget.symm.trans hget'
    exact haccepted

/-- The factory builds a well-formed config with its default parameters just when all in
it resolves. -/
theorem succeeds_createDefaultStrategy_iff (h : WellFormed runtime config) :
    Succeeds (createDefaultStrategy runtime ta4j config) ↔ Resolves runtime ta4j config := by
  rw [succeeds_createDefaultStrategy_iff_each h]
  constructor
  · rintro ⟨hindicators, hconditions⟩
    exact resolves_of_each hindicators hconditions
  · intro hresolves
    -- a well-formed config names a type that the registry knows
    constructor
    · intro before indicatorConfig after heq
      have hin : indicatorConfig ∈ allIndicators config := by
        rw [heq]
        exact List.mem_append_right before List.mem_cons_self
      obtain ⟨type, htype, hhas⟩ := h.indicatorTypes indicatorConfig hin
      obtain ⟨factory, hget⟩ := Option.isSome_iff_exists.mp hhas
      exact ⟨hresolves.inputs before indicatorConfig after heq,
        hresolves.indicatorPlaceholders indicatorConfig hin, type, htype, factory, hget,
        hresolves.indicatorParams indicatorConfig hin type factory htype hget⟩
    · intro condition hin
      obtain ⟨type, htype, hhas⟩ := h.ruleTypes condition hin
      obtain ⟨factory, hget⟩ := Option.isSome_iff_exists.mp hhas
      exact ⟨hresolves.conditionPlaceholders condition hin, type, htype, factory, hget,
        hresolves.rules condition hin type factory htype hget⟩

end

end TradeStream.Configurable
