import TradeStream.RuleRegistry

/-! `ConfigurableStrategyFactory`: from a config to a strategy of ta4j. The order in
which Java walks the entries of a map is that of the list here; it only decides which of
several exceptions is thrown. -/
namespace TradeStream.Configurable
open TradeStream.Fallible

/-- The group of a text that the pattern of a `${name}` placeholder matches whole. -/
def paramReference (text : String) : Option String :=
  match text.toList with
  | '$' :: '\x7b' :: rest =>
    match rest.span (· ≠ '\x7d') with
    | (c :: name, ['\x7d']) => some (String.ofList (c :: name))
    | _ => none
  | _ => none

/-- A strategy of ta4j, with its rules by the calls that made them. -/
structure Strategy (D : Type) where
  name : Option String
  entryRule : Ta4jObject D
  exitRule : Ta4jObject D
  unstablePeriod : Int32

/-- What an entry of a map adds to the parameters resolved so far. -/
def resolveEntry {D V : Type} (resolve : V → Except BuildError (JavaObject D))
    (resolved : ResolvedParams D) (entry : Σ _ : String, Option V) :
    Except BuildError (ResolvedParams D) :=
  match entry.2 with
  | none => .ok resolved
  | some value => do
    let v ← resolve value
    return Function.update resolved entry.1 (some v)

/-- The entries of a map, each with its value resolved. Null values are left out. -/
def resolveEntries {D V : Type} (resolve : V → Except BuildError (JavaObject D))
    (params : Option (AList fun _ : String => Option V)) :
    Except BuildError (ResolvedParams D) :=
  match params with
  | none => .ok fun _ => none
  | some params => params.entries.foldlM (resolveEntry resolve) fun _ => none

/-- The non-null value under a key. -/
def valueAt {V : Type} (params : Option (AList fun _ : String => Option V)) (key : String) :
    Option V :=
  params.bind fun params => (params.lookup key).join

section
variable {D V : Type} {resolve : V → Except BuildError (JavaObject D)}
  {value? : V → Option (JavaObject D)}

/-- The loop over the entries of a map, when `value?` tells what each value resolves to. -/
theorem resolveEntries_eq_ok (hvalue : ∀ v w, resolve v = .ok w ↔ value? v = some w)
    {params : Option (AList fun _ : String => Option V)} {resolved : ResolvedParams D}
    (h : resolveEntries resolve params = .ok resolved) :
    resolved = fun key => (valueAt params key).bind value? := by
  cases params with
  | none =>
    cases h
    rfl
  | some params =>
    -- the state past some entries holds what they resolve to; no key comes twice
    let Inv (before : List (Σ _ : String, Option V)) (r : ResolvedParams D) : Prop :=
      before.NodupKeys → r = fun key => (before.dlookup key).join.bind value?
    have hstep : ∀ before a s s', Inv before s → resolveEntry resolve s a = .ok s' →
        Inv (before ++ [a]) s' := by
      intro before a s s' hs hs' hnodup
      have hbefore := hs (hnodup.sublist (List.sublist_append_left before [a]))
      have hnew : before.dlookup a.1 = none := by
        rw [List.dlookup_eq_none]
        intro hmem
        rw [List.NodupKeys, List.keys_append, List.nodup_append] at hnodup
        exact hnodup.2.2 a.1 hmem a.1 (by simp) rfl
      funext key
      rw [List.dlookup_append]
      by_cases hkey : key = a.1
      · subst hkey
        obtain ⟨k, v⟩ := a
        rw [hnew, Option.none_or, List.dlookup_cons_eq]
        cases v with
        | none =>
          cases hs'
          rw [hbefore]
          simp only [hnew]
          rfl
        | some v =>
          simp only [resolveEntry, bind_eq_ok_iff] at hs'
          obtain ⟨w, hw, hs'⟩ := hs'
          cases hs'
          rw [hvalue] at hw
          simp [hw]
      · have hother : ([a] : List (Σ _ : String, Option V)).dlookup key = none := by
          rw [List.dlookup_cons_ne _ _ hkey, List.dlookup_nil]
        rw [hother, Option.or_none]
        obtain ⟨k, v⟩ := a
        cases v with
        | none =>
          cases hs'
          rw [hbefore]
        | some v =>
          simp only [resolveEntry, bind_eq_ok_iff] at hs'
          obtain ⟨w, -, hs'⟩ := hs'
          cases hs'
          rw [Function.update_of_ne hkey, hbefore]
    have hstart : Inv [] (fun _ => none) := fun _ => rfl
    have hend := foldlM_invariant hstep hstart h
    exact hend params.nodupKeys

theorem succeeds_resolveEntries_iff (hvalue : ∀ v w, resolve v = .ok w ↔ value? v = some w)
    {params : Option (AList fun _ : String => Option V)} :
    Succeeds (resolveEntries resolve params) ↔
      ∀ key v, valueAt params key = some v → value? v ≠ none := by
  cases params with
  | none => simp [resolveEntries, valueAt]
  | some params =>
    have hok (s : ResolvedParams D) (a : Σ _ : String, Option V) :
        Succeeds (resolveEntry resolve s a) ↔ ∀ v, a.2 = some v → value? v ≠ none := by
      obtain ⟨k, v⟩ := a
      cases v with
      | none => simp [resolveEntry]
      | some v =>
        rw [resolveEntry, succeeds_bind_pure_iff]
        simp only [Option.some.injEq, forall_eq']
        rw [Option.ne_none_iff_exists']
        exact exists_congr fun w => hvalue v w
    -- an entry whose value is null is left out, and always succeeds
    rw [resolveEntries, succeeds_foldlM_iff_forall_mem hok]
    constructor
    · intro hall key v hv
      have hmem : (⟨key, some v⟩ : Σ _ : String, Option V) ∈ params.entries := by
        rw [← AList.mem_lookup_iff]
        exact Option.join_eq_some_iff.mp hv
      exact hall _ hmem v rfl
    · intro hall a hmem v hv
      obtain ⟨k, v'⟩ := a
      obtain rfl : v' = some v := hv
      rw [← AList.mem_lookup_iff] at hmem
      exact hall k v (Option.join_eq_some_iff.mpr hmem)

end

section
variable {D : Type} (runtime : JavaRuntime D) (ta4j : Ta4j D) (config : StrategyConfig D)

/-- One round of the loop of `getDefaultParameters`. -/
def putDefault (p : ParameterValues D) (param : ParameterDefinition D) :
    Except BuildError (ParameterValues D) :=
  match param.defaultValue, param.type with
  | some value, some .INTEGER =>
    match param.name with
    | some name => .ok (p.putIntValues name value.intValue)
    | none => .error .nullPointer
  | some value, some .DOUBLE =>
    match param.name with
    | some name => .ok (p.putDoubleValues name value.doubleValue)
    | none => .error .nullPointer
  | _, _ => .ok p

def getDefaultParameters : Except BuildError (ParameterValues D) :=
  (config.parameters.getD []).foldlM putDefault .empty

def parseValue (value : String) : JavaObject D :=
  match runtime.parseInt value with
  | some n => .number (runtime.boxInteger n)
  | none =>
    match runtime.parseDouble value with
    | some x => .number (runtime.boxDouble x)
    | none => .string value

/-- The loop of `resolveParameterReference` over the parameter definitions. -/
def configDefault (paramName : String) :
    List (ParameterDefinition D) → Except BuildError (JavaObject D)
  | [] => .error (.illegalArgument ("Unknown parameter: " ++ paramName))
  | param :: params =>
    match param.name, param.defaultValue with
    | none, _ => .error .nullPointer
    | some name, some value =>
      if name = paramName then .ok (.number value) else configDefault paramName params
    | some _, none => configDefault paramName params

def resolveParameterReference (p : ParameterValues D) (paramName : String) :
    Except BuildError (JavaObject D) :=
  match p.intValues paramName, p.doubleValues paramName with
  | some n, _ => .ok (.number (runtime.boxInteger n))
  | none, some x => .ok (.number (runtime.boxDouble x))
  | none, none => configDefault paramName (config.parameters.getD [])

/-- The values of `resolveParams`. -/
def resolveText (p : ParameterValues D) (value : String) : Except BuildError (JavaObject D) :=
  match paramReference value with
  | some paramName => resolveParameterReference runtime config p paramName
  | none => .ok (parseValue runtime value)

/-- The values of `resolveConditionParams`. -/
def resolveObject (p : ParameterValues D) (value : JavaObject D) :
    Except BuildError (JavaObject D) :=
  match paramReference value.toString, value with
  | some paramName, _ => resolveParameterReference runtime config p paramName
  | none, .number n => .ok (.number n)
  | none, value => .ok (parseValue runtime value.toString)

def computeIfAbsent (indicators : IndicatorMap D) (key : String)
    (create : Except BuildError (Ta4jObject D)) :
    Except BuildError (Ta4jObject D × IndicatorMap D) :=
  match indicators (some key) with
  | some indicator => .ok (indicator, indicators)
  | none => do
    let indicator ← create
    return (indicator, Function.update indicators (some key) (some indicator))

/-- The base inputs other than close: the key and the type of each. -/
def baseInputs : List (String × String) :=
  [("high", "HIGH"), ("low", "LOW"), ("open", "OPEN"), ("volume", "VOLUME")]

def closePrice : Except BuildError (Ta4jObject D) :=
  ta4j.construct "ClosePriceIndicator" [.inr .series]

def resolveInput (input : Option String) (indicators : IndicatorMap D) :
    Except BuildError (Ta4jObject D × IndicatorMap D) :=
  match input with
  | none => computeIfAbsent indicators "close" (closePrice ta4j)
  | some text =>
    if text = "" ∨ runtime.equalsIgnoreCase text "close" then
      computeIfAbsent indicators "close" (closePrice ta4j)
    else
      match baseInputs.find? fun base => runtime.equalsIgnoreCase text base.1 with
      | some base =>
        computeIfAbsent indicators base.1
          (IndicatorRegistry.create runtime ta4j base.2 .null fun _ => none)
      | none =>
        match indicators (some text) with
        | some indicator => .ok (indicator, indicators)
        | none => .error (.illegalArgument ("Unknown input indicator: " ++ text ++
            ". Make sure indicators are defined in order."))

/-- One round of the loop of `buildIndicators`. -/
def buildIndicator (p : ParameterValues D) (indicators : IndicatorMap D)
    (indicatorConfig : IndicatorConfig) : Except BuildError (IndicatorMap D) := do
  let (input, indicators) ← resolveInput runtime ta4j indicatorConfig.input indicators
  let resolvedParams ← resolveEntries (resolveText runtime config p) indicatorConfig.params
  match indicatorConfig.type with
  | none => .error .nullPointer
  | some type => do
    let indicator ← IndicatorRegistry.create runtime ta4j type input resolvedParams
    return Function.update indicators indicatorConfig.id (some indicator)

def buildIndicators (p : ParameterValues D) : Except BuildError (IndicatorMap D) := do
  let close ← closePrice ta4j
  let indicators : IndicatorMap D := Function.update (fun _ => none) (some "close") (some close)
  (config.indicators.getD []).foldlM (buildIndicator runtime ta4j config p) indicators

/-- The parameters of a condition with the id of its indicator put in. -/
def augment (indicator : Option String) (params : ResolvedParams D) : ResolvedParams D :=
  match indicator with
  | none => params
  | some id => Function.update params "indicator" (some (.string id))

/-- One round of the loop of `buildRule`, with the rule combined so far. -/
def addCondition (p : ParameterValues D) (indicators : IndicatorMap D)
    (combinedRule : Option (Ta4jObject D)) (condition : ConditionConfig D) :
    Except BuildError (Option (Ta4jObject D)) := do
  let resolvedParams ← resolveEntries (resolveObject runtime config p) condition.params
  match condition.type with
  | none => .error .nullPointer
  | some type => do
    let rule ← RuleRegistry.create runtime ta4j type indicators
      (augment condition.indicator resolvedParams)
    match combinedRule with
    | none => return some rule
    | some combined => return some (.object "AndRule" [.inr combined, .inr rule])

def buildRule (p : ParameterValues D) (indicators : IndicatorMap D)
    (conditions : Option (List (ConditionConfig D))) : Except BuildError (Ta4jObject D) :=
  match conditions with
  | none | some [] => .error (.illegalArgument "Strategy must have at least one condition")
  | some conditions => do
    let combinedRule ← conditions.foldlM (addCondition runtime ta4j config p indicators) none
    return combinedRule.getD .null

def calculateUnstablePeriod : Int32 :=
  let maxPeriod := (config.parameters.getD []).foldl (fun maxPeriod param =>
    match param.type, param.defaultValue with
    | some .INTEGER, some value => max maxPeriod value.intValue
    | _, _ => maxPeriod) 0
  max 1 maxPeriod

def createStrategy (p : ParameterValues D) : Except BuildError (Strategy D) := do
  let indicators ← buildIndicators runtime ta4j config p
  let entryRule ← buildRule runtime ta4j config p indicators config.entryConditions
  let exitRule ← buildRule runtime ta4j config p indicators config.exitConditions
  return ⟨config.name, entryRule, exitRule, calculateUnstablePeriod config⟩

/-- `createStrategy` with the config's default parameters. -/
def createDefaultStrategy : Except BuildError (Strategy D) := do
  let p ← getDefaultParameters config
  createStrategy runtime ta4j config p

end

end TradeStream.Configurable
