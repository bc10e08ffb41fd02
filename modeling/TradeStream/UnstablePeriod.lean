import TradeStream.StrategyConfigValidation

/-! The unstable period of a configurable strategy against the periods of its indicators. -/
namespace TradeStream.Configurable
open TradeStream.Fallible

/-! ### The integers that an indicator takes -/

namespace FactoryExpr

mutual

/-- The integers that the expression reads, each by its key and its default. -/
def intReads : FactoryExpr → List (String × Option Int32)
  | .getInt key d => [(key, d)]
  | .new _ args => intReadsOf args
  | _ => []

def intReadsOf : List FactoryExpr → List (String × Option Int32)
  | [] => []
  | e :: es => e.intReads ++ intReadsOf es

end

end FactoryExpr

/-- The integer is an argument of the object, or of an object in it. -/
inductive Ta4jObject.Takes {D : Type} (n : Int32) : Ta4jObject D → Prop where
  | own {cls : String} {args : List (Ta4jArg D)} (h : .inl (.int n) ∈ args) :
    Takes n (.object cls args)
  | inner {cls : String} {args : List (Ta4jArg D)} {o : Ta4jObject D} (h : .inr o ∈ args)
    (ho : Takes n o) : Takes n (.object cls args)

/-- The argument is the integer, or an object that takes it. -/
def ArgTakes {D : Type} (n : Int32) (v : Ta4jArg D) : Prop :=
  v = .inl (.int n) ∨ ∃ o, v = .inr o ∧ o.Takes n

section
variable {D : Type} {runtime : JavaRuntime D} {ta4j : Ta4j D} {input : Ta4jObject D}
  {params : ResolvedParams D} {n : Int32} {read : String × Option Int32}

theorem Ta4jObject.takes_of_arg {cls : String} {args : List (Ta4jArg D)} {v : Ta4jArg D}
    (hmem : v ∈ args) (h : ArgTakes n v) : Ta4jObject.Takes n (.object cls args) := by
  rcases h with rfl | ⟨o, rfl, ho⟩
  · exact .own hmem
  · exact .inner hmem ho

theorem Ta4j.construct_eq_ok {cls : String} {args : List (Ta4jArg D)} {object : Ta4jObject D}
    (h : ta4j.construct cls args = .ok object) : object = .object cls args := by
  unfold construct at h
  split_ifs at h
  cases h
  rfl

namespace FactoryExpr

mutual

theorem takes_of_eval : ∀ {e : FactoryExpr} {v : Ta4jArg D},
    e.eval runtime ta4j input params = .ok v → read ∈ e.intReads →
      params.int? runtime read.1 read.2 = some n → ArgTakes n v
  | .series, _, _, hread, _ => absurd hread List.not_mem_nil
  | .input, _, _, hread, _ => absurd hread List.not_mem_nil
  | .getDouble _ _, _, _, hread, _ => absurd hread List.not_mem_nil
  | .getInt key d, v, h, hread, hn => by
    obtain rfl : read = (key, d) := List.mem_singleton.mp hread
    rw [← ResolvedParams.getInt_eq_ok_iff] at hn
    rw [eval, hn] at h
    cases h
    exact Or.inl rfl
  | .new cls args, v, h, hread, hn => by
    simp only [eval, bind_eq_ok_iff] at h
    obtain ⟨values, hvalues, object, hobject, h⟩ := h
    cases h
    obtain ⟨value, hmem, htakes⟩ := takes_of_evalArgs hvalues hread hn
    rw [Ta4j.construct_eq_ok hobject]
    exact Or.inr ⟨_, rfl, Ta4jObject.takes_of_arg hmem htakes⟩

theorem takes_of_evalArgs : ∀ {es : List FactoryExpr} {vs : List (Ta4jArg D)},
    evalArgs runtime ta4j input params es = .ok vs → read ∈ intReadsOf es →
      params.int? runtime read.1 read.2 = some n → ∃ v ∈ vs, ArgTakes n v
  | [], _, _, hread, _ => absurd hread List.not_mem_nil
  | e :: es, vs, h, hread, hn => by
    simp only [evalArgs, bind_eq_ok_iff] at h
    obtain ⟨value, hvalue, values, hvalues, h⟩ := h
    cases h
    rcases List.mem_append.mp hread with hhead | htail
    · exact ⟨value, List.mem_cons_self, takes_of_eval hvalue hhead hn⟩
    · obtain ⟨v, hmem, htakes⟩ := takes_of_evalArgs hvalues htail hn
      exact ⟨v, List.mem_cons_of_mem value hmem, htakes⟩

end

end FactoryExpr

end

/-! ### Look-back periods -/

section
variable {D : Type} (runtime : JavaRuntime D) (config : StrategyConfig D) (p : ParameterValues D)

/-- The parameters of an indicator as the builder resolves them. -/
def builtParams (indicatorConfig : IndicatorConfig) : ResolvedParams D := fun key =>
  (valueAt indicatorConfig.params key).bind fun value =>
    (resolveText runtime config p value).toOption

/-- The indicator's factory reads the integer. -/
structure LookBack (indicatorConfig : IndicatorConfig) (read : String × Option Int32)
    (n : Int32) : Prop where
  mem : indicatorConfig ∈ allIndicators config
  reads : ∃ type factory, indicatorConfig.type = some type ∧
    IndicatorRegistry.get runtime type = some factory ∧
      read ∈ FactoryExpr.intReadsOf factory.args
  value : (builtParams runtime config p indicatorConfig).int? runtime read.1 read.2 = some n

/-- The unstable period is at least as large as every look-back period. -/
def Covers (strategy : Strategy D) : Prop :=
  ∀ indicatorConfig read n, LookBack runtime config p indicatorConfig read n →
    n ≤ strategy.unstablePeriod

/-- The read is a placeholder for a parameter that is not assigned, and whose default is that of
an INTEGER parameter. -/
def LeftToDefault (indicatorConfig : IndicatorConfig) (read : String × Option Int32) : Prop :=
  ∃ value name param, valueAt indicatorConfig.params read.1 = some value ∧
    paramReference value = some name ∧ p.intValues name = none ∧ p.doubleValues name = none ∧
      (config.parameters.getD []).find? (fun param =>
        param.name = some name ∧ param.defaultValue.isSome) = some param ∧
        param.type = some .INTEGER

/-- The integer is no more than 1, or than the default of an INTEGER parameter. -/
def WithinDefaults (n : Int32) : Prop :=
  n ≤ 1 ∨ ∃ param ∈ config.parameters.getD [], param.type = some .INTEGER ∧
    ∃ value ∈ param.defaultValue, n ≤ value.intValue

end

section
variable {D : Type} {runtime : JavaRuntime D} {ta4j : Ta4j D} {config : StrategyConfig D}
  {p : ParameterValues D} {indicatorConfig : IndicatorConfig} {read : String × Option Int32}
  {n : Int32}

theorem resolveText_eq_ok_iff_toOption (value : String) (w : JavaObject D) :
    resolveText runtime config p value = .ok w ↔
      (resolveText runtime config p value).toOption = some w := by
  cases resolveText runtime config p value <;> simp [Except.toOption]

/-- A strategy that was created has every indicator built, from its parameters. -/
theorem built_of_createStrategy {strategy : Strategy D}
    (h : createStrategy runtime ta4j config p = .ok strategy)
    (hmem : indicatorConfig ∈ allIndicators config) :
    resolveEntries (resolveText runtime config p) indicatorConfig.params =
        .ok (builtParams runtime config p indicatorConfig) ∧
      ∃ type input object, indicatorConfig.type = some type ∧
        IndicatorRegistry.create runtime ta4j type input
          (builtParams runtime config p indicatorConfig) = .ok object := by
  simp only [createStrategy, buildIndicators, bind_eq_ok_iff] at h
  obtain ⟨indicators, ⟨close, -, hindicators⟩, -⟩ := h
  obtain ⟨t, t', hstep⟩ := succeeds_step_of_foldlM hindicators indicatorConfig hmem
  simp only [buildIndicator, bind_eq_ok_iff] at hstep
  -- the parameters are resolved before the indicator is built from them
  obtain ⟨⟨input, t''⟩, -, resolved, hresolved, hstep⟩ := hstep
  have hparams : resolved = builtParams runtime config p indicatorConfig :=
    resolveEntries_eq_ok resolveText_eq_ok_iff_toOption hresolved
  rw [hparams] at hresolved hstep
  refine ⟨hresolved, ?_⟩
  cases htype : indicatorConfig.type with
  | none => simp [htype] at hstep
  | some type =>
    rw [htype] at hstep
    simp only [bind_eq_ok_iff] at hstep
    obtain ⟨object, hobject, -⟩ := hstep
    exact ⟨type, input, object, rfl, hobject⟩

/-- Every look-back period is an argument of the indicator that the factory builds. -/
theorem LookBack.takes {strategy : Strategy D}
    (h : createStrategy runtime ta4j config p = .ok strategy)
    (hlook : LookBack runtime config p indicatorConfig read n) :
    ∃ type input object, indicatorConfig.type = some type ∧
      IndicatorRegistry.create runtime ta4j type input
        (builtParams runtime config p indicatorConfig) = .ok object ∧ object.Takes n := by
  obtain ⟨-, type, input, object, htype, hobject⟩ := built_of_createStrategy h hlook.mem
  obtain ⟨type', factory, htype', hget, hread⟩ := hlook.reads
  obtain rfl : type = type' := Option.some.inj (htype.symm.trans htype')
  refine ⟨type, input, object, htype, hobject, ?_⟩
  rw [IndicatorRegistry.create, hget] at hobject
  simp only [IndicatorFactory.create, bind_eq_ok_iff] at hobject
  obtain ⟨values, hvalues, hobject⟩ := hobject
  obtain ⟨value, hmem, htakes⟩ := FactoryExpr.takes_of_evalArgs hvalues hread hlook.value
  rw [Ta4j.construct_eq_ok hobject]
  exact Ta4jObject.takes_of_arg hmem htakes

/-! ### What the unstable period covers -/

theorem le_max_iff_int32 (a b : Int32) : n ≤ max a b ↔ n ≤ a ∨ n ≤ b := by
  change n ≤ (if a ≤ b then b else a) ↔ _
  split_ifs with hab
  · exact (or_iff_right_of_imp fun hn => Int32.le_trans hn hab).symm
  · refine (or_iff_left_of_imp fun hn => Int32.le_trans hn ?_).symm
    exact (Int32.le_total a b).resolve_left hab

/-- A fold over the definitions that only ever takes the larger of two. -/
theorem le_foldl_iff {f : Int32 → ParameterDefinition D → Int32} {C : ParameterDefinition D → Prop}
    (hf : ∀ start param, n ≤ f start param ↔ n ≤ start ∨ C param)
    (params : List (ParameterDefinition D)) (start : Int32) :
    n ≤ params.foldl f start ↔ n ≤ start ∨ ∃ param ∈ params, C param := by
  induction params generalizing start with
  | nil => simp
  | cons param params ih => rw [List.foldl_cons, ih, hf, List.exists_mem_cons_iff, or_assoc]

theorem le_calculateUnstablePeriod_iff :
    n ≤ calculateUnstablePeriod config ↔ WithinDefaults config n := by
  rw [calculateUnstablePeriod, le_max_iff_int32, le_foldl_iff (C := fun param =>
    param.type = some .INTEGER ∧ ∃ value ∈ param.defaultValue, n ≤ value.intValue), WithinDefaults,
    ← or_assoc]
  · -- the fold starts at zero, which is below the least period of one
    apply or_congr_left
    apply or_iff_left_of_imp
    intro hn
    exact Int32.le_trans hn (by decide)
  · intro start param
    cases htype : param.type with
    | none => simp
    | some type =>
      cases hdefault : param.defaultValue with
      | none => cases type <;> simp
      | some value =>
        cases type with
        | INTEGER => simp [le_max_iff_int32]
        | DOUBLE => simp

theorem configDefault_eq {name : String} {params : List (ParameterDefinition D)}
    {param : ParameterDefinition D} {value : JavaObject D}
    (h : configDefault name params = .ok value)
    (hfind : params.find? (fun param => param.name = some name ∧ param.defaultValue.isSome) =
      some param) : ∃ number, param.defaultValue = some number ∧ value = .number number := by
  induction params with
  | nil => cases hfind
  | cons first params ih =>
    cases hname : first.name with
    | none => simp [configDefault, hname] at h
    | some firstName =>
      cases hdefault : first.defaultValue with
      | none =>
        simp only [configDefault, hname, hdefault] at h
        rw [List.find?_cons_of_neg (by simp [hdefault])] at hfind
        exact ih h hfind
      | some number =>
        simp only [configDefault, hname, hdefault] at h
        by_cases heq : firstName = name
        · rw [if_pos heq] at h
          rw [List.find?_cons_of_pos (by simp [hname, hdefault, heq])] at hfind
          cases h
          cases hfind
          exact ⟨number, hdefault, rfl⟩
        · rw [if_neg heq] at h
          rw [List.find?_cons_of_neg (by simp [hname, heq])] at hfind
          exact ih h hfind

/-- A default that a placeholder falls back on is within the defaults, if its type is INTEGER. -/
theorem LeftToDefault.withinDefaults (h : LeftToDefault config p indicatorConfig read)
    (hvalue : (builtParams runtime config p indicatorConfig).int? runtime read.1 read.2 = some n)
    (hbuilt : Succeeds (resolveEntries (resolveText runtime config p) indicatorConfig.params)) :
    WithinDefaults config n := by
  obtain ⟨value, name, param, hat, href, hint, hdouble, hfind, htype⟩ := h
  obtain ⟨resolved, hresolved⟩ : Succeeds (resolveText runtime config p value) := by
    rw [succeeds_resolveEntries_iff resolveText_eq_ok_iff_toOption] at hbuilt
    obtain ⟨resolved, hresolved⟩ := Option.ne_none_iff_exists'.mp (hbuilt read.1 value hat)
    exact ⟨resolved, (resolveText_eq_ok_iff_toOption value resolved).mpr hresolved⟩
  have hdefault : configDefault name (config.parameters.getD []) = .ok resolved := by
    simpa [resolveText, href, resolveParameterReference, hint, hdouble] using hresolved
  obtain ⟨number, hnumber, rfl⟩ := configDefault_eq hdefault hfind
  have hn : n = number.intValue := by
    have hnumberAt : builtParams runtime config p indicatorConfig read.1 =
        some (.number number) := by
      rw [builtParams, hat, Option.bind_some, hresolved]
      rfl
    rw [ResolvedParams.int?, hnumberAt] at hvalue
    exact (Option.some.inj hvalue).symm
  refine Or.inr ⟨param, List.mem_of_find?_eq_some hfind, htype, number, hnumber, ?_⟩
  rw [hn]
  exact Int32.le_refl _

/-- The unstable period covers every look-back period just where each that is a literal, an
assigned value or a default of the registry is within the defaults of the INTEGER parameters. -/
theorem unstablePeriod_covers_iff {strategy : Strategy D}
    (h : createStrategy runtime ta4j config p = .ok strategy) :
    Covers runtime config p strategy ↔
      ∀ indicatorConfig read n, LookBack runtime config p indicatorConfig read n →
        ¬ LeftToDefault config p indicatorConfig read → WithinDefaults config n := by
  have hperiod : strategy.unstablePeriod = calculateUnstablePeriod config := by
    simp only [createStrategy, bind_eq_ok_iff] at h
    obtain ⟨_, -, _, -, _, -, h⟩ := h
    cases h
    rfl
  simp only [Covers, hperiod, le_calculateUnstablePeriod_iff]
  constructor
  · exact fun hall indicatorConfig read n hlook _ => hall indicatorConfig read n hlook
  · intro hall indicatorConfig read n hlook
    -- a default that is fallen back on is one that the period was taken from
    by_cases hleft : LeftToDefault config p indicatorConfig read
    · exact hleft.withinDefaults hlook.value ⟨_, (built_of_createStrategy h hlook.mem).1⟩
    · exact hall indicatorConfig read n hlook hleft

end

/-! ### An average of 20 to 50 bars -/

def assigned (period : Int32) : ParameterValues ℚ :=
  ParameterValues.empty.putIntValues "period" period

/-- Every INTEGER parameter is assigned a value within its range. -/
def WithinRanges (config : StrategyConfig ℚ) (p : ParameterValues ℚ) : Prop :=
  ∀ param ∈ config.parameters.getD [], param.type = some .INTEGER → ∀ name ∈ param.name,
    ∃ n ∈ p.intValues name, (∀ least ∈ param.min, least.intValue ≤ n) ∧
      ∀ most ∈ param.max, n ≤ most.intValue

theorem assigned_withinRanges {n : Int32} (hleast : 5 ≤ n) (hmost : n ≤ 50) :
    WithinRanges (averageConfig "close") (assigned n) := by
  intro param hparam _ name hname
  obtain rfl : param = ⟨some "period", some .INTEGER, some ⟨5, 5, "5"⟩, some ⟨50, 50, "50"⟩,
    some ⟨20, 20, "20"⟩⟩ := List.mem_singleton.mp hparam
  cases hname
  refine ⟨n, rfl, ?_, ?_⟩
  · rintro least ⟨⟩
    exact hleast
  · rintro most ⟨⟩
    exact hmost

def averageIndicator : IndicatorConfig :=
  ⟨some "sma", some "SMA", some "close",
    some (AList.singleton "period" (some "$\x7bperiod\x7d"))⟩

theorem lookBack_average (n : Int32) :
    LookBack asciiRuntime (averageConfig "close") (assigned n) averageIndicator
      ("period", none) n where
  mem := List.mem_singleton_self _
  reads := ⟨"SMA", IndicatorRegistry.ofInput "SMAIndicator", rfl, by rfl, List.mem_singleton_self _⟩
  value := by rfl

/-- Over the longest average the strategy is unstable for the 20 bars of the default only. -/
theorem not_covers_longest_average :
    ¬ ∀ p strategy, WithinRanges (averageConfig "close") p →
      createStrategy asciiRuntime permissiveTa4j (averageConfig "close") p = .ok strategy →
        Covers asciiRuntime (averageConfig "close") p strategy := by
  intro h
  have hcovers := h (assigned 50) _ (assigned_withinRanges (by decide) (by decide)) rfl
  exact absurd (hcovers averageIndicator ("period", none) 50 (lookBack_average 50))
    (by decide +kernel)

theorem eq_of_lookBack_average {n m : Int32} {indicatorConfig : IndicatorConfig}
    {read : String × Option Int32}
    (h : LookBack asciiRuntime (averageConfig "close") (assigned n) indicatorConfig read m) :
    m = n := by
  obtain ⟨hmem, ⟨type, factory, htype, hget, hread⟩, hvalue⟩ := h
  obtain rfl : indicatorConfig = averageIndicator := List.mem_singleton.mp hmem
  obtain rfl : "SMA" = type := Option.some.inj htype
  have hget' : IndicatorRegistry.get asciiRuntime "SMA" =
      some (IndicatorRegistry.ofInput "SMAIndicator") := rfl
  obtain rfl := Option.some.inj (hget'.symm.trans hget)
  obtain rfl : read = ("period", none) := List.mem_singleton.mp hread
  exact Option.some.inj (hvalue.symm.trans (lookBack_average n).value)

/-- Over the default average it covers them. -/
theorem covers_default_average :
    ∃ strategy, createStrategy asciiRuntime permissiveTa4j (averageConfig "close") (assigned 20) =
      .ok strategy ∧ Covers asciiRuntime (averageConfig "close") (assigned 20) strategy := by
  have hcreated : createStrategy asciiRuntime permissiveTa4j (averageConfig "close") (assigned 20) =
      .ok _ := rfl
  refine ⟨_, hcreated, (unstablePeriod_covers_iff hcreated).mpr ?_⟩
  intro indicatorConfig read n hlook _
  rw [eq_of_lookBack_average hlook]
  exact Or.inr ⟨_, List.mem_singleton_self _, rfl, ⟨20, 20, "20"⟩, rfl, by decide⟩

end TradeStream.Configurable
