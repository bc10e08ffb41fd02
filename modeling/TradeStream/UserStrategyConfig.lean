import TradeStream.Fallible
import TradeStream.JsonText
import TradeStream.KeyedTable

/-! The config of a user strategy, and `validate_strategy_config`, which reports what is
wrong with it. -/
namespace TradeStream.UserStrategyConfig
open TradeStream.JsonText TradeStream.KeyedTable TradeStream.Fallible

/-- A bound of a parameter and its text. -/
structure Bound where
  value : ℚ
  text : String

structure ParamSpec where
  name : String
  min : Bound
  max : Bound

/-- The types of the catalog, with the parameters that have bounds. -/
def indicatorCatalog : List (String × List ParamSpec) :=
  [
    ("RSI", [⟨"period", ⟨2, "2"⟩, ⟨200, "200"⟩⟩]),
    ("MACD", [⟨"shortPeriod", ⟨2, "2"⟩, ⟨100, "100"⟩⟩, ⟨"longPeriod", ⟨2, "2"⟩, ⟨200, "200"⟩⟩,
      ⟨"signalPeriod", ⟨2, "2"⟩, ⟨50, "50"⟩⟩]),
    ("SMA", [⟨"period", ⟨2, "2"⟩, ⟨500, "500"⟩⟩]),
    ("EMA", [⟨"period", ⟨2, "2"⟩, ⟨500, "500"⟩⟩]),
    ("BOLLINGER_BANDS", [⟨"period", ⟨2, "2"⟩, ⟨200, "200"⟩⟩,
      ⟨"stdDev", ⟨1 / 2, "0.5"⟩, ⟨5, "5.0"⟩⟩]),
    ("ATR", [⟨"period", ⟨2, "2"⟩, ⟨200, "200"⟩⟩]),
    ("STOCHASTIC", [⟨"kPeriod", ⟨2, "2"⟩, ⟨200, "200"⟩⟩, ⟨"dPeriod", ⟨2, "2"⟩, ⟨50, "50"⟩⟩]),
    ("ADX", [⟨"period", ⟨2, "2"⟩, ⟨200, "200"⟩⟩]),
    ("CCI", [⟨"period", ⟨2, "2"⟩, ⟨200, "200"⟩⟩]),
    ("OBV", []),
    ("VWAP", []),
    ("ICHIMOKU", [⟨"tenkanPeriod", ⟨2, "2"⟩, ⟨100, "100"⟩⟩,
      ⟨"kijunPeriod", ⟨2, "2"⟩, ⟨200, "200"⟩⟩, ⟨"senkouBPeriod", ⟨2, "2"⟩, ⟨500, "500"⟩⟩]),
    ("PARABOLIC_SAR", [⟨"accelerationFactor", ⟨1 / 1000, "0.001"⟩, ⟨1 / 2, "0.5"⟩⟩,
      ⟨"maxAcceleration", ⟨1 / 100, "0.01"⟩, ⟨1, "1.0"⟩⟩]),
    ("CONSTANT", [⟨"value", ⟨-99999, "-99999"⟩, ⟨99999, "99999"⟩⟩])]

def indicatorTypeSet : List String := indicatorCatalog.map Prod.fst

def conditionTypeSet : List String :=
  ["CrossedUp", "CrossedDown", "OverIndicator", "UnderIndicator", "IsRising", "IsFalling", "And",
    "Or"]

abbrev Params := Table String (Json ℚ)

structure IndicatorConfig where
  id : String
  type : String
  input : String
  params : Params
  known : type ∈ indicatorTypeSet

structure ConditionConfig where
  type : String
  indicator : Option String
  params : Params
  known : type ∈ conditionTypeSet

/-- The three columns of a strategy that say what it does. -/
structure Columns where
  indicators : List IndicatorConfig
  entryConditions : List ConditionConfig
  exitConditions : List ConditionConfig

def minItems : ℕ := 1

def maxItems : ℕ := 20

/-- The limits of `StrategyConfigDTO` on its lists. -/
def Columns.Sized (columns : Columns) : Prop :=
  (minItems ≤ columns.indicators.length ∧ columns.indicators.length ≤ maxItems) ∧
    (minItems ≤ columns.entryConditions.length ∧ columns.entryConditions.length ≤ maxItems) ∧
      minItems ≤ columns.exitConditions.length ∧ columns.exitConditions.length ≤ maxItems

instance (columns : Columns) : Decidable columns.Sized := inferInstanceAs (Decidable (_ ∧ _))

/-- A config that the models admit. -/
structure StrategyConfig extends Columns where
  sized : toColumns.Sized

/-- `StrategyConfigDTO` of these columns, which raises where the models refuse them. -/
def strategyConfig (columns : Columns) : Option StrategyConfig :=
  if h : columns.Sized then some ⟨columns, h⟩ else none

structure ConfigError where
  field : String
  message : String
  deriving DecidableEq

/-- The number that a value is compared as. Other values raise a `TypeError`. -/
def numeric : Json ℚ → Option ℚ
  | .num value => some value
  | .bool true => some 1
  | .bool false => some 0
  | _ => none

def paramSpecs (type : String) : List ParamSpec := (indicatorCatalog.lookup type).getD []

/-- The indicator that a condition is about, and the one it is compared with. -/
def ConditionConfig.indicatorName (cond : ConditionConfig) : String := cond.indicator.getD ""

def ConditionConfig.referenceName (cond : ConditionConfig) : String :=
  match cond.params.lookup "reference" with
  | some (.str name) => name
  | _ => ""

def unknownIndicator (field : String) (ids : List String) (name : String) : List ConfigError :=
  -- an empty name refers to nothing
  if name ≠ "" ∧ name ∉ ids then [⟨field, "References unknown indicator '" ++ name ++ "'"⟩] else []

def conditionErrors (column : String) (ids : List String) (cond : ConditionConfig × ℕ) :
    List ConfigError :=
  let field := column ++ "[" ++ toString cond.2 ++ "]"
  unknownIndicator (field ++ ".indicator") ids cond.1.indicatorName ++
    unknownIndicator (field ++ ".params.reference") ids cond.1.referenceName

section
variable (showNumber : ℚ → String)

/-- `str` of a value that compares with numbers. -/
def showValue : Json ℚ → String
  | .num value => showNumber value
  | .bool true => "True"
  | .bool false => "False"
  | _ => ""

def paramErrors (field : String) (value : Json ℚ) (spec : ParamSpec) : Option (List ConfigError) :=
  match numeric value with
  | none => none
  | some number =>
    let text := "Value " ++ showValue showNumber value
    -- both checks are made, so that there may be two errors
    some <|
      (if number < spec.min.value then
        [⟨field, text ++ " below minimum " ++ spec.min.text⟩] else []) ++
      (if number > spec.max.value then
        [⟨field, text ++ " above maximum " ++ spec.max.text⟩] else [])

def indicatorErrors (ind : IndicatorConfig × ℕ) : Option (List ConfigError) :=
  gather (fun spec =>
    match ind.1.params.lookup spec.name with
    -- a parameter that is not given is not checked
    | none => some []
    | some value =>
      paramErrors showNumber ("indicators[" ++ toString ind.2 ++ "].params." ++ spec.name) value spec)
    (paramSpecs ind.1.type)

/-- `none` where it raises. -/
def validateStrategyConfig (config : StrategyConfig) : Option (List ConfigError) :=
  let ids := config.indicators.map IndicatorConfig.id
  let duplicates : List ConfigError :=
    if ids.Nodup then [] else [⟨"indicators", "Indicator IDs must be unique"⟩]
  (gather (indicatorErrors showNumber) config.indicators.zipIdx).map fun errors =>
    duplicates ++
      config.entryConditions.zipIdx.flatMap (conditionErrors "entry_conditions" ids) ++
      config.exitConditions.zipIdx.flatMap (conditionErrors "exit_conditions" ids) ++ errors

end

/-- A condition refers only to indicators that there are. -/
def ConditionConfig.Resolves (ids : List String) (cond : ConditionConfig) : Prop :=
  (cond.indicatorName ≠ "" → cond.indicatorName ∈ ids) ∧
    (cond.referenceName ≠ "" → cond.referenceName ∈ ids)

/-- The parameters with bounds are numbers. -/
def IndicatorConfig.Comparable (ind : IndicatorConfig) : Prop :=
  ∀ spec ∈ paramSpecs ind.type, ∀ value, ind.params.lookup spec.name = some value →
    (numeric value).isSome = true

def IndicatorConfig.InRange (ind : IndicatorConfig) : Prop :=
  ∀ spec ∈ paramSpecs ind.type, ∀ value, ind.params.lookup spec.name = some value →
    ∃ number, numeric value = some number ∧ spec.min.value ≤ number ∧ number ≤ spec.max.value

/-- What is asked of a strategy, in its own terms. -/
structure Columns.Sound (columns : Columns) : Prop where
  sized : columns.Sized
  distinct : (columns.indicators.map IndicatorConfig.id).Nodup
  entry : ∀ cond ∈ columns.entryConditions,
    cond.Resolves (columns.indicators.map IndicatorConfig.id)
  exit : ∀ cond ∈ columns.exitConditions,
    cond.Resolves (columns.indicators.map IndicatorConfig.id)
  inRange : ∀ ind ∈ columns.indicators, ind.InRange

section
variable (showNumber : ℚ → String)

theorem conditionErrors_eq_nil_iff {column : String} {ids : List String}
    {cond : ConditionConfig × ℕ} :
    conditionErrors column ids cond = [] ↔ cond.1.Resolves ids := by
  -- the condition's indicator and its reference are asked the same question
  have hunknown (field name : String) :
      unknownIndicator field ids name = [] ↔ (name ≠ "" → name ∈ ids) := by
    unfold unknownIndicator
    split_ifs with h
    · simp only [false_iff]
      exact fun himp => h.2 (himp h.1)
    · simp only [true_iff]
      exact fun hname => by_contra fun hmem => h ⟨hname, hmem⟩
  rw [conditionErrors, List.append_eq_nil_iff, hunknown, hunknown, ConditionConfig.Resolves]

theorem isSome_paramErrors {field : String} {value : Json ℚ} {spec : ParamSpec} :
    (paramErrors showNumber field value spec).isSome = (numeric value).isSome := by
  unfold paramErrors
  cases numeric value <;> rfl

theorem paramErrors_eq_nil_iff {field : String} {value : Json ℚ} {spec : ParamSpec} :
    paramErrors showNumber field value spec = some [] ↔
      ∃ number, numeric value = some number ∧ spec.min.value ≤ number ∧
        number ≤ spec.max.value := by
  unfold paramErrors
  cases numeric value with
  | none => simp
  | some number =>
    simp only [Option.some.injEq, List.append_eq_nil_iff, ite_eq_right_iff, List.cons_ne_nil,
      imp_false, not_lt, gt_iff_lt, exists_eq_left']

theorem isSome_indicatorErrors_iff {ind : IndicatorConfig × ℕ} :
    (indicatorErrors showNumber ind).isSome = true ↔ ind.1.Comparable := by
  rw [indicatorErrors, isSome_gather_iff]
  apply forall₂_congr
  intro spec _
  cases ind.1.params.lookup spec.name with
  | none => simp
  | some value => simp [isSome_paramErrors]

theorem indicatorErrors_eq_nil_iff {ind : IndicatorConfig × ℕ} :
    indicatorErrors showNumber ind = some [] ↔ ind.1.InRange := by
  rw [indicatorErrors, gather_eq_some_nil_iff]
  apply forall₂_congr
  intro spec _
  cases ind.1.params.lookup spec.name with
  | none => simp
  | some value => simp [paramErrors_eq_nil_iff]

/-- Validation raises at a parameter with bounds that is no number, and nowhere else. -/
theorem isSome_validateStrategyConfig_iff (config : StrategyConfig) :
    (validateStrategyConfig showNumber config).isSome = true ↔
      ∀ ind ∈ config.indicators, ind.Comparable := by
  simp only [validateStrategyConfig, Option.isSome_map, isSome_gather_iff,
    isSome_indicatorErrors_iff]
  exact forall_mem_zipIdx_iff

theorem validateStrategyConfig_eq_nil_iff (config : StrategyConfig) :
    validateStrategyConfig showNumber config = some [] ↔ config.toColumns.Sound := by
  have hconditions (column : String) (ids : List String) (conditions : List ConditionConfig) :
      conditions.zipIdx.flatMap (conditionErrors column ids) = [] ↔
        ∀ cond ∈ conditions, cond.Resolves ids := by
    rw [List.flatMap_eq_nil_iff]
    simp only [conditionErrors_eq_nil_iff]
    exact forall_mem_zipIdx_iff
  -- the indices are only in the texts
  have hindicators : gather (indicatorErrors showNumber) config.indicators.zipIdx = some [] ↔
      ∀ ind ∈ config.indicators, ind.InRange := by
    rw [gather_eq_some_nil_iff]
    simp only [indicatorErrors_eq_nil_iff]
    exact forall_mem_zipIdx_iff
  simp only [validateStrategyConfig, Option.map_eq_some_iff, List.append_eq_nil_iff, hconditions,
    ite_eq_left_iff, List.cons_ne_nil, imp_false, not_not]
  constructor
  · rintro ⟨errors, herrors, ⟨⟨hdistinct, hentry⟩, hexit⟩, rfl⟩
    exact ⟨config.sized, hdistinct, hentry, hexit, hindicators.mp herrors⟩
  · intro h
    exact ⟨[], hindicators.mpr h.inRange, ⟨⟨h.distinct, h.entry⟩, h.exit⟩, rfl⟩

theorem strategyConfig_eq_some_iff {columns : Columns} {config : StrategyConfig} :
    strategyConfig columns = some config ↔ config.toColumns = columns := by
  unfold strategyConfig
  split_ifs with h
  · rw [Option.some.injEq]
    constructor
    · rintro rfl
      rfl
    · rintro rfl
      rfl
  · simp only [false_iff]
    rintro rfl
    exact h config.sized

/-- The columns make a config that passes validation. -/
def Columns.Valid (columns : Columns) : Prop :=
  ∃ config, strategyConfig columns = some config ∧
    validateStrategyConfig showNumber config = some []

theorem valid_iff_sound {columns : Columns} : columns.Valid showNumber ↔ columns.Sound := by
  constructor
  · rintro ⟨config, hconfig, hvalid⟩
    rw [strategyConfig_eq_some_iff] at hconfig
    rw [← hconfig]
    exact (validateStrategyConfig_eq_nil_iff showNumber config).mp hvalid
  · intro h
    exact ⟨⟨columns, h.sized⟩, strategyConfig_eq_some_iff.mpr rfl,
      (validateStrategyConfig_eq_nil_iff showNumber _).mpr h⟩

end

end TradeStream.UserStrategyConfig
