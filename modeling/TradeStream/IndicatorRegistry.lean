import TradeStream.Fallible
import TradeStream.StrategyConfig

/-! `IndicatorRegistry` and `ResolvedParams`: the indicators that a config can name, and
the parameters that each reads. A factory is given as the expression that its lambda
evaluates. -/
namespace TradeStream.Configurable
open TradeStream.Fallible

/-- What the code takes from the Java library, for strings and for numbers. -/
structure JavaRuntime (D : Type) where
  toUpperCase : String → String
  toLowerCase : String → String
  equalsIgnoreCase : String → String → Bool
  isBlank : String → Bool
  /-- The text of a set, whose order Java leaves open. -/
  setToString : List String → String
  /-- `Integer.parseInt`; `none` stands for a `NumberFormatException`. -/
  parseInt : String → Option Int32
  parseDouble : String → Option D
  boxInteger : Int32 → JavaNumber D
  boxDouble : D → JavaNumber D
  literal : ℚ → D
  lt : D → D → Bool
  /-- `Math.floor(x) == x`. -/
  isWhole : D → Bool
  toUpperCase_of_upper : ∀ s : String,
    (∀ c ∈ s.toList, c.isUpper = true ∨ c = '_') → toUpperCase s = s

/-- What the builder throws. -/
inductive BuildError where
  | illegalArgument (message : String)
  | unsupportedOperation (message : String)
  | numberFormat (text : String)
  | nullPointer
  | ta4j (cls : String)
  deriving DecidableEq

/-- An object of the ta4j library, by the call that made it. -/
inductive Ta4jObject (D : Type) where
  | null
  | series
  | object (cls : String) (args : List (ParameterValue D ⊕ Ta4jObject D))

/-- An argument of such a call: a number or an object. -/
abbrev Ta4jArg (D : Type) := ParameterValue D ⊕ Ta4jObject D

/-- The indicators that the repository defines itself. -/
def ownIndicators : List String :=
  ["KlingerVolumeOscillatorIndicator", "MassIndexIndicator", "HighLowRangeIndicator",
    "FramaIndicator", "PreviousValueIndicator"]

/-- The constructors of ta4j, by the numbers that they take without an exception. A
series or an indicator is always taken, and the constructors of the repository only
store what they are given. -/
structure Ta4j (D : Type) where
  accepts : String → List (ParameterValue D) → Bool
  accepts_nil : ∀ cls, accepts cls [] = true
  accepts_own : ∀ cls ∈ ownIndicators, ∀ args, accepts cls args = true

abbrev ResolvedParams (D : Type) := String → Option (JavaObject D)

/-- An expression in the lambda of a factory. A read has its key, and the default if
there is one. -/
inductive FactoryExpr where
  | series
  | input
  | getInt (key : String) (defaultValue : Option Int32)
  | getDouble (key : String) (defaultValue : Option ℚ)
  | new (cls : String) (args : List FactoryExpr)

section
variable {D : Type} (runtime : JavaRuntime D) (ta4j : Ta4j D)

namespace ResolvedParams
variable (params : ResolvedParams D)

def getInt (key : String) (defaultValue : Option Int32) : Except BuildError Int32 :=
  match params key with
  | none =>
    match defaultValue with
    | some n => .ok n
    | none => .error (.illegalArgument ("Missing required parameter: " ++ key))
  | some (.number n) => .ok n.intValue
  | some value =>
    match runtime.parseInt value.toString with
    | some n => .ok n
    | none => .error (.numberFormat value.toString)

def getDouble (key : String) (defaultValue : Option ℚ) : Except BuildError D :=
  match params key with
  | none =>
    match defaultValue with
    | some x => .ok (runtime.literal x)
    | none => .error (.illegalArgument ("Missing required parameter: " ++ key))
  | some (.number n) => .ok n.doubleValue
  | some value =>
    match runtime.parseDouble value.toString with
    | some x => .ok x
    | none => .error (.numberFormat value.toString)

def getString (key : String) : Except BuildError String :=
  match params key with
  | none => .error (.illegalArgument ("Missing required parameter: " ++ key))
  | some value => .ok value.toString

/-- The integer under the key, or else the default. -/
def int? (key : String) (defaultValue : Option Int32) : Option Int32 :=
  match params key with
  | none => defaultValue
  | some (.number n) => some n.intValue
  | some value => runtime.parseInt value.toString

def double? (key : String) (defaultValue : Option ℚ) : Option D :=
  match params key with
  | none => defaultValue.map runtime.literal
  | some (.number n) => some n.doubleValue
  | some value => runtime.parseDouble value.toString

theorem getInt_eq_ok_iff {key : String} {defaultValue : Option Int32} {n : Int32} :
    getInt runtime params key defaultValue = .ok n ↔
      int? runtime params key defaultValue = some n := by
  unfold getInt int?
  cases params key with
  | none => cases defaultValue <;> simp
  | some value =>
    cases value with
    | number m => simp
    | string s => cases h : runtime.parseInt s <;> simp [JavaObject.toString, h]
    | other s => cases h : runtime.parseInt s <;> simp [JavaObject.toString, h]

theorem getDouble_eq_ok_iff {key : String} {defaultValue : Option ℚ} {x : D} :
    getDouble runtime params key defaultValue = .ok x ↔
      double? runtime params key defaultValue = some x := by
  unfold getDouble double?
  cases params key with
  | none => cases defaultValue <;> simp
  | some value =>
    cases value with
    | number m => simp
    | string s => cases h : runtime.parseDouble s <;> simp [JavaObject.toString, h]
    | other s => cases h : runtime.parseDouble s <;> simp [JavaObject.toString, h]

theorem getString_eq_ok_iff {key s : String} :
    getString params key = .ok s ↔ ∃ value, params key = some value ∧ value.toString = s := by
  unfold getString
  cases params key <;> simp

end ResolvedParams

def Ta4j.construct (cls : String) (args : List (Ta4jArg D)) :
    Except BuildError (Ta4jObject D) :=
  if ta4j.accepts cls (args.filterMap Sum.getLeft?) then .ok (.object cls args)
  else .error (.ta4j cls)

theorem Ta4j.succeeds_construct_iff (cls : String) (args : List (Ta4jArg D)) :
    Succeeds (ta4j.construct cls args) ↔
      ta4j.accepts cls (args.filterMap Sum.getLeft?) = true := by
  unfold construct
  split <;> simp_all

namespace FactoryExpr
variable (input : Ta4jObject D) (params : ResolvedParams D)

mutual
def eval : FactoryExpr → Except BuildError (Ta4jArg D)
  | .series => .ok (.inr .series)
  | .input => .ok (.inr input)
  | .getInt key d => (params.getInt runtime key d).map fun n => .inl (.int n)
  | .getDouble key d => (params.getDouble runtime key d).map fun x => .inl (.double x)
  | .new cls args => do
    let values ← evalArgs args
    let object ← ta4j.construct cls values
    return .inr object
def evalArgs : List FactoryExpr → Except BuildError (List (Ta4jArg D))
  | [] => .ok []
  | e :: es => do
    let value ← e.eval
    let values ← evalArgs es
    return value :: values
end

/-- The number that the expression reads. -/
def number? : FactoryExpr → Option (ParameterValue D)
  | .getInt key d => (params.int? runtime key d).map .int
  | .getDouble key d => (params.double? runtime key d).map .double
  | _ => none

mutual
/-- The parameters have every number that the expression reads, and the constructors
that it calls take them. -/
def Accepted : FactoryExpr → Prop
  | .series => True
  | .input => True
  | .getInt key d => params.int? runtime key d ≠ none
  | .getDouble key d => params.double? runtime key d ≠ none
  | .new cls args =>
    AllAccepted args ∧ ta4j.accepts cls (args.filterMap (number? runtime params)) = true
def AllAccepted : List FactoryExpr → Prop
  | [] => True
  | e :: es => e.Accepted ∧ AllAccepted es
end

/-- The value of an expression is the number that it reads, or else an object. -/
theorem getLeft?_of_eval {e : FactoryExpr} {v : Ta4jArg D}
    (h : e.eval runtime ta4j input params = .ok v) :
    v.getLeft? = e.number? runtime params := by
  -- only the two getters give numbers
  cases e with
  | series =>
    cases h
    rfl
  | input =>
    cases h
    rfl
  | getInt key d =>
    cases hn : params.getInt runtime key d with
    | error e => simp [eval, hn, Except.map] at h
    | ok n =>
      simp only [eval, hn, Except.map, Except.ok.injEq] at h
      rw [ResolvedParams.getInt_eq_ok_iff] at hn
      rw [← h, number?, hn]
      rfl
  | getDouble key d =>
    cases hx : params.getDouble runtime key d with
    | error e => simp [eval, hx, Except.map] at h
    | ok x =>
      simp only [eval, hx, Except.map, Except.ok.injEq] at h
      rw [ResolvedParams.getDouble_eq_ok_iff] at hx
      rw [← h, number?, hx]
      rfl
  | new cls args =>
    simp only [eval, bind_eq_ok_iff] at h
    obtain ⟨values, -, object, -, h⟩ := h
    cases h
    rfl

theorem filterMap_getLeft?_of_evalArgs {es : List FactoryExpr} {vs : List (Ta4jArg D)}
    (h : evalArgs runtime ta4j input params es = .ok vs) :
    vs.filterMap Sum.getLeft? = es.filterMap (number? runtime params) := by
  induction es generalizing vs with
  | nil =>
    cases h
    rfl
  | cons e es ih =>
    simp only [evalArgs, bind_eq_ok_iff] at h
    obtain ⟨v, hv, vs', hvs, h⟩ := h
    cases h
    rw [List.filterMap_cons, List.filterMap_cons, ih hvs,
      getLeft?_of_eval runtime ta4j input params hv]

mutual
theorem succeeds_eval_iff : ∀ e : FactoryExpr,
    Succeeds (e.eval runtime ta4j input params) ↔ e.Accepted runtime ta4j params
  | .series => by simp [eval, Accepted]
  | .input => by simp [eval, Accepted]
  | .getInt key d => by
    rw [eval, succeeds_map_iff, Accepted, Option.ne_none_iff_exists']
    exact exists_congr fun n => params.getInt_eq_ok_iff runtime
  | .getDouble key d => by
    rw [eval, succeeds_map_iff, Accepted, Option.ne_none_iff_exists']
    exact exists_congr fun x => params.getDouble_eq_ok_iff runtime
  | .new cls args => by
    rw [eval, Accepted, ← succeeds_evalArgs_iff args]
    apply succeeds_bind_iff_and
    intro values hvalues
    have hconstruct := ta4j.succeeds_construct_iff cls values
    rw [filterMap_getLeft?_of_evalArgs runtime ta4j input params hvalues] at hconstruct
    rw [← hconstruct, succeeds_bind_pure_iff]
theorem succeeds_evalArgs_iff : ∀ es : List FactoryExpr,
    Succeeds (evalArgs runtime ta4j input params es) ↔ AllAccepted runtime ta4j params es
  | [] => by simp [evalArgs, AllAccepted]
  | e :: es => by
    rw [evalArgs, AllAccepted, ← succeeds_eval_iff e, ← succeeds_evalArgs_iff es]
    apply succeeds_bind_iff_and
    intro value _
    rw [succeeds_bind_pure_iff]
end

end FactoryExpr

/-- A factory: the constructor that its lambda calls, and the arguments. -/
structure IndicatorFactory where
  cls : String
  args : List FactoryExpr

namespace IndicatorFactory
variable (input : Ta4jObject D) (params : ResolvedParams D)

def create (factory : IndicatorFactory) : Except BuildError (Ta4jObject D) := do
  let values ← FactoryExpr.evalArgs runtime ta4j input params factory.args
  ta4j.construct factory.cls values

/-- The parameters are enough for the factory. -/
def Accepted (factory : IndicatorFactory) : Prop :=
  (FactoryExpr.new factory.cls factory.args).Accepted runtime ta4j params

theorem succeeds_create_iff (factory : IndicatorFactory) :
    Succeeds (factory.create runtime ta4j input params) ↔
      factory.Accepted runtime ta4j params := by
  rw [Accepted, ← FactoryExpr.succeeds_eval_iff runtime ta4j input params, FactoryExpr.eval,
    create]
  -- the expression only wraps the object in an argument
  simp only [succeeds_bind_iff, succeeds_pure, and_true]
  rfl

end IndicatorFactory

end

namespace IndicatorRegistry
open FactoryExpr

def period : FactoryExpr := .getInt "period" none

/-- An indicator of its input over a period. -/
def ofInput (cls : String) : IndicatorFactory := ⟨cls, [.input, period]⟩

def ofSeries (cls : String) : IndicatorFactory := ⟨cls, [.series, period]⟩

/-- An indicator with no parameters. -/
def plain (cls : String) : IndicatorFactory := ⟨cls, [.series]⟩

def twoPeriods (cls : String) (source : FactoryExpr) (shortPeriod longPeriod : Int32) :
    IndicatorFactory :=
  ⟨cls, [source, .getInt "shortPeriod" (some shortPeriod),
    .getInt "longPeriod" (some longPeriod)]⟩

def numOf (x : FactoryExpr) : FactoryExpr := .new "numFactory().numOf" [x]

def multiplier : FactoryExpr := .getDouble "multiplier" (some 2)

def bollingerBand (cls : String) : IndicatorFactory :=
  ⟨cls, [.new "BollingerBandsMiddleIndicator" [.new "SMAIndicator" [.input, period]],
    .new "StandardDeviationIndicator" [.input, period], numOf multiplier]⟩

def keltnerBand (cls : String) : IndicatorFactory :=
  ⟨cls, [.new "KeltnerChannelMiddleIndicator" [.series, period],
    .new "ATRIndicator" [.series, .getInt "atrPeriod" (some 10)], multiplier]⟩

/-- The inner average that the constructor of `MassIndexIndicator` builds. -/
def massIndexEma : FactoryExpr :=
  .new "EMAIndicator" [.new "HighLowRangeIndicator" [.series], .getInt "emaPeriod" (some 9)]

/-- `defaultRegistry`. -/
def factories : List (String × IndicatorFactory) := [
  -- moving averages
  ("SMA", ofInput "SMAIndicator"),
  ("EMA", ofInput "EMAIndicator"),
  ("DEMA", ofInput "DoubleEMAIndicator"),
  ("TEMA", ofInput "TripleEMAIndicator"),
  ("WMA", ofInput "WMAIndicator"),
  ("KAMA", ⟨"KAMAIndicator", [.input, period, .getInt "fastPeriod" (some 2),
    .getInt "slowPeriod" (some 30)]⟩),
  ("ZLEMA", ofInput "ZLEMAIndicator"),
  -- oscillators
  ("RSI", ofInput "RSIIndicator"),
  ("MACD", twoPeriods "MACDIndicator" .input 12 26),
  ("STOCHASTIC_K", ofSeries "StochasticOscillatorKIndicator"),
  ("STOCHASTIC_D", ⟨"StochasticOscillatorDIndicator",
    [.new "StochasticOscillatorKIndicator" [.series, .getInt "kPeriod" (some 14)]]⟩),
  ("CCI", ofSeries "CCIIndicator"),
  ("CMO", ofInput "CMOIndicator"),
  ("MFI", ofSeries "ChaikinMoneyFlowIndicator"),
  ("WILLIAMS_R", ofSeries "WilliamsRIndicator"),
  ("ROC", ofInput "ROCIndicator"),
  ("MOMENTUM", ofInput "ROCIndicator"),
  ("TRIX", ofInput "TripleEMAIndicator"),
  ("DPO", ofInput "DPOIndicator"),
  ("AWESOME_OSCILLATOR", twoPeriods "AwesomeOscillatorIndicator"
    (.new "MedianPriceIndicator" [.series]) 5 34),
  -- trend
  ("ADX", ofSeries "ADXIndicator"),
  ("PLUS_DI", ofSeries "PlusDIIndicator"),
  ("MINUS_DI", ofSeries "MinusDIIndicator"),
  ("AROON_UP", ofSeries "AroonUpIndicator"),
  ("AROON_DOWN", ofSeries "AroonDownIndicator"),
  ("PARABOLIC_SAR", plain "ParabolicSarIndicator"),
  -- volatility
  ("ATR", ofSeries "ATRIndicator"),
  ("BOLLINGER_UPPER", bollingerBand "BollingerBandsUpperIndicator"),
  ("BOLLINGER_MIDDLE", ⟨"BollingerBandsMiddleIndicator",
    [.new "SMAIndicator" [.input, period]]⟩),
  ("BOLLINGER_LOWER", bollingerBand "BollingerBandsLowerIndicator"),
  ("KELTNER_UPPER", keltnerBand "KeltnerChannelUpperIndicator"),
  ("KELTNER_MIDDLE", ofSeries "KeltnerChannelMiddleIndicator"),
  ("KELTNER_LOWER", keltnerBand "KeltnerChannelLowerIndicator"),
  ("DONCHIAN_UPPER", ⟨"HighestValueIndicator",
    [.new "HighPriceIndicator" [.series], period]⟩),
  ("DONCHIAN_LOWER", ⟨"LowestValueIndicator", [.new "LowPriceIndicator" [.series], period]⟩),
  ("DONCHIAN_MIDDLE", ⟨"SMAIndicator", [.new "ClosePriceIndicator" [.series], period]⟩),
  -- volume
  ("OBV", plain "OnBalanceVolumeIndicator"),
  ("CMF", ofSeries "ChaikinMoneyFlowIndicator"),
  ("AD", plain "AccumulationDistributionIndicator"),
  ("CHAIKIN_OSCILLATOR", twoPeriods "ChaikinOscillatorIndicator" .series 3 10),
  ("PVT", plain "PVIIndicator"),
  ("NVI", plain "NVIIndicator"),
  ("VWAP", ofSeries "VWAPIndicator"),
  -- prices
  ("CLOSE", plain "ClosePriceIndicator"),
  ("HIGH", plain "HighPriceIndicator"),
  ("LOW", plain "LowPriceIndicator"),
  ("OPEN", plain "OpenPriceIndicator"),
  ("VOLUME", plain "VolumeIndicator"),
  ("TYPICAL_PRICE", plain "TypicalPriceIndicator"),
  ("MEDIAN_PRICE", plain "MedianPriceIndicator"),
  ("KLINGER_VOLUME_OSCILLATOR",
    twoPeriods "KlingerVolumeOscillatorIndicator" .series 10 35),
  ("MASS_INDEX", ⟨"MassIndexIndicator",
    [massIndexEma, .new "EMAIndicator" [massIndexEma, .getInt "emaPeriod" (some 9)],
      .getInt "sumPeriod" (some 25)]⟩),
  ("STD_DEV", ofInput "StandardDeviationIndicator"),
  ("PREVIOUS", ⟨"PreviousValueIndicator", [.input, .getInt "n" (some 1)]⟩),
  ("CONSTANT", ⟨"ConstantIndicator", [.series, numOf (.getDouble "value" none)]⟩),
  ("FRAMA", ⟨"FramaIndicator", [.series, .getDouble "sc" (some (1 / 2)),
    .getInt "fc" (some 20), .getDouble "alpha" (some (1 / 2))]⟩)]

section
variable {D : Type} (runtime : JavaRuntime D) (ta4j : Ta4j D)

/-- `factories.get(type.toUpperCase())`. The names of the table are in upper case. -/
def get (type : String) : Option IndicatorFactory :=
  factories.lookup (runtime.toUpperCase type)

def hasIndicator (type : String) : Bool := (get runtime type).isSome

def create (type : String) (input : Ta4jObject D) (params : ResolvedParams D) :
    Except BuildError (Ta4jObject D) :=
  match get runtime type with
  | none => .error (.illegalArgument ("Unknown indicator type: " ++ type))
  | some factory => factory.create runtime ta4j input params

/-- The type is registered and the parameters are enough for its factory. -/
def Accepted (type : String) (params : ResolvedParams D) : Prop :=
  ∃ factory, get runtime type = some factory ∧ factory.Accepted runtime ta4j params

theorem succeeds_create_iff {type : String} {input : Ta4jObject D}
    {params : ResolvedParams D} :
    Succeeds (create runtime ta4j type input params) ↔
      Accepted runtime ta4j type params := by
  unfold create Accepted
  cases get runtime type with
  | none => simp
  | some factory => simp [factory.succeeds_create_iff]

/-- The factories of the price types read no parameter. -/
theorem accepted_of_plain {type cls : String} (htype : runtime.toUpperCase type = type)
    (hget : factories.lookup type = some (plain cls)) (params : ResolvedParams D) :
    Accepted runtime ta4j type params := by
  refine ⟨plain cls, by rw [get, htype, hget], ?_⟩
  have haccepts : (FactoryExpr.new cls [.series]).Accepted runtime ta4j params := by
    simp only [FactoryExpr.Accepted, FactoryExpr.AllAccepted, true_and]
    exact ta4j.accepts_nil cls
  exact haccepts

end

end IndicatorRegistry

end TradeStream.Configurable
