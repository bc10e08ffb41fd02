import TradeStream.VectorBtIndicators

/-! The named strategies of `VectorBTRunner`: the entry and exit signals of each. A list of
windows, from which vectorbt makes several columns, is left out. -/
namespace TradeStream.Backtesting.VectorBTRunner
open TradeStream.Causality IndicatorRegistry

/-- Entries and exits. -/
abbrev Signals := List Bool × List Bool

def SignalsAgreeUpTo (t : ℕ) (a b : Signals) : Prop :=
  AgreeUpTo t a.1 b.1 ∧ AgreeUpTo t a.2 b.2

section
variable {D : Type} (runtime : SeriesRuntime D)

/-- `(a.shift(1) <= b.shift(1)) & (a > b)`. -/
def crossesUp (a b : List D) : List Bool :=
  both (runtime.lessEq (runtime.shift 1 a) (runtime.shift 1 b)) (runtime.gt a b)

/-- `(a.shift(1) >= b.shift(1)) & (a < b)`. -/
def crossesDown (a b : List D) : List Bool :=
  both (runtime.ge (runtime.shift 1 a) (runtime.shift 1 b)) (runtime.less a b)

/-- `(a.shift(1) <= c) & (a > c)`. -/
def crossesUpConst (a : List D) (c : D) : List Bool :=
  both (runtime.lessEqConst (runtime.shift 1 a) c) (runtime.gtConst a c)

/-- `(a.shift(1) >= c) & (a < c)`. -/
def crossesDownConst (a : List D) (c : D) : List Bool :=
  both (runtime.geConst (runtime.shift 1 a) c) (runtime.lessConst a c)

/-- `params.get(key, default)`. -/
def param (params : Params D) (key : String) (default : ℚ) : PyValue D :=
  (params key).getD (.number (runtime.lit default))

/-- `{"period": period}`. -/
def periodOnly (period : PyValue D) : Params D :=
  Function.update (fun _ => none) "period" (some period)

variable (lib : SeriesLibrary D) (ohlcv : List (Bar D)) (params : Params D)

/-- An indicator of the closes of the bars. -/
def create (name : String) (params : Params D) : Except PyError (List D) :=
  IndicatorRegistry.create runtime lib name (ohlcv.map (·.close)) ohlcv params

def smaRsiSignals : Except PyError Signals := do
  let close := ohlcv.map (·.close)
  let oversold := param runtime params "oversoldThreshold" 30
  let overbought := param runtime params "overboughtThreshold" 70
  let sma ← create runtime lib ohlcv "SMA"
    (periodOnly (param runtime params "movingAveragePeriod" 20))
  let rsi ← create runtime lib ohlcv "RSI" (periodOnly (param runtime params "rsiPeriod" 14))
  let oversold ← runtime.operand oversold
  let entries := both (runtime.gt close sma) (crossesUpConst runtime rsi oversold)
  let overbought ← runtime.operand overbought
  let exits := either (runtime.less close sma) (crossesDownConst runtime rsi overbought)
  return (entries, exits)

def macdCrossoverSignals : Except PyError Signals := do
  let macd ← lib.macd (param runtime params "shortEmaPeriod" 12)
    (param runtime params "longEmaPeriod" 26) (param runtime params "signalPeriod" 9)
    (ohlcv.map (·.close))
  return (macd.crossedAbove, macd.crossedBelow)

def emaMacdSignals : Except PyError Signals := do
  let shortEma := param runtime params "shortEmaPeriod" 12
  let longEma := param runtime params "longEmaPeriod" 26
  let signalPeriod := param runtime params "signalPeriod" 9
  let emaShort ← create runtime lib ohlcv "EMA" (periodOnly shortEma)
  let emaLong ← create runtime lib ohlcv "EMA" (periodOnly longEma)
  let macd ← lib.macd shortEma longEma signalPeriod (ohlcv.map (·.close))
  let macdBullish := runtime.gt macd.macd macd.signal
  let entries := both (changes (runtime.gt emaShort emaLong)) macdBullish
  let macdBearish := runtime.less macd.macd macd.signal
  let exits := either (changes (runtime.less emaShort emaLong))
    (both (changes macdBearish) macdBearish)
  return (entries, exits)

def smaEmaCrossoverSignals : Except PyError Signals := do
  let sma ← create runtime lib ohlcv "SMA" (periodOnly (param runtime params "smaPeriod" 20))
  let ema ← create runtime lib ohlcv "EMA" (periodOnly (param runtime params "emaPeriod" 10))
  return (crossesUp runtime ema sma, crossesDown runtime ema sma)

def rsiEmaCrossoverSignals : Except PyError Signals := do
  let close := ohlcv.map (·.close)
  let rsi ← create runtime lib ohlcv "RSI" (periodOnly (param runtime params "rsiPeriod" 14))
  let ema ← create runtime lib ohlcv "EMA" (periodOnly (param runtime params "emaPeriod" 20))
  let entries := both (crossesUp runtime close ema) (runtime.lessConst rsi (runtime.lit 50))
  let exits := either (crossesDown runtime close ema) (runtime.gtConst rsi (runtime.lit 70))
  return (entries, exits)

def bbandsSignals : Except PyError Signals := do
  let close := ohlcv.map (·.close)
  let period := param runtime params "period" 20
  let mult := param runtime params "multiplier" 2
  let lower ← create runtime lib ohlcv "BOLLINGER_LOWER"
    (Function.update (periodOnly period) "multiplier" (some mult))
  let middle ← create runtime lib ohlcv "BOLLINGER_MIDDLE" (periodOnly period)
  return (crossesDown runtime close lower, crossesUp runtime close middle)

def adxStochasticSignals : Except PyError Signals := do
  let oversold := param runtime params "oversoldThreshold" 20
  let overbought := param runtime params "overboughtThreshold" 80
  let adx ← create runtime lib ohlcv "ADX" (periodOnly (param runtime params "adxPeriod" 14))
  let stoch ← create runtime lib ohlcv "STOCHASTIC_K"
    (periodOnly (param runtime params "stochasticKPeriod" 14))
  let oversold ← runtime.operand oversold
  let entries := both (runtime.gtConst adx (runtime.lit 25)) (crossesUpConst runtime stoch oversold)
  let overbought ← runtime.operand overbought
  return (entries, crossesDownConst runtime stoch overbought)

def doubleEmaCrossoverSignals : Except PyError Signals := do
  let shortEma ← create runtime lib ohlcv "EMA"
    (periodOnly (param runtime params "shortEmaPeriod" 12))
  let longEma ← create runtime lib ohlcv "EMA"
    (periodOnly (param runtime params "longEmaPeriod" 26))
  return (crossesUp runtime shortEma longEma, crossesDown runtime shortEma longEma)

def tripleEmaCrossoverSignals : Except PyError Signals := do
  let shortEma ← create runtime lib ohlcv "EMA"
    (periodOnly (param runtime params "shortEmaPeriod" 5))
  let mediumEma ← create runtime lib ohlcv "EMA"
    (periodOnly (param runtime params "mediumEmaPeriod" 13))
  let longEma ← create runtime lib ohlcv "EMA"
    (periodOnly (param runtime params "longEmaPeriod" 21))
  let bullish := both (runtime.gt shortEma mediumEma) (runtime.gt mediumEma longEma)
  -- `~bullish.shift(1).fillna(False)`
  let notBefore := (Causality.shift false 1 bullish).map not
  return (both bullish notBefore, crossesDown runtime shortEma mediumEma)

/-- `_generate_signals`. -/
def generateSignals (strategyName : String) : Except PyError Signals :=
  match strategyName with
  | "SMA_RSI" => smaRsiSignals runtime lib ohlcv params
  | "MACD_CROSSOVER" => macdCrossoverSignals runtime lib ohlcv params
  | "EMA_MACD" => emaMacdSignals runtime lib ohlcv params
  | "SMA_EMA_CROSSOVER" => smaEmaCrossoverSignals runtime lib ohlcv params
  | "RSI_EMA_CROSSOVER" => rsiEmaCrossoverSignals runtime lib ohlcv params
  | "BOLLINGER_BANDS" => bbandsSignals runtime lib ohlcv params
  | "ADX_STOCHASTIC" => adxStochasticSignals runtime lib ohlcv params
  | "DOUBLE_EMA_CROSSOVER" => doubleEmaCrossoverSignals runtime lib ohlcv params
  | "TRIPLE_EMA_CROSSOVER" => tripleEmaCrossoverSignals runtime lib ohlcv params
  | _ => .error .valueError

end

/-! ### No strategy looks ahead -/

section
variable {D : Type} {runtime : SeriesRuntime D} {lib : SeriesLibrary D} {t : ℕ}
  {a a' b b' : List D} {ohlcv ohlcv' : List (Bar D)}
open SeriesRuntime

theorem crossesUp_agree (h : AgreeUpTo t a a') (h' : AgreeUpTo t b b') :
    AgreeUpTo t (crossesUp runtime a b) (crossesUp runtime a' b') :=
  both_agree (lessEq_agree (shift_one_agree h) (shift_one_agree h')) (gt_agree h h')

theorem crossesDown_agree (h : AgreeUpTo t a a') (h' : AgreeUpTo t b b') :
    AgreeUpTo t (crossesDown runtime a b) (crossesDown runtime a' b') :=
  both_agree (ge_agree (shift_one_agree h) (shift_one_agree h')) (less_agree h h')

theorem crossesUpConst_agree (h : AgreeUpTo t a a') (c : D) :
    AgreeUpTo t (crossesUpConst runtime a c) (crossesUpConst runtime a' c) :=
  both_agree ((shift_one_agree h).map _) (h.map _)

theorem crossesDownConst_agree (h : AgreeUpTo t a a') (c : D) :
    AgreeUpTo t (crossesDownConst runtime a c) (crossesDownConst runtime a' c) :=
  both_agree ((shift_one_agree h).map _) (h.map _)

/-- Names in capitals other than `ROC` are looked up as they are. -/
theorem forward_of_ne {name : String} (hupper : ∀ c ∈ name.toList, c.isUpper = true ∨ c = '_')
    (hne : name ≠ "ROC") (params : Params D) : Forward runtime name params := by
  intro hroc
  rw [runtime.upper_of_upper name hupper] at hroc
  exact absurd hroc hne

/-- The indicators that the strategies name. -/
def usedIndicators : List String :=
  ["SMA", "EMA", "RSI", "BOLLINGER_LOWER", "BOLLINGER_MIDDLE", "ADX", "STOCHASTIC_K"]

theorem create_agree {name : String} (hname : name ∈ usedIndicators) (params : Params D)
    (h : AgreeUpTo t ohlcv ohlcv') :
    SameResult (AgreeUpTo t) (create runtime lib ohlcv name params)
      (create runtime lib ohlcv' name params) := by
  have hforward : Forward runtime name params := by
    have hupper : usedIndicators.all (fun name => name.toList.all fun c => c.isUpper || c = '_') =
        true := by rfl
    have hne : name ≠ "ROC" := by
      rintro rfl
      exact absurd hname (by decide)
    refine forward_of_ne (fun c hc => ?_) hne params
    simpa using List.all_eq_true.mp (List.all_eq_true.mp hupper name hname) c hc
  exact create_causal hforward (h.map (·.close)) h

theorem smaRsiSignals_causal (params : Params D) (h : AgreeUpTo t ohlcv ohlcv') :
    SameResult (SignalsAgreeUpTo t) (smaRsiSignals runtime lib ohlcv params)
      (smaRsiSignals runtime lib ohlcv' params) := by
  have hclose : AgreeUpTo t (ohlcv.map (·.close)) (ohlcv'.map (·.close)) := h.map _
  refine (create_agree (by decide) _ h).bind fun sma sma' hsma => ?_
  refine (create_agree (by decide) _ h).bind fun rsi rsi' hrsi => ?_
  refine SameResult.bind_same fun oversold _ => ?_
  refine SameResult.bind_same fun overbought _ => ?_
  exact .ok ⟨both_agree (gt_agree hclose hsma) (crossesUpConst_agree hrsi oversold),
    either_agree (less_agree hclose hsma) (crossesDownConst_agree hrsi overbought)⟩

theorem macdCrossoverSignals_causal (params : Params D) (h : AgreeUpTo t ohlcv ohlcv') :
    SameResult (SignalsAgreeUpTo t) (macdCrossoverSignals runtime lib ohlcv params)
      (macdCrossoverSignals runtime lib ohlcv' params) := by
  refine (lib.macd_causal _ _ _ (h.map _)).bind fun macd macd' hmacd => ?_
  exact .ok ⟨hmacd.crossedAbove, hmacd.crossedBelow⟩

theorem emaMacdSignals_causal (params : Params D) (h : AgreeUpTo t ohlcv ohlcv') :
    SameResult (SignalsAgreeUpTo t) (emaMacdSignals runtime lib ohlcv params)
      (emaMacdSignals runtime lib ohlcv' params) := by
  refine (create_agree (by decide) _ h).bind fun emaShort emaShort' hshort => ?_
  refine (create_agree (by decide) _ h).bind fun emaLong emaLong' hlong => ?_
  refine (lib.macd_causal _ _ _ (h.map _)).bind fun macd macd' hmacd => ?_
  -- a change of a truth value looks at the bar before
  have hbearish : AgreeUpTo t (runtime.less macd.macd macd.signal)
      (runtime.less macd'.macd macd'.signal) := less_agree hmacd.macd hmacd.signal
  exact .ok ⟨both_agree (changes_agree (gt_agree hshort hlong)) (gt_agree hmacd.macd hmacd.signal),
    either_agree (changes_agree (less_agree hshort hlong))
      (both_agree (changes_agree hbearish) hbearish)⟩

theorem smaEmaCrossoverSignals_causal (params : Params D) (h : AgreeUpTo t ohlcv ohlcv') :
    SameResult (SignalsAgreeUpTo t) (smaEmaCrossoverSignals runtime lib ohlcv params)
      (smaEmaCrossoverSignals runtime lib ohlcv' params) := by
  refine (create_agree (by decide) _ h).bind fun sma sma' hsma => ?_
  refine (create_agree (by decide) _ h).bind fun ema ema' hema => ?_
  exact .ok ⟨crossesUp_agree hema hsma, crossesDown_agree hema hsma⟩

theorem rsiEmaCrossoverSignals_causal (params : Params D) (h : AgreeUpTo t ohlcv ohlcv') :
    SameResult (SignalsAgreeUpTo t) (rsiEmaCrossoverSignals runtime lib ohlcv params)
      (rsiEmaCrossoverSignals runtime lib ohlcv' params) := by
  have hclose : AgreeUpTo t (ohlcv.map (·.close)) (ohlcv'.map (·.close)) := h.map _
  refine (create_agree (by decide) _ h).bind fun rsi rsi' hrsi => ?_
  refine (create_agree (by decide) _ h).bind fun ema ema' hema => ?_
  exact .ok ⟨both_agree (crossesUp_agree hclose hema) (hrsi.map _),
    either_agree (crossesDown_agree hclose hema) (hrsi.map _)⟩

theorem bbandsSignals_causal (params : Params D) (h : AgreeUpTo t ohlcv ohlcv') :
    SameResult (SignalsAgreeUpTo t) (bbandsSignals runtime lib ohlcv params)
      (bbandsSignals runtime lib ohlcv' params) := by
  have hclose : AgreeUpTo t (ohlcv.map (·.close)) (ohlcv'.map (·.close)) := h.map _
  refine (create_agree (by decide) _ h).bind fun lower lower' hlower => ?_
  refine (create_agree (by decide) _ h).bind fun middle middle' hmiddle => ?_
  exact .ok ⟨crossesDown_agree hclose hlower, crossesUp_agree hclose hmiddle⟩

theorem adxStochasticSignals_causal (params : Params D) (h : AgreeUpTo t ohlcv ohlcv') :
    SameResult (SignalsAgreeUpTo t) (adxStochasticSignals runtime lib ohlcv params)
      (adxStochasticSignals runtime lib ohlcv' params) := by
  refine (create_agree (by decide) _ h).bind fun adx adx' hadx => ?_
  refine (create_agree (by decide) _ h).bind fun stoch stoch' hstoch => ?_
  refine SameResult.bind_same fun oversold _ => ?_
  refine SameResult.bind_same fun overbought _ => ?_
  exact .ok ⟨both_agree (hadx.map _) (crossesUpConst_agree hstoch oversold),
    crossesDownConst_agree hstoch overbought⟩

theorem doubleEmaCrossoverSignals_causal (params : Params D) (h : AgreeUpTo t ohlcv ohlcv') :
    SameResult (SignalsAgreeUpTo t) (doubleEmaCrossoverSignals runtime lib ohlcv params)
      (doubleEmaCrossoverSignals runtime lib ohlcv' params) := by
  refine (create_agree (by decide) _ h).bind fun shortEma shortEma' hshort => ?_
  refine (create_agree (by decide) _ h).bind fun longEma longEma' hlong => ?_
  exact .ok ⟨crossesUp_agree hshort hlong, crossesDown_agree hshort hlong⟩

theorem tripleEmaCrossoverSignals_causal (params : Params D) (h : AgreeUpTo t ohlcv ohlcv') :
    SameResult (SignalsAgreeUpTo t) (tripleEmaCrossoverSignals runtime lib ohlcv params)
      (tripleEmaCrossoverSignals runtime lib ohlcv' params) := by
  refine (create_agree (by decide) _ h).bind fun shortEma shortEma' hshort => ?_
  refine (create_agree (by decide) _ h).bind fun mediumEma mediumEma' hmedium => ?_
  refine (create_agree (by decide) _ h).bind fun longEma longEma' hlong => ?_
  have hbullish : AgreeUpTo t
      (both (runtime.gt shortEma mediumEma) (runtime.gt mediumEma longEma))
      (both (runtime.gt shortEma' mediumEma') (runtime.gt mediumEma' longEma')) :=
    both_agree (gt_agree hshort hmedium) (gt_agree hmedium hlong)
  exact .ok ⟨both_agree hbullish ((hbullish.shift false Int.one_nonneg).map not),
    crossesDown_agree hshort hmedium⟩

/-- The signals of a named strategy look at no later bar. -/
theorem generateSignals_causal (strategyName : String) (params : Params D)
    (h : AgreeUpTo t ohlcv ohlcv') :
    SameResult (SignalsAgreeUpTo t) (generateSignals runtime lib ohlcv params strategyName)
      (generateSignals runtime lib ohlcv' params strategyName) := by
  unfold generateSignals
  split
  · exact smaRsiSignals_causal params h
  · exact macdCrossoverSignals_causal params h
  · exact emaMacdSignals_causal params h
  · exact smaEmaCrossoverSignals_causal params h
  · exact rsiEmaCrossoverSignals_causal params h
  · exact bbandsSignals_causal params h
  · exact adxStochasticSignals_causal params h
  · exact doubleEmaCrossoverSignals_causal params h
  · exact tripleEmaCrossoverSignals_causal params h
  · exact .error PyError.valueError

end

end TradeStream.Backtesting.VectorBTRunner
