import TradeStream.SeriesLibrary

/-! The registry of indicators of the backtesting service, with the factory of each. -/
namespace TradeStream.Backtesting.IndicatorRegistry
open TradeStream.Causality

/-- What makes an indicator of the closes, the bars and the parameters. -/
abbrev Factory (D : Type) :=
  List D → List (Bar D) → Params D → Except PyError (List D)

section
variable {D : Type} (runtime : SeriesRuntime D) (lib : SeriesLibrary D)

/-! ### Averages -/

/-- `SMA` and `EMA`. -/
def movingAverage (ewm : Bool) : Factory D := fun close _ params => do
  let period ← runtime.getInt params "period" 14
  lib.ma period ewm close

def sma : Factory D := movingAverage runtime lib false

def ema : Factory D := movingAverage runtime lib true

def dema : Factory D := fun close _ params => do
  let period ← runtime.getInt params "period" 14
  let ema1 ← lib.ewmMean period close
  let ema2 ← lib.ewmMean period ema1
  return runtime.minus (runtime.scale 2 ema1) ema2

def tema : Factory D := fun close _ params => do
  let period ← runtime.getInt params "period" 14
  let ema1 ← lib.ewmMean period close
  let ema2 ← lib.ewmMean period ema1
  let ema3 ← lib.ewmMean period ema2
  return runtime.plus (runtime.minus (runtime.scale 3 ema1) (runtime.scale 3 ema2)) ema3

def wma : Factory D := fun close _ params => do
  let period ← runtime.getInt params "period" 14
  let weights := (List.range period.toNat).map fun i => runtime.lit (i + 1)
  lib.rollingApply period (fun x => runtime.div (runtime.dot x weights) (runtime.sum weights)) close

/-! ### Oscillators -/

def rsi : Factory D := fun close _ params => do
  let period ← runtime.getInt params "period" 14
  lib.rsi period close

def macd : Factory D := fun close _ params => do
  let fast ← runtime.getInt params "shortPeriod" 12
  let slow ← runtime.getInt params "longPeriod" 26
  let macd ← lib.macd (runtime.ofInt fast) (runtime.ofInt slow) (runtime.ofInt 9) close
  return macd.macd

/-- `MACD_SIGNAL` and `MACD_HIST`. -/
def macdPart (part : Macd D → List D) : Factory D := fun close _ params => do
  let fast ← runtime.getInt params "shortPeriod" 12
  let slow ← runtime.getInt params "longPeriod" 26
  let signal ← runtime.getInt params "signalPeriod" 9
  let macd ← lib.macd (runtime.ofInt fast) (runtime.ofInt slow) (runtime.ofInt signal) close
  return part macd

def macdSignal : Factory D := macdPart runtime lib Macd.signal

def macdHist : Factory D := macdPart runtime lib Macd.hist

def stochK : Factory D := fun _ ohlcv params => do
  let period ← runtime.getInt params "period" 14
  -- the window of the second line is left to vectorbt
  let stoch ← lib.stoch period 3 (ohlcv.map (·.high)) (ohlcv.map (·.low)) (ohlcv.map (·.close))
  return stoch.percentK

def stochD : Factory D := fun _ ohlcv params => do
  let kPeriod ← runtime.getInt params "kPeriod" 14
  let dPeriod ← runtime.getInt params "dPeriod" 3
  let stoch ← lib.stoch kPeriod dPeriod (ohlcv.map (·.high)) (ohlcv.map (·.low))
    (ohlcv.map (·.close))
  return stoch.percentD

/-- `(high + low + close) / 3`. -/
def typical (ohlcv : List (Bar D)) : List D :=
  runtime.dividedByConst 3
    (runtime.plus (runtime.plus (ohlcv.map (·.high)) (ohlcv.map (·.low))) (ohlcv.map (·.close)))

def cci : Factory D := fun _ ohlcv params => do
  let period ← runtime.getInt params "period" 20
  let tp := typical runtime ohlcv
  let sma ← lib.rolling period .mean tp
  let deviation (x : List D) : D :=
    runtime.mean (x.map fun y => runtime.abs (runtime.sub y (runtime.mean x)))
  let mad ← lib.rollingApply period deviation tp
  return runtime.dividedBy (runtime.minus tp sma) (runtime.scale (15 / 1000) mad)

def cmo : Factory D := fun close _ params => do
  let period ← runtime.getInt params "period" 14
  let delta := runtime.diff close
  let gain ← lib.rolling period .sum (runtime.orZero (runtime.gtConst delta (runtime.lit 0)) delta)
  let loss ← lib.rolling period .sum
    ((runtime.orZero (runtime.lessConst delta (runtime.lit 0)) delta).map runtime.neg)
  return runtime.dividedBy (runtime.scale 100 (runtime.minus gain loss)) (runtime.plus gain loss)

def williamsR : Factory D := fun close ohlcv params => do
  let period ← runtime.getInt params "period" 14
  let highest ← lib.rolling period .max (ohlcv.map (·.high))
  let lowest ← lib.rolling period .min (ohlcv.map (·.low))
  return runtime.dividedBy (runtime.scale (-100) (runtime.minus highest close))
    (runtime.minus highest lowest)

/-- The only factory that shifts by a parameter as it is. -/
def roc : Factory D := fun close _ params => do
  let period ← runtime.getInt params "period" 12
  return runtime.dividedBy (runtime.scale 100 (runtime.minus close (runtime.shift period close)))
    (runtime.shift period close)

def dpo : Factory D := fun close _ params => do
  let period ← runtime.getInt params "period" 20
  let shift := period / 2 + 1
  let sma ← lib.rolling period .mean close
  return runtime.minus (runtime.shift shift close) sma

/-! ### Trends -/

/-- `dm.where((dm > other) & (dm > 0), 0)`. -/
def directionalMovement (dm other : List D) : List D :=
  runtime.orZero (both (runtime.gt dm other) (runtime.gtConst dm (runtime.lit 0))) dm

def plusDm (ohlcv : List (Bar D)) : List D := runtime.diff (ohlcv.map (·.high))

def minusDm (ohlcv : List (Bar D)) : List D := (runtime.diff (ohlcv.map (·.low))).map runtime.neg

def trueRange (close : List D) (ohlcv : List (Bar D)) : List D :=
  let high := ohlcv.map (·.high)
  let low := ohlcv.map (·.low)
  let before := runtime.shift 1 close
  let gaps := ((runtime.minus high before).map runtime.abs).zip
    ((runtime.minus low before).map runtime.abs)
  (runtime.minus high low).zipWith (fun range gap => runtime.rowMax [range, gap.1, gap.2]) gaps

/-- `100 * dm.ewm(span=period, adjust=False).mean() / atr`. -/
def directionalIndex (period : ℤ) (dm atr : List D) : Except PyError (List D) := do
  let smoothed ← lib.ewmMean period dm
  return runtime.dividedBy (runtime.scale 100 smoothed) atr

def adx : Factory D := fun close ohlcv params => do
  let period ← runtime.getInt params "period" 14
  let plus := directionalMovement runtime (plusDm runtime ohlcv) (minusDm runtime ohlcv)
  -- held against the movement up as it is after its own condition
  let minus := directionalMovement runtime (minusDm runtime ohlcv) plus
  let atr ← lib.ewmMean period (trueRange runtime close ohlcv)
  let plusDi ← directionalIndex runtime lib period plus atr
  let minusDi ← directionalIndex runtime lib period minus atr
  let dx := runtime.dividedBy
    (runtime.scale 100 ((runtime.minus plusDi minusDi).map runtime.abs))
    (runtime.plus plusDi minusDi)
  lib.ewmMean period dx

/-- `PLUS_DI` and `MINUS_DI`: the movement of one side, held against the other's. -/
def directional (dm other : List (Bar D) → List D) : Factory D := fun close ohlcv params => do
  let period ← runtime.getInt params "period" 14
  let dm := directionalMovement runtime (dm ohlcv) (other ohlcv)
  let atr ← lib.ewmMean period (trueRange runtime close ohlcv)
  directionalIndex runtime lib period dm atr

def plusDi : Factory D := directional runtime lib (plusDm runtime) (minusDm runtime)

def minusDi : Factory D := directional runtime lib (minusDm runtime) (plusDm runtime)

/-- `100 * (period - (period - 1 - at)) / period` for the place of the extreme. -/
def aroon (column : Bar D → D) (place : List D → ℕ) : Factory D := fun _ ohlcv params => do
  let period ← runtime.getInt params "period" 25
  lib.rollingApply (period + 1)
    (fun x =>
      runtime.div (runtime.lit (100 * (period - (period - 1 - place x)))) (runtime.lit period))
    (ohlcv.map column)

def aroonUp : Factory D := aroon runtime lib (·.high) runtime.argmax

def aroonDown : Factory D := aroon runtime lib (·.low) runtime.argmin

/-- The state of the loop after a bar; `extreme` is the extreme point of the trend. -/
structure SarState (D : Type) where
  sar : D
  isUp : Bool
  extreme : D
  factor : D

/-- `min(af + af_inc, af_max)`. -/
def accelerate (inc max factor : D) : D :=
  let next := runtime.add factor inc
  if runtime.lt max next then max else next

/-- One turn of the loop, for the bar's high and low. -/
def sarStep (start inc max : D) (s : SarState D) (bar : D × D) : SarState D :=
  let (high, low) := bar
  let sar := runtime.add s.sar (runtime.mul s.factor (runtime.sub s.extreme s.sar))
  if s.isUp then
    if runtime.lt low sar then ⟨s.extreme, false, low, start⟩
    else if runtime.lt s.extreme high then ⟨sar, true, high, accelerate runtime inc max s.factor⟩
    else ⟨sar, true, s.extreme, s.factor⟩
  else
    if runtime.lt sar high then ⟨s.extreme, true, high, start⟩
    else if runtime.lt low s.extreme then ⟨sar, false, low, accelerate runtime inc max s.factor⟩
    else ⟨sar, false, s.extreme, s.factor⟩

def parabolicSar : Factory D := fun _ ohlcv params => do
  let start ← runtime.getFloat params "accelerationFactorStart" (2 / 100)
  let inc ← runtime.getFloat params "accelerationFactorIncrement" (2 / 100)
  let max ← runtime.getFloat params "accelerationFactorMax" (2 / 10)
  match ohlcv with
  | [] => .error .indexError
  | first :: bars =>
    let states := (bars.map fun bar => (bar.high, bar.low)).scanl (sarStep runtime start inc max)
      ⟨first.low, true, first.high, start⟩
    return states.map (·.sar)

/-! ### Volatility and volume -/

def atr : Factory D := fun _ ohlcv params => do
  let period ← runtime.getInt params "period" 14
  lib.atr period (ohlcv.map (·.high)) (ohlcv.map (·.low)) (ohlcv.map (·.close))

/-- `BOLLINGER_UPPER` and `BOLLINGER_LOWER`. -/
def band (part : Bands D → List D) : Factory D := fun close _ params => do
  let period ← runtime.getInt params "period" 20
  let mult ← runtime.getFloat params "multiplier" 2
  let bb ← lib.bbands period mult close
  return part bb

def bbandsUpper : Factory D := band runtime lib Bands.upper

def bbandsMiddle : Factory D := fun close _ params => do
  let period ← runtime.getInt params "period" 20
  -- the width of the bands is left to vectorbt
  let bb ← lib.bbands period (runtime.lit 2) close
  return bb.middle

def bbandsLower : Factory D := band runtime lib Bands.lower

def donchian (column : Bar D → D) (agg : Aggregation) : Factory D := fun _ ohlcv params => do
  let period ← runtime.getInt params "period" 20
  lib.rolling period agg (ohlcv.map column)

def donchianUpper : Factory D := donchian runtime lib (·.high) .max

def donchianLower : Factory D := donchian runtime lib (·.low) .min

def obv : Factory D := fun _ ohlcv _ => lib.obv (ohlcv.map (·.close)) (ohlcv.map (·.volume))

def vwap : Factory D := fun _ ohlcv params => do
  let period ← runtime.getInt params "period" 14
  let volume := ohlcv.map (·.volume)
  let traded ← lib.rolling period .sum (runtime.times (typical runtime ohlcv) volume)
  let total ← lib.rolling period .sum volume
  return runtime.dividedBy traded total

/-! ### Prices -/

/-- `CLOSE`, `HIGH`, `LOW`, `OPEN` and `VOLUME`. -/
def column (value : Bar D → D) : Factory D := fun _ ohlcv _ => .ok (ohlcv.map value)

def typicalPrice : Factory D := fun _ ohlcv _ => .ok (typical runtime ohlcv)

def medianPrice : Factory D := fun _ ohlcv _ =>
  .ok (runtime.dividedByConst 2 (runtime.plus (ohlcv.map (·.high)) (ohlcv.map (·.low))))

def constant : Factory D := fun close _ params => do
  let value ← runtime.getFloat params "value" 0
  return close.map fun _ => value

/-- `_register_defaults`. -/
def factories : List (String × Factory D) :=
  [("SMA", sma runtime lib), ("EMA", ema runtime lib), ("DEMA", dema runtime lib),
    ("TEMA", tema runtime lib), ("WMA", wma runtime lib), ("RSI", rsi runtime lib),
    ("MACD", macd runtime lib), ("MACD_SIGNAL", macdSignal runtime lib),
    ("MACD_HIST", macdHist runtime lib), ("STOCHASTIC_K", stochK runtime lib),
    ("STOCHASTIC_D", stochD runtime lib), ("CCI", cci runtime lib), ("CMO", cmo runtime lib),
    ("WILLIAMS_R", williamsR runtime lib), ("ROC", roc runtime), ("DPO", dpo runtime lib),
    ("ADX", adx runtime lib), ("PLUS_DI", plusDi runtime lib), ("MINUS_DI", minusDi runtime lib),
    ("AROON_UP", aroonUp runtime lib), ("AROON_DOWN", aroonDown runtime lib),
    ("PARABOLIC_SAR", parabolicSar runtime), ("ATR", atr runtime lib),
    ("BOLLINGER_UPPER", bbandsUpper runtime lib), ("BOLLINGER_MIDDLE", bbandsMiddle runtime lib),
    ("BOLLINGER_LOWER", bbandsLower runtime lib), ("DONCHIAN_UPPER", donchianUpper runtime lib),
    ("DONCHIAN_LOWER", donchianLower runtime lib), ("OBV", obv lib), ("VWAP", vwap runtime lib),
    ("CLOSE", column (·.close)), ("HIGH", column (·.high)), ("LOW", column (·.low)),
    ("OPEN", column (·.openPrice)), ("VOLUME", column (·.volume)),
    ("TYPICAL_PRICE", typicalPrice runtime), ("MEDIAN_PRICE", medianPrice runtime),
    ("CONSTANT", constant runtime)]

def create (name : String) : Factory D := fun close ohlcv params =>
  match (factories runtime lib).lookup (runtime.upper name) with
  | none => .error .valueError
  | some factory => factory close ohlcv params

end

/-! ### No factory looks ahead -/

/-- What the factory makes of the bars up to `t` is settled by them. -/
def Factory.Causal {D : Type} (factory : Factory D) (params : Params D) : Prop :=
  ∀ {t : ℕ} {close close' : List D} {ohlcv ohlcv' : List (Bar D)}, AgreeUpTo t close close' →
    AgreeUpTo t ohlcv ohlcv' →
    SameResult (AgreeUpTo t) (factory close ohlcv params) (factory close' ohlcv' params)

section
variable {D : Type} {runtime : SeriesRuntime D} {lib : SeriesLibrary D}
open SeriesRuntime

theorem movingAverage_causal (ewm : Bool) (params : Params D) :
    (movingAverage runtime lib ewm).Causal params := by
  intro t close close' ohlcv ohlcv' hclose _
  refine SameResult.bind_same fun period _ => ?_
  exact lib.ma_causal period ewm hclose

theorem dema_causal (params : Params D) : (dema runtime lib).Causal params := by
  intro t close close' ohlcv ohlcv' hclose _
  refine SameResult.bind_same fun period _ => ?_
  refine (lib.ewmMean_causal period hclose).bind fun ema1 ema1' h1 => ?_
  refine (lib.ewmMean_causal period h1).bind fun ema2 ema2' h2 => ?_
  exact .ok (minus_agree (scale_agree h1 2) h2)

theorem tema_causal (params : Params D) : (tema runtime lib).Causal params := by
  intro t close close' ohlcv ohlcv' hclose _
  refine SameResult.bind_same fun period _ => ?_
  refine (lib.ewmMean_causal period hclose).bind fun ema1 ema1' h1 => ?_
  refine (lib.ewmMean_causal period h1).bind fun ema2 ema2' h2 => ?_
  refine (lib.ewmMean_causal period h2).bind fun ema3 ema3' h3 => ?_
  exact .ok (plus_agree (minus_agree (scale_agree h1 3) (scale_agree h2 3)) h3)

theorem wma_causal (params : Params D) : (wma runtime lib).Causal params := by
  intro t close close' ohlcv ohlcv' hclose _
  refine SameResult.bind_same fun period _ => ?_
  exact lib.rollingApply_causal period _ hclose

theorem rsi_causal (params : Params D) : (rsi runtime lib).Causal params := by
  intro t close close' ohlcv ohlcv' hclose _
  refine SameResult.bind_same fun period _ => ?_
  exact lib.rsi_causal period hclose

theorem macd_causal (params : Params D) : (macd runtime lib).Causal params := by
  intro t close close' ohlcv ohlcv' hclose _
  refine SameResult.bind_same fun fast _ => ?_
  refine SameResult.bind_same fun slow _ => ?_
  exact (lib.macd_causal _ _ _ hclose).bind fun m m' h => .ok h.macd

/-- For a part of the result that agrees when the result does. -/
theorem macdPart_causal {part : Macd D → List D}
    (hpart : ∀ {t m m'}, Macd.Agree t m m' → AgreeUpTo t (part m) (part m')) (params : Params D) :
    (macdPart runtime lib part).Causal params := by
  intro t close close' ohlcv ohlcv' hclose _
  refine SameResult.bind_same fun fast _ => ?_
  refine SameResult.bind_same fun slow _ => ?_
  refine SameResult.bind_same fun signal _ => ?_
  exact (lib.macd_causal _ _ _ hclose).bind fun m m' h => .ok (hpart h)

theorem stochK_causal (params : Params D) : (stochK runtime lib).Causal params := by
  intro t close close' ohlcv ohlcv' _ hohlcv
  refine SameResult.bind_same fun period _ => ?_
  exact (lib.stoch_causal period 3 (hohlcv.map _) (hohlcv.map _) (hohlcv.map _)).bind
    fun s s' h => .ok h.percentK

theorem stochD_causal (params : Params D) : (stochD runtime lib).Causal params := by
  intro t close close' ohlcv ohlcv' _ hohlcv
  refine SameResult.bind_same fun kPeriod _ => ?_
  refine SameResult.bind_same fun dPeriod _ => ?_
  exact (lib.stoch_causal kPeriod dPeriod (hohlcv.map _) (hohlcv.map _) (hohlcv.map _)).bind
    fun s s' h => .ok h.percentD

theorem typical_agree {t : ℕ} {ohlcv ohlcv' : List (Bar D)} (h : AgreeUpTo t ohlcv ohlcv') :
    AgreeUpTo t (typical runtime ohlcv) (typical runtime ohlcv') :=
  dividedByConst_agree (plus_agree (plus_agree (h.map _) (h.map _)) (h.map _)) 3

theorem cci_causal (params : Params D) : (cci runtime lib).Causal params := by
  intro t close close' ohlcv ohlcv' _ hohlcv
  have htp : AgreeUpTo t (typical runtime ohlcv) (typical runtime ohlcv') := typical_agree hohlcv
  refine SameResult.bind_same fun period _ => ?_
  refine (lib.rolling_causal period .mean htp).bind fun sma sma' hsma => ?_
  refine (lib.rollingApply_causal period _ htp).bind fun mad mad' hmad => ?_
  exact .ok (dividedBy_agree (minus_agree htp hsma) (scale_agree hmad _))

theorem cmo_causal (params : Params D) : (cmo runtime lib).Causal params := by
  intro t close close' ohlcv ohlcv' hclose _
  have hdelta : AgreeUpTo t (runtime.diff close) (runtime.diff close') := diff_agree hclose
  refine SameResult.bind_same fun period _ => ?_
  refine (lib.rolling_causal period .sum (orZero_agree (hdelta.map _) hdelta)).bind
    fun gain gain' hgain => ?_
  refine (lib.rolling_causal period .sum ((orZero_agree (hdelta.map _) hdelta).map _)).bind
    fun loss loss' hloss => ?_
  exact .ok (dividedBy_agree (scale_agree (minus_agree hgain hloss) 100) (plus_agree hgain hloss))

theorem williamsR_causal (params : Params D) : (williamsR runtime lib).Causal params := by
  intro t close close' ohlcv ohlcv' hclose hohlcv
  refine SameResult.bind_same fun period _ => ?_
  refine (lib.rolling_causal period .max (hohlcv.map _)).bind fun highest highest' hhigh => ?_
  refine (lib.rolling_causal period .min (hohlcv.map _)).bind fun lowest lowest' hlow => ?_
  exact .ok (dividedBy_agree (scale_agree (minus_agree hhigh hclose) _) (minus_agree hhigh hlow))

/-- A negative period shifts later closes to the bar. -/
theorem roc_causal {params : Params D}
    (h : ∀ period, runtime.getInt params "period" 12 = .ok period → 0 ≤ period) :
    (roc runtime).Causal params := by
  intro t close close' ohlcv ohlcv' hclose _
  refine SameResult.bind_same fun period hperiod => ?_
  have hshift : AgreeUpTo t (runtime.shift period close) (runtime.shift period close') :=
    shift_agree hclose (h period hperiod)
  exact .ok (dividedBy_agree (scale_agree (minus_agree hclose hshift) 100) hshift)

/-- A negative period, which would shift the closes back, is refused by the average. -/
theorem dpo_causal (params : Params D) : (dpo runtime lib).Causal params := by
  intro t close close' ohlcv ohlcv' hclose _
  refine SameResult.bind_same fun period _ => ?_
  by_cases hperiod : period < 0
  · rw [lib.rolling_neg period .mean close hperiod, lib.rolling_neg period .mean close' hperiod]
    exact .error PyError.valueError
  · refine (lib.rolling_causal period .mean hclose).bind fun sma sma' hsma => ?_
    exact .ok (minus_agree (shift_agree hclose (by omega)) hsma)

section
variable {t : ℕ} {close close' dm dm' other other' atr atr' : List D} {ohlcv ohlcv' : List (Bar D)}

variable (runtime) in
theorem directionalMovement_agree (h : AgreeUpTo t dm dm') (h' : AgreeUpTo t other other') :
    AgreeUpTo t (directionalMovement runtime dm other) (directionalMovement runtime dm' other') :=
  orZero_agree (both_agree (gt_agree h h') (h.map _)) h

theorem plusDm_agree (h : AgreeUpTo t ohlcv ohlcv') :
    AgreeUpTo t (plusDm runtime ohlcv) (plusDm runtime ohlcv') :=
  diff_agree (h.map _)

theorem minusDm_agree (h : AgreeUpTo t ohlcv ohlcv') :
    AgreeUpTo t (minusDm runtime ohlcv) (minusDm runtime ohlcv') :=
  (diff_agree (h.map _)).map runtime.neg

theorem trueRange_agree (hclose : AgreeUpTo t close close') (h : AgreeUpTo t ohlcv ohlcv') :
    AgreeUpTo t (trueRange runtime close ohlcv) (trueRange runtime close' ohlcv') := by
  have hhigh : AgreeUpTo t (ohlcv.map (·.high)) (ohlcv'.map (·.high)) := h.map _
  have hlow : AgreeUpTo t (ohlcv.map (·.low)) (ohlcv'.map (·.low)) := h.map _
  have hbefore : AgreeUpTo t (runtime.shift 1 close) (runtime.shift 1 close') :=
    shift_one_agree hclose
  exact (minus_agree hhigh hlow).zipWith
    (((minus_agree hhigh hbefore).map runtime.abs).zip
      ((minus_agree hlow hbefore).map runtime.abs)) _

theorem directionalIndex_causal (period : ℤ) (h : AgreeUpTo t dm dm') (h' : AgreeUpTo t atr atr') :
    SameResult (AgreeUpTo t) (directionalIndex runtime lib period dm atr)
      (directionalIndex runtime lib period dm' atr') :=
  (lib.ewmMean_causal period h).bind fun _ _ hsmoothed =>
    .ok (dividedBy_agree (scale_agree hsmoothed 100) h')

end

theorem adx_causal (params : Params D) : (adx runtime lib).Causal params := by
  intro t close close' ohlcv ohlcv' hclose hohlcv
  have hplusDm : AgreeUpTo t (plusDm runtime ohlcv) (plusDm runtime ohlcv') := plusDm_agree hohlcv
  have hminusDm : AgreeUpTo t (minusDm runtime ohlcv) (minusDm runtime ohlcv') :=
    minusDm_agree hohlcv
  have hplus := directionalMovement_agree runtime hplusDm hminusDm
  have hminus := directionalMovement_agree runtime hminusDm hplus
  refine SameResult.bind_same fun period _ => ?_
  refine (lib.ewmMean_causal period (trueRange_agree hclose hohlcv)).bind fun atr atr' hatr => ?_
  refine (directionalIndex_causal period hplus hatr).bind fun plusDi plusDi' hplusDi => ?_
  refine (directionalIndex_causal period hminus hatr).bind fun minusDi minusDi' hminusDi => ?_
  have hgap : AgreeUpTo t (runtime.minus plusDi minusDi) (runtime.minus plusDi' minusDi') :=
    minus_agree hplusDi hminusDi
  exact lib.ewmMean_causal period
    (dividedBy_agree (scale_agree (hgap.map _) 100) (plus_agree hplusDi hminusDi))

/-- For the movements of the two sides, each settled by the bars. -/
theorem directional_causal {dm other : List (Bar D) → List D}
    (hdm : ∀ {t ohlcv ohlcv'}, AgreeUpTo t ohlcv ohlcv' → AgreeUpTo t (dm ohlcv) (dm ohlcv'))
    (hother : ∀ {t ohlcv ohlcv'}, AgreeUpTo t ohlcv ohlcv' →
      AgreeUpTo t (other ohlcv) (other ohlcv')) (params : Params D) :
    (directional runtime lib dm other).Causal params := by
  intro t close close' ohlcv ohlcv' hclose hohlcv
  have hmovement := directionalMovement_agree runtime (hdm hohlcv) (hother hohlcv)
  refine SameResult.bind_same fun period _ => ?_
  refine (lib.ewmMean_causal period (trueRange_agree hclose hohlcv)).bind fun atr atr' hatr => ?_
  exact directionalIndex_causal period hmovement hatr

theorem aroon_causal (column : Bar D → D) (place : List D → ℕ) (params : Params D) :
    (aroon runtime lib column place).Causal params := by
  intro t close close' ohlcv ohlcv' _ hohlcv
  refine SameResult.bind_same fun period _ => ?_
  exact lib.rollingApply_causal (period + 1) _ (hohlcv.map column)

/-- The loop's state after a bar is settled by the bars that it has read. -/
theorem parabolicSar_causal (params : Params D) : (parabolicSar runtime).Causal params := by
  intro t close close' ohlcv ohlcv' _ hohlcv
  refine SameResult.bind_same fun start _ => ?_
  refine SameResult.bind_same fun inc _ => ?_
  refine SameResult.bind_same fun max _ => ?_
  -- series that agree up to a bar have one
  match ohlcv, ohlcv', hohlcv with
  | [], _, h => exact absurd h.lt_left (Nat.not_lt_zero t)
  | _ :: _, [], h => exact absurd h.lt_right (Nat.not_lt_zero t)
  | first :: bars, first' :: bars', h =>
    obtain rfl := h.head_eq
    have hranges : AgreeUpTo t ((first.high, first.low) :: bars.map fun bar => (bar.high, bar.low))
        ((first.high, first.low) :: bars'.map fun bar => (bar.high, bar.low)) :=
      h.map fun bar => (bar.high, bar.low)
    exact .ok ((hranges.scanl _ _).map SarState.sar)

theorem atr_causal (params : Params D) : (atr runtime lib).Causal params := by
  intro t close close' ohlcv ohlcv' _ hohlcv
  refine SameResult.bind_same fun period _ => ?_
  exact lib.atr_causal period (hohlcv.map _) (hohlcv.map _) (hohlcv.map _)

theorem band_causal {part : Bands D → List D}
    (hpart : ∀ {t b b'}, Bands.Agree t b b' → AgreeUpTo t (part b) (part b')) (params : Params D) :
    (band runtime lib part).Causal params := by
  intro t close close' ohlcv ohlcv' hclose _
  refine SameResult.bind_same fun period _ => ?_
  refine SameResult.bind_same fun mult _ => ?_
  exact (lib.bbands_causal period mult hclose).bind fun b b' h => .ok (hpart h)

theorem bbandsMiddle_causal (params : Params D) : (bbandsMiddle runtime lib).Causal params := by
  intro t close close' ohlcv ohlcv' hclose _
  refine SameResult.bind_same fun period _ => ?_
  exact (lib.bbands_causal period _ hclose).bind fun b b' h => .ok h.middle

theorem donchian_causal (column : Bar D → D) (agg : Aggregation) (params : Params D) :
    (donchian runtime lib column agg).Causal params := by
  intro t close close' ohlcv ohlcv' _ hohlcv
  refine SameResult.bind_same fun period _ => ?_
  exact lib.rolling_causal period agg (hohlcv.map column)

theorem obv_causal (params : Params D) : (obv lib).Causal params := by
  intro t close close' ohlcv ohlcv' _ hohlcv
  exact lib.obv_causal (hohlcv.map _) (hohlcv.map _)

theorem vwap_causal (params : Params D) : (vwap runtime lib).Causal params := by
  intro t close close' ohlcv ohlcv' _ hohlcv
  have hvolume : AgreeUpTo t (ohlcv.map (·.volume)) (ohlcv'.map (·.volume)) := hohlcv.map _
  refine SameResult.bind_same fun period _ => ?_
  refine (lib.rolling_causal period .sum (times_agree (typical_agree hohlcv) hvolume)).bind
    fun traded traded' htraded => ?_
  refine (lib.rolling_causal period .sum hvolume).bind fun total total' htotal => ?_
  exact .ok (dividedBy_agree htraded htotal)

theorem column_causal (value : Bar D → D) (params : Params D) :
    (column value).Causal params := by
  intro t close close' ohlcv ohlcv' _ hohlcv
  exact .ok (hohlcv.map value)

theorem medianPrice_causal (params : Params D) : (medianPrice runtime).Causal params := by
  intro t close close' ohlcv ohlcv' _ hohlcv
  exact .ok (dividedByConst_agree (plus_agree (hohlcv.map _) (hohlcv.map _)) 2)

theorem constant_causal (params : Params D) : (constant runtime).Causal params := by
  intro t close close' ohlcv ohlcv' hclose _
  refine SameResult.bind_same fun value _ => ?_
  exact .ok (hclose.map _)

variable (runtime) in
/-- Only `ROC` shifts by its parameter: the period must not be negative there. -/
def Forward (name : String) (params : Params D) : Prop :=
  runtime.upper name = "ROC" →
    ∀ period, runtime.getInt params "period" 12 = .ok period → 0 ≤ period

/-- Each factory by its own lemma. -/
theorem factories_causal {params : Params D} :
    ∀ entry ∈ factories runtime lib, (entry.1 = "ROC" →
      ∀ period, runtime.getInt params "period" 12 = .ok period → 0 ≤ period) →
        entry.2.Causal params := by
  simp only [factories, List.forall_mem_cons, List.not_mem_nil, false_implies, implies_true,
    and_true]
  exact ⟨fun _ => movingAverage_causal false params, fun _ => movingAverage_causal true params,
    fun _ => dema_causal params, fun _ => tema_causal params, fun _ => wma_causal params,
    fun _ => rsi_causal params, fun _ => macd_causal params,
    fun _ => macdPart_causal Macd.Agree.signal params,
    fun _ => macdPart_causal Macd.Agree.hist params, fun _ => stochK_causal params,
    fun _ => stochD_causal params, fun _ => cci_causal params, fun _ => cmo_causal params,
    fun _ => williamsR_causal params, fun h => roc_causal (h trivial), fun _ => dpo_causal params,
    fun _ => adx_causal params, fun _ => directional_causal plusDm_agree minusDm_agree params,
    fun _ => directional_causal minusDm_agree plusDm_agree params,
    fun _ => aroon_causal _ _ params, fun _ => aroon_causal _ _ params,
    fun _ => parabolicSar_causal params, fun _ => atr_causal params,
    fun _ => band_causal Bands.Agree.upper params, fun _ => bbandsMiddle_causal params,
    fun _ => band_causal Bands.Agree.lower params, fun _ => donchian_causal _ _ params,
    fun _ => donchian_causal _ _ params, fun _ => obv_causal params, fun _ => vwap_causal params,
    fun _ => column_causal _ params, fun _ => column_causal _ params,
    fun _ => column_causal _ params, fun _ => column_causal _ params,
    fun _ => column_causal _ params, fun _ _ _ _ _ _ _ h => .ok (typical_agree h),
    fun _ => medianPrice_causal params, fun _ => constant_causal params⟩

/-- An indicator of the registry looks at no later bar. -/
theorem create_causal {name : String} {params : Params D} (h : Forward runtime name params) :
    (create runtime lib name).Causal params := by
  intro t close close' ohlcv ohlcv' hclose hohlcv
  unfold create
  cases hlookup : (factories runtime lib).lookup (runtime.upper name) with
  | none => exact .error PyError.valueError
  | some factory =>
    obtain ⟨before, after, hsplit, -⟩ := List.lookup_eq_some_iff.mp hlookup
    have hmem : (runtime.upper name, factory) ∈ factories runtime lib := by simp [hsplit]
    exact factories_causal _ hmem h hclose hohlcv

end

end TradeStream.Backtesting.IndicatorRegistry
