import TradeStream.ConditionEvaluator

/-! `IndicatorComputer` of the strategy execution engine: the series of every indicator
over a buffer of candles, in exact arithmetic. -/
namespace TradeStream.StrategyExecution
open TradeStream.Backtesting

/-- What the engine takes from Python for texts and numbers. -/
structure EngineRuntime extends PythonRuntime ℚ where
  /-- `int` of a text; `none` stands for a `ValueError`. -/
  parseInt : String → Option ℤ

structure Candle where
  timestamp : ℚ
  openPrice : ℚ
  high : ℚ
  low : ℚ
  close : ℚ
  volume : ℚ
  deriving DecidableEq

/-- A dict of parameters. -/
abbrev Params := String → Option (PyValue ℚ)

structure IndicatorConfig where
  id : String
  type : String
  input : String
  params : Params

/-! ### Python's numbers and sequences -/

/-- `int`: a number is truncated. -/
def EngineRuntime.int (runtime : EngineRuntime) : PyValue ℚ → Except PyError ℤ
  | .bool b => .ok (if b then 1 else 0)
  | .number x => .ok (if x < 0 then ⌈x⌉ else ⌊x⌋)
  | .string s =>
    match runtime.parseInt s with
    | some n => .ok n
    | none => .error .valueError
  | .none | .container _ => .error .typeError

/-- `int(params.get(key, default))`. -/
def getInt (runtime : EngineRuntime) (params : Params) (key : String) (default : ℚ) :
    Except PyError ℤ :=
  runtime.int ((params key).getD (.number default))

/-- `x / y`. -/
def divide (x y : ℚ) : Except PyError ℚ :=
  if y = 0 then .error .zeroDivisionError else .ok (x / y)

/-- `series[i]`: an index below zero counts from the end. -/
def getItem (series : List ℚ) (i : ℤ) : Except PyError ℚ :=
  let i := if i < 0 then i + series.length else i
  if i < 0 then .error .indexError
  else match series[i.toNat]? with
    | some x => .ok x
    | none => .error .indexError

/-- `range(start, stop)`. -/
def pyRange (start stop : ℤ) : List ℤ :=
  (List.range (stop - start).toNat).map fun i => start + i

/-! ### The indicators -/

/-- The mean of the last `period` values at every position, or of all so far where there
are fewer. -/
def sma (series : List ℚ) (period : ℤ) : Except PyError (List ℚ) :=
  (List.range series.length).mapM fun (i : ℕ) =>
    if i < period - 1 then divide (series.take (i + 1)).sum (i + 1)
    else divide ((series.take (i + 1)).drop (i - period + 1).toNat).sum period

def ema (series : List ℚ) (period : ℤ) : Except PyError (List ℚ) :=
  match series with
  | [] => .ok []
  | first :: rest => do
    let multiplier ← divide 2 (period + 1)
    return rest.scanl (fun prev x => x * multiplier + prev * (1 - multiplier)) first

/-- The strength at one position, from the averages. -/
def rsiValue (avgGain avgLoss : ℚ) : Except PyError ℚ :=
  if avgLoss = 0 then .ok 100
  else do
    let rs ← divide avgGain avgLoss
    let share ← divide 100 (1 + rs)
    return 100 - share

/-- The first loop of `_compute_rsi`: gains, losses and the result so far. -/
def rsiWarmUp (series : List ℚ) (period : ℤ) : Except PyError (ℚ × ℚ × List ℚ) :=
  (pyRange 1 (min (period + 1) series.length)).foldlM (fun (gains, losses, result) i => do
    let curr ← getItem series i
    let prev ← getItem series (i - 1)
    let delta := curr - prev
    let gains := if 0 < delta then gains + delta else gains
    let losses := if 0 < delta then losses else losses - delta
    let avgGain ← divide gains i
    let avgLoss ← divide losses i
    let value ← rsiValue avgGain avgLoss
    return (gains, losses, result ++ [value])) (0, 0, [50])

/-- The second loop, on the averages. -/
def rsiSmooth (series : List ℚ) (period : ℤ) (averages : ℚ × ℚ) (result : List ℚ) :
    Except PyError (List ℚ) := do
  let (_, _, result) ← (pyRange (period + 1) series.length).foldlM
    (fun (avgGain, avgLoss, result) i => do
      let curr ← getItem series i
      let prev ← getItem series (i - 1)
      let delta := curr - prev
      let avgGain ← divide (avgGain * (period - 1) + if 0 < delta then delta else 0) period
      let avgLoss ← divide (avgLoss * (period - 1) - if 0 < delta then 0 else delta) period
      let value ← rsiValue avgGain avgLoss
      return (avgGain, avgLoss, result ++ [value])) (averages.1, averages.2, result)
  return result

def rsi (series : List ℚ) (period : ℤ) : Except PyError (List ℚ) :=
  if series.length < 2 then .ok (List.replicate series.length 50)
  else do
    let (gains, losses, result) ← rsiWarmUp series period
    if period < series.length then
      let avgGain ← divide gains period
      let avgLoss ← divide losses period
      rsiSmooth series period (avgGain, avgLoss) result
    else return result

/-- The total of the volumes, each with the sign of the move. -/
def obv (series volumes : List ℚ) : Except PyError (List ℚ) :=
  if series = [] ∨ volumes = [] then .ok []
  else do
    let (_, result) ← (pyRange 1 series.length).foldlM (fun (total, result) i => do
      let curr ← getItem series i
      let prev ← getItem series (i - 1)
      let total ←
        if prev < curr then (getItem volumes i).map fun volume => total + volume
        else if curr < prev then (getItem volumes i).map fun volume => total - volume
        else .ok total
      return (total, result ++ [total])) ((0 : ℚ), [0])
    return result

section
variable (runtime : EngineRuntime) (series : List ℚ) (params : Params) (candles : List Candle)

def computeSma : Except PyError (List ℚ) := do
  let period ← getInt runtime params "period" 20
  sma series period

def computeEma : Except PyError (List ℚ) := do
  let period ← getInt runtime params "period" 20
  ema series period

def computeRsi : Except PyError (List ℚ) := do
  let period ← getInt runtime params "period" 14
  rsi series period

def computeMacd : Except PyError (List ℚ) := do
  let shortPeriod ← getInt runtime params "shortPeriod" 12
  let longPeriod ← getInt runtime params "longPeriod" 26
  let shortEma ← ema series shortPeriod
  let longEma ← ema series longPeriod
  return List.zipWith (fun s l => s - l) shortEma longEma

def computeObv : Except PyError (List ℚ) :=
  obv series (candles.map Candle.volume)

def computeConstant : Except PyError (List ℚ) := do
  let value ← runtime.float ((params "value").getD (.number 0))
  return List.replicate series.length value

/-- `_compute_indicator`, with `_INDICATOR_REGISTRY`. An unknown type passes its input
through. -/
def computeIndicator (indicatorType : String) : Except PyError (List ℚ) :=
  let indicatorType := runtime.upper indicatorType
  if indicatorType = "SMA" then computeSma runtime series params
  else if indicatorType = "EMA" then computeEma runtime series params
  else if indicatorType = "RSI" then computeRsi runtime series params
  else if indicatorType = "MACD" then computeMacd runtime series params
  else if indicatorType = "OBV" then computeObv series candles
  else if indicatorType = "CLOSE" then .ok (candles.map Candle.close)
  else if indicatorType = "CONSTANT" then computeConstant runtime series params
  else .ok series

end

/-- `_resolve_params`. -/
def resolveParams (params : Params) (parameterValues : String → Option ℚ) : Params :=
  fun key => (params key).map fun
    | .string s =>
      match parameterName s with
      | some name => .number ((parameterValues name).getD 0)
      | none => .string s
    | value => value

/-- The series of the candles themselves. -/
def baseSeries (candles : List Candle) : String → Option (List ℚ)
  | "close" => some (candles.map Candle.close)
  | "high" => some (candles.map Candle.high)
  | "low" => some (candles.map Candle.low)
  | "volume" => some (candles.map Candle.volume)
  | "open" => some (candles.map Candle.openPrice)
  | _ => none

/-- A round of the loop of `compute`. -/
def addIndicator (runtime : EngineRuntime) (parameterValues : String → Option ℚ)
    (candles : List Candle) (results : String → Option (List ℚ)) (ind : IndicatorConfig) :
    Except PyError (String → Option (List ℚ)) := do
  let inputSeries := (results ind.input).getD ((results "close").getD [])
  let params := resolveParams ind.params parameterValues
  let series ← computeIndicator runtime inputSeries params candles ind.type
  return Function.update results ind.id (some series)

/-- `compute`: the series under every id. -/
def compute (runtime : EngineRuntime) (candles : List Candle)
    (indicators : List IndicatorConfig) (parameterValues : String → Option ℚ) :
    Except PyError (String → Option (List ℚ)) :=
  indicators.foldlM (addIndicator runtime parameterValues candles) (baseSeries candles)

end TradeStream.StrategyExecution
