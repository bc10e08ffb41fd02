import TradeStream.IndicatorComputer

/-! `StrategyExecutionEngine`: strategies that are started, fed candles and stopped. The
clock is an argument, and listeners are left out: unless they raise they only watch. -/
namespace TradeStream.StrategyExecution
open TradeStream.Backtesting

inductive SignalDirection where
  | buy
  | sell
  | none
  deriving DecidableEq, Repr

inductive StrategyStatus where
  | idle
  | running
  | stopped
  | error
  deriving DecidableEq, Repr

inductive PositionState where
  | flat
  | long
  | short
  deriving DecidableEq, Repr

structure Signal where
  strategyId : String
  symbol : String
  direction : SignalDirection
  confidence : ℚ
  entryPrice : ℚ
  stopLoss : Option ℚ
  takeProfit : Option ℚ
  reason : String
  timestamp : ℚ
  deriving DecidableEq

structure StrategyState where
  strategyId : String := ""
  status : StrategyStatus := .idle
  position : PositionState := .flat
  entryTime : Option ℚ := none
  entryPrice : Option ℚ := none
  currentPrice : Option ℚ := none
  unrealizedPnl : ℚ := 0
  realizedPnl : ℚ := 0
  totalTrades : ℕ := 0
  winningTrades : ℕ := 0
  losingTrades : ℕ := 0
  lastSignalTime : Option ℚ := none
  errorMessage : Option PyError := none

structure StrategyConfig where
  name : String
  indicators : List IndicatorConfig
  entryConditions : List (Condition ℚ)
  exitConditions : List (Condition ℚ)
  /-- Names and default values. -/
  parameters : List (String × ℚ)

structure ExecutionContext where
  strategyId : String
  config : StrategyConfig
  symbol : String
  timeframe : String
  parameterValues : String → Option ℚ
  state : StrategyState
  signals : List Signal := []

/-- `items[-count:]`, which for 0 is the whole list. -/
def lastItems {α : Type*} (count : ℕ) (items : List α) : List α :=
  if count = 0 then items else items.drop (items.length - count)

def keepLast {α : Type*} (limit : ℕ) (items : List α) : List α :=
  if limit < items.length then lastItems limit items else items

/-- `x or y` of numbers. -/
def orNumber (x : Option ℚ) (y : ℚ) : ℚ :=
  match x with
  | some x => if x = 0 then y else x
  | none => y

/-- `add_signal`, with `max_signals`. -/
def ExecutionContext.addSignal (ctx : ExecutionContext) (signal : Signal) :
    ExecutionContext :=
  { ctx with
    signals := keepLast 1000 (ctx.signals ++ [signal])
    state := { ctx.state with lastSignalTime := some signal.timestamp } }

/-- What the engine is constructed with; `__init__` sets `_max_candles` to 200. -/
structure EngineSettings where
  stopLossPct : ℚ
  takeProfitPct : ℚ
  maxCandles : ℕ := 200

structure Engine where
  contexts : String → Option ExecutionContext
  candleBuffers : String → Option (List Candle)

namespace Engine

def empty : Engine := ⟨fun _ => none, fun _ => none⟩

/-- `param_values` of `start_strategy`. -/
def startValues (config : StrategyConfig) (parameterOverrides : String → Option ℚ) :
    String → Option ℚ :=
  let defaults := config.parameters.foldl
    (fun (values : String → Option ℚ) p => Function.update values p.1 (some p.2)) fun _ => none
  fun name => (parameterOverrides name).or (defaults name)

/-- The context that `start_strategy` makes. -/
def newContext (strategyId : String) (config : StrategyConfig) (symbol timeframe : String)
    (parameterOverrides : String → Option ℚ) : ExecutionContext where
  strategyId := strategyId
  config := config
  symbol := symbol
  timeframe := timeframe
  parameterValues := startValues config parameterOverrides
  state := { strategyId := strategyId, status := .running }

def isRunning (engine : Engine) (strategyId : String) : Bool :=
  match engine.contexts strategyId with
  | some ctx => ctx.state.status = .running
  | none => false

/-- `start_strategy`. -/
def startStrategy (engine : Engine) (strategyId : String) (config : StrategyConfig)
    (symbol timeframe : String) (parameterOverrides : String → Option ℚ) :
    Except PyError Engine :=
  if engine.isRunning strategyId then .error .valueError
  else .ok {
    contexts := Function.update engine.contexts strategyId
      (some (newContext strategyId config symbol timeframe parameterOverrides))
    candleBuffers := Function.update engine.candleBuffers strategyId (some []) }

/-- `stop_strategy`. -/
def stopStrategy (engine : Engine) (strategyId : String) : Except PyError Engine :=
  match engine.contexts strategyId with
  | none => .error (.keyError strategyId)
  | some ctx => .ok { engine with
      contexts := Function.update engine.contexts strategyId
        (some { ctx with state := { ctx.state with status := .stopped } }) }

section
variable (settings : EngineSettings)

def stopLossAt (entry : ℚ) : ℚ := entry * (1 - settings.stopLossPct)

def takeProfitAt (entry : ℚ) : ℚ := entry * (1 + settings.takeProfitPct)

/-- `candle.timestamp or time.time()`. -/
def signalTime (candle : Candle) (now : ℚ) : ℚ := orNumber (some candle.timestamp) now

/-- `_emit_entry_signal`. -/
def emitEntrySignal (ctx : ExecutionContext) (candle : Candle) (now : ℚ) :
    ExecutionContext × Signal :=
  let entryPrice := candle.close
  let signal : Signal := {
    strategyId := ctx.strategyId
    symbol := ctx.symbol
    direction := .buy
    confidence := min 1 (1 / 2 + 1 / 10 * ctx.config.entryConditions.length)
    entryPrice := entryPrice
    stopLoss := some (stopLossAt settings entryPrice)
    takeProfit := some (takeProfitAt settings entryPrice)
    reason := "Entry conditions met for " ++ ctx.config.name
    timestamp := signalTime candle now }
  let ctx := { ctx with state := { ctx.state with
    position := .long
    entryPrice := some entryPrice
    entryTime := some (signalTime candle now)
    unrealizedPnl := 0 } }
  (ctx.addSignal signal, signal)

/-- `_emit_exit_signal`. -/
def emitExitSignal (ctx : ExecutionContext) (candle : Candle) (reason : String)
    (stopLoss takeProfit now : ℚ) : ExecutionContext × Signal :=
  let exitPrice := candle.close
  let entryPrice := orNumber ctx.state.entryPrice exitPrice
  let signal : Signal := {
    strategyId := ctx.strategyId
    symbol := ctx.symbol
    direction := .sell
    confidence := 4 / 5
    entryPrice := exitPrice
    stopLoss := some stopLoss
    takeProfit := some takeProfit
    reason := reason
    timestamp := signalTime candle now }
  -- one unit is traded, and a trade without gain counts as lost
  let pnl := exitPrice - entryPrice
  let ctx := { ctx with state := { ctx.state with
    realizedPnl := ctx.state.realizedPnl + pnl
    totalTrades := ctx.state.totalTrades + 1
    winningTrades := if 0 < pnl then ctx.state.winningTrades + 1 else ctx.state.winningTrades
    losingTrades := if 0 < pnl then ctx.state.losingTrades else ctx.state.losingTrades + 1
    position := .flat
    entryPrice := none
    entryTime := none
    unrealizedPnl := 0 } }
  (ctx.addSignal signal, signal)

/-- `_check_risk_management`. -/
def checkRiskManagement (ctx : ExecutionContext) (candle : Candle) (now : ℚ) :
    Option (ExecutionContext × Signal) :=
  match ctx.state.position, ctx.state.entryPrice with
  | .long, some entry =>
    let stopLoss := stopLossAt settings entry
    let takeProfit := takeProfitAt settings entry
    if candle.close ≤ stopLoss then
      some (emitExitSignal ctx candle "Stop loss triggered" stopLoss takeProfit now)
    else if takeProfit ≤ candle.close then
      some (emitExitSignal ctx candle "Take profit triggered" stopLoss takeProfit now)
    else none
  | _, _ => none

/-- `candles[-1]`. -/
def lastCandle (candles : List Candle) : Except PyError Candle :=
  match candles.getLast? with
  | some candle => .ok candle
  | none => .error .indexError

/-- `_evaluate`. -/
def evaluate (runtime : EngineRuntime) (ctx : ExecutionContext) (candles : List Candle)
    (now : ℚ) : Except PyError (ExecutionContext × Option Signal) := do
  let indicatorValues ← compute runtime candles ctx.config.indicators ctx.parameterValues
  if ctx.state.position = .flat then
    let met ← ConditionEvaluator.evaluate runtime.toPythonRuntime indicatorValues
      ctx.parameterValues ctx.config.entryConditions
    if met then
      let candle ← lastCandle candles
      let (ctx, signal) := emitEntrySignal settings ctx candle now
      return (ctx, some signal)
    else return (ctx, none)
  else
    let met ← ConditionEvaluator.evaluate runtime.toPythonRuntime indicatorValues
      ctx.parameterValues ctx.config.exitConditions
    if met then
      let candle ← lastCandle candles
      let entry := orNumber ctx.state.entryPrice candle.close
      let (ctx, signal) := emitExitSignal ctx candle "Exit conditions met"
        (stopLossAt settings entry) (takeProfitAt settings entry) now
      return (ctx, some signal)
    else return (ctx, none)

/-- The new price, and with it the profit of an open position. -/
def updatePrice (state : StrategyState) (candle : Candle) : StrategyState :=
  { state with
    currentPrice := some candle.close
    unrealizedPnl :=
      match state.position, state.entryPrice with
      | .long, some entry => if entry = 0 then state.unrealizedPnl else candle.close - entry
      | _, _ => state.unrealizedPnl }

/-- What `on_candle` does with a running strategy and its buffer. -/
def process (runtime : EngineRuntime) (ctx : ExecutionContext) (buf : List Candle)
    (candle : Candle) (now : ℚ) : ExecutionContext × Option Signal :=
  let ctx := { ctx with state := updatePrice ctx.state candle }
  match checkRiskManagement settings ctx candle now with
  | some (ctx, signal) => (ctx, some signal)
  | none =>
    if buf.length < 2 then (ctx, none)
    else
      match evaluate settings runtime ctx buf now with
      | .ok result => result
      | .error e => ({ ctx with state :=
          { ctx.state with status := .error, errorMessage := some e } }, none)

/-- `on_candle`. -/
def onCandle (runtime : EngineRuntime) (engine : Engine) (strategyId : String)
    (candle : Candle) (now : ℚ) : Engine × Option Signal :=
  match engine.contexts strategyId with
  | none => (engine, none)
  | some ctx =>
    if ctx.state.status = .running then
      let buf := keepLast settings.maxCandles
        ((engine.candleBuffers strategyId).getD [] ++ [candle])
      let (ctx, signal) := process settings runtime ctx buf candle now
      ({ contexts := Function.update engine.contexts strategyId (some ctx)
         candleBuffers := Function.update engine.candleBuffers strategyId (some buf) }, signal)
    else (engine, none)

end

end Engine

/-! ### Runs -/

inductive Call where
  | start (strategyId : String) (config : StrategyConfig) (symbol timeframe : String)
    (parameterOverrides : String → Option ℚ)
  | stop (strategyId : String)
  | onCandle (strategyId : String) (candle : Candle) (now : ℚ)

section
variable (settings : EngineSettings) (runtime : EngineRuntime)

/-- A call and the signal that it returns. One that raises changes nothing. -/
def Engine.call (engine : Engine) : Call → Engine × Option Signal
  | .start strategyId config symbol timeframe parameterOverrides =>
    match engine.startStrategy strategyId config symbol timeframe parameterOverrides with
    | .ok engine => (engine, none)
    | .error _ => (engine, none)
  | .stop strategyId =>
    match engine.stopStrategy strategyId with
    | .ok engine => (engine, none)
    | .error _ => (engine, none)
  | .onCandle strategyId candle now =>
    engine.onCandle settings runtime strategyId candle now

/-- The engine after some calls. -/
def Engine.after (calls : List Call) : Engine :=
  calls.foldl (fun engine c => (engine.call settings runtime c).1) .empty

/-- The signals that the calls return, one by one. -/
def Engine.signalsFrom : Engine → List Call → List (Option Signal)
  | _, [] => []
  | engine, c :: calls =>
    (engine.call settings runtime c).2 :: signalsFrom (engine.call settings runtime c).1 calls

end

end TradeStream.StrategyExecution
