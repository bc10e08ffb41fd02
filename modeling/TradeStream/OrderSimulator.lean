import TradeStream.RoundDecimal

/-! `OrderSimulator`: orders, market ticks and the account they act on. Prices,
quantities and balances are exact rationals; Python's `round` to eight decimals is
the one rounding there is. -/
namespace TradeStream.OrderSimulator
open TradeStream.RoundDecimal

inductive OrderType where
  | MARKET
  | LIMIT
  | STOP_LOSS
  | TAKE_PROFIT
  deriving DecidableEq, Repr

inductive OrderSide where
  | BUY
  | SELL
  deriving DecidableEq, Repr

inductive OrderStatus where
  | PENDING
  | OPEN
  | PARTIALLY_FILLED
  | FILLED
  | CANCELLED
  | EXPIRED
  deriving DecidableEq, Repr

inductive SlippageModel where
  | FIXED
  | PERCENTAGE
  | VOLATILITY
  deriving DecidableEq, Repr

structure SlippageConfig where
  model : SlippageModel
  value : ℚ

structure FeeSchedule where
  makerFee : ℚ
  takerFee : ℚ
  makerFee_nonneg : 0 ≤ makerFee
  takerFee_nonneg : 0 ≤ takerFee

/-- What the constructor of `OrderSimulator` takes, but for the balance. -/
structure Config where
  slippageConfig : SlippageConfig
  feeSchedule : FeeSchedule
  maxFillRatio : ℚ

structure OrderFill where
  orderId : ℕ
  fillPrice : ℚ
  quantity : ℚ
  fee : ℚ
  slippage : ℚ

structure OrderRequest where
  instrument : String
  orderType : OrderType
  side : OrderSide
  quantity : ℚ
  price : Option ℚ
  expiresAt : Option String
  quantity_pos : 0 < quantity

/-- An order of the book. Only a market order lacks a price. -/
structure SimulatedOrder where
  instrument : String
  orderType : OrderType
  side : OrderSide
  quantity : ℚ
  price : Option ℚ
  status : OrderStatus
  filledQuantity : ℚ
  averageFillPrice : ℚ
  totalFees : ℚ
  fills : List OrderFill
  expiresAt : Option String
  quantity_pos : 0 < quantity
  priced : orderType ≠ .MARKET → price ≠ none
  filledQuantity_nonneg : 0 ≤ filledQuantity

structure Account where
  cashBalance : ℚ
  positions : AList fun _ : String => ℚ
  positionAvgPrices : AList fun _ : String => ℚ

/-- The simulator's state. Orders stand in the insertion order of their dictionary,
which loses none: the id of an order is its place. -/
structure State where
  orders : List SimulatedOrder
  account : Account

/-- A market tick: a `TickRequest`, the time it comes at, and the factor that the
volatility model draws for each order. -/
structure Tick where
  instrument : String
  bid : ℚ
  ask : ℚ
  volume : ℚ
  volatility : ℚ
  now : String
  randomFactor : ℕ → ℚ
  bid_pos : 0 < bid
  ask_pos : 0 < ask
  volume_pos : 0 < volume
  volatility_nonneg : 0 ≤ volatility

/-- `round(x, 8)`. -/
def round8 (x : ℚ) : ℚ := roundTo 8 x

namespace Account

def position (a : Account) (instrument : String) : ℚ := (a.positions.lookup instrument).getD 0

def avgPrice (a : Account) (instrument : String) : ℚ :=
  (a.positionAvgPrices.lookup instrument).getD 0

/-- `_update_position`. -/
def updatePosition (a : Account) (instrument : String) (quantityDelta price : ℚ) : Account :=
  let currentQty := a.position instrument
  let currentAvg := a.avgPrice instrument
  let newQty := currentQty + quantityDelta
  if |newQty| < 1 / 10 ^ 10 then
    { a with
      positions := a.positions.erase instrument
      positionAvgPrices := a.positionAvgPrices.erase instrument }
  else
    let newAvg :=
      if quantityDelta > 0 then
        if currentQty > 0 then (currentAvg * currentQty + price * quantityDelta) / newQty
        else price
      else currentAvg
    { a with
      positions := a.positions.insert instrument (round8 newQty)
      positionAvgPrices := a.positionAvgPrices.insert instrument (round8 newAvg) }

end Account

/-- `_should_fill`: the base price, where the order is to be filled. -/
def shouldFill (order : SimulatedOrder) (bid ask : ℚ) : Option ℚ :=
  match order.orderType, order.side, order.price with
  | .MARKET, .BUY, _ => some ask
  | .MARKET, .SELL, _ => some bid
  | .LIMIT, .BUY, some price => if ask ≤ price then some ask else none
  | .LIMIT, .SELL, some price => if price ≤ bid then some bid else none
  | .STOP_LOSS, .SELL, some price => if bid ≤ price then some bid else none
  | .STOP_LOSS, .BUY, some price => if price ≤ ask then some ask else none
  | .TAKE_PROFIT, .SELL, some price => if price ≤ bid then some bid else none
  | .TAKE_PROFIT, .BUY, some price => if ask ≤ price then some ask else none
  -- Ruled out by `priced`.
  | _, _, none => none

def computeFillQuantity (cfg : Config) (remaining volume : ℚ) : ℚ :=
  min remaining (volume * cfg.maxFillRatio)

def computeSlippage (cfg : Config) (basePrice : ℚ) (side : OrderSide)
    (volatility randomFactor : ℚ) : ℚ :=
  let direction := if side = .BUY then 1 else -1
  match cfg.slippageConfig.model with
  | .FIXED => direction * cfg.slippageConfig.value
  | .PERCENTAGE => direction * basePrice * cfg.slippageConfig.value
  | .VOLATILITY =>
    direction * basePrice * volatility * cfg.slippageConfig.value * randomFactor

/-- The quantity, price, slippage and fee of a fill that goes through. -/
structure Execution where
  fillQty : ℚ
  fillPrice : ℚ
  slippage : ℚ
  fee : ℚ
  fillQty_pos : 0 < fillQty

/-- `_try_fill` up to the point from which it changes the state: `none` where it
returns `None`. -/
def execution (cfg : Config) (tick : Tick) (randomFactor : ℚ) (account : Account)
    (order : SimulatedOrder) : Option Execution :=
  match shouldFill order tick.bid tick.ask with
  | none => none
  | some basePrice =>
    let remaining := order.quantity - order.filledQuantity
    let fillQty := computeFillQuantity cfg remaining tick.volume
    if hqty : fillQty ≤ 0 then none
    else
      let slippage := computeSlippage cfg basePrice order.side tick.volatility randomFactor
      let fillPrice := basePrice + slippage
      let feeRate :=
        if order.orderType = .LIMIT then cfg.feeSchedule.makerFee else cfg.feeSchedule.takerFee
      let fee := |fillQty * fillPrice * feeRate|
      let insufficient :=
        match order.side with
        | .BUY => decide (account.cashBalance < fillQty * fillPrice + fee)
        | .SELL => decide (account.position order.instrument < fillQty)
      if insufficient then none else some ⟨fillQty, fillPrice, slippage, fee, not_le.mp hqty⟩

/-- The update of the balance and of the position. -/
def settle (account : Account) (order : SimulatedOrder) (e : Execution) : Account :=
  match order.side with
  | .BUY =>
    let paid := { account with
      cashBalance := account.cashBalance - (e.fillQty * e.fillPrice + e.fee) }
    paid.updatePosition order.instrument e.fillQty e.fillPrice
  | .SELL =>
    let paid := { account with
      cashBalance := account.cashBalance + (e.fillQty * e.fillPrice - e.fee) }
    paid.updatePosition order.instrument (-e.fillQty) e.fillPrice

/-- The recorded fill. -/
def orderFill (orderId : ℕ) (e : Execution) : OrderFill where
  orderId := orderId
  fillPrice := round8 e.fillPrice
  quantity := round8 e.fillQty
  fee := round8 e.fee
  slippage := round8 e.slippage

/-- The fill is appended and the totals are updated, before the average is. -/
def appendFill (orderId : ℕ) (order : SimulatedOrder) (e : Execution) : SimulatedOrder :=
  { order with
    fills := order.fills ++ [orderFill orderId e]
    filledQuantity := round8 (order.filledQuantity + e.fillQty)
    totalFees := round8 (order.totalFees + e.fee)
    filledQuantity_nonneg :=
      roundTo_nonneg 8 (add_nonneg order.filledQuantity_nonneg e.fillQty_pos.le) }

/-- The average price and the status, once there is something filled to divide by. -/
def updateStatus (order : SimulatedOrder) : SimulatedOrder :=
  { order with
    averageFillPrice := round8
      ((order.fills.map fun f => f.fillPrice * f.quantity).sum / order.filledQuantity)
    status :=
      if |order.filledQuantity - order.quantity| < 1 / 10 ^ 10 then .FILLED
      else .PARTIALLY_FILLED }

/-- The exception of a division by `filled_quantity`. -/
inductive PyError where
  | ZeroDivisionError
  deriving DecidableEq, Repr

/-- `_try_fill` on one order of the book. An exception leaves the account and the
order as they are at that point. -/
def tryFill (cfg : Config) (tick : Tick) (orderId : ℕ) (account : Account)
    (order : SimulatedOrder) :
    Account × SimulatedOrder × Except PyError (Option OrderFill) :=
  match execution cfg tick (tick.randomFactor orderId) account order with
  | none => (account, order, .ok none)
  | some e =>
    let account := settle account order e
    let order := appendFill orderId order e
    if order.filledQuantity = 0 then (account, order, .error .ZeroDivisionError)
    else (account, updateStatus order, .ok (some (orderFill orderId e)))

def isOpen (order : SimulatedOrder) : Bool :=
  order.status = .OPEN || order.status = .PARTIALLY_FILLED

/-- `order.expires_at and order.expires_at < now`. -/
def expired (order : SimulatedOrder) (now : String) : Bool :=
  match order.expiresAt with
  | none => false
  | some t => t ≠ "" && t < now

/-- One iteration of the loop of `process_market_tick`. -/
def processOrder (cfg : Config) (tick : Tick) (s : State) (orderId : ℕ) :
    State × Except PyError (Option OrderFill) :=
  match s.orders[orderId]? with
  | none => (s, .ok none)
  | some order =>
    if order.instrument ≠ tick.instrument then (s, .ok none)
    else if !isOpen order then (s, .ok none)
    else if expired order tick.now then
      ({ s with orders := s.orders.set orderId { order with status := .EXPIRED } }, .ok none)
    else
      let (account, order, result) := tryFill cfg tick orderId s.account order
      (⟨s.orders.set orderId order, account⟩, result)

/-- The loop over some orders. An exception ends it. -/
def processOrders (cfg : Config) (tick : Tick) : State → List ℕ →
    State × Except PyError (List OrderFill)
  | s, [] => (s, .ok [])
  | s, orderId :: rest =>
    match processOrder cfg tick s orderId with
    | (s, .error e) => (s, .error e)
    | (s, .ok fill) =>
      match processOrders cfg tick s rest with
      | (s, .error e) => (s, .error e)
      | (s, .ok fills) => (s, .ok (fill.toList ++ fills))

def processMarketTick (cfg : Config) (s : State) (tick : Tick) :
    State × Except PyError (List OrderFill) :=
  processOrders cfg tick s (List.range s.orders.length)

/-- `place_order` for the order that the request makes; `none` stands for the
`ValueError` of a missing price. -/
def placeOrder (s : State) (request : OrderRequest) : Option State :=
  if h : request.orderType ≠ .MARKET ∧ request.price = none then none
  else
    some { s with orders := s.orders ++ [{
      instrument := request.instrument
      orderType := request.orderType
      side := request.side
      quantity := request.quantity
      price := request.price
      status := .OPEN
      filledQuantity := 0
      averageFillPrice := 0
      totalFees := 0
      fills := []
      expiresAt := request.expiresAt
      quantity_pos := request.quantity_pos
      priced := fun hm hp => h ⟨hm, hp⟩
      filledQuantity_nonneg := le_rfl }] }

/-- `cancel_order`; `none` where nothing is cancelled. -/
def cancelOrder (s : State) (orderId : ℕ) : Option State :=
  match s.orders[orderId]? with
  | none => none
  | some order =>
    if order.status = .FILLED ∨ order.status = .CANCELLED ∨ order.status = .EXPIRED then none
    else some { s with orders := s.orders.set orderId { order with status := .CANCELLED } }

inductive Operation where
  | submit (request : OrderRequest)
  | cancel (orderId : ℕ)
  | processMarketTick (tick : Tick)

/-- The state after an operation, whether or not it raises. -/
def step (cfg : Config) (s : State) : Operation → State
  | .submit request => (placeOrder s request).getD s
  | .cancel orderId => (cancelOrder s orderId).getD s
  | .processMarketTick tick => (processMarketTick cfg s tick).1

def initialState (initialBalance : ℚ) : State := ⟨[], ⟨initialBalance, ∅, ∅⟩⟩

def runOperations (cfg : Config) (initialBalance : ℚ) (operations : List Operation) : State :=
  operations.foldl (step cfg) (initialState initialBalance)

end TradeStream.OrderSimulator
