import TradeStream.OrderTurns

/-! Limit and take-profit orders are triggered by the quote, and slippage is added to it
afterwards: the fills that keep to the limit are those whose slippage the distance
between the two covers. -/
namespace TradeStream.OrderSimulator
open TradeStream.RoundDecimal TradeStream.RunSteps

/-- The types whose price bounds what is paid or received. -/
def OrderType.IsLimit (orderType : OrderType) : Prop :=
  orderType = .LIMIT ∨ orderType = .TAKE_PROFIT

/-- A price is the worse for this side the greater it is in this direction. -/
def OrderSide.direction (side : OrderSide) : ℚ :=
  match side with
  | .BUY => 1
  | .SELL => -1

/-- A buyer pays at most the limit, a seller receives at least the limit. -/
def NotWorse (side : OrderSide) (limit price : ℚ) : Prop :=
  match side with
  | .BUY => price ≤ limit
  | .SELL => limit ≤ price

theorem notWorse_iff (side : OrderSide) (limit price : ℚ) :
    NotWorse side limit price ↔ side.direction * price ≤ side.direction * limit := by
  cases side with
  | BUY => simp [NotWorse, OrderSide.direction]
  | SELL => simp [NotWorse, OrderSide.direction]

theorem OrderSide.direction_mul_self (side : OrderSide) (x : ℚ) :
    side.direction * (side.direction * x) = x := by
  cases side with
  | BUY => simp [OrderSide.direction]
  | SELL => simp [OrderSide.direction]

theorem round8_direction (side : OrderSide) (x : ℚ) :
    side.direction * round8 x = round8 (side.direction * x) := by
  cases side with
  | BUY => simp [OrderSide.direction]
  | SELL =>
    have hneg : round8 (-x) = -round8 x := roundTo_neg 8 x
    simp [OrderSide.direction, hneg]

/-- The slippage of the configured model without its direction. -/
def slippageAmount (cfg : Config) (basePrice volatility randomFactor : ℚ) : ℚ :=
  match cfg.slippageConfig.model with
  | .FIXED => cfg.slippageConfig.value
  | .PERCENTAGE => basePrice * cfg.slippageConfig.value
  | .VOLATILITY => basePrice * volatility * cfg.slippageConfig.value * randomFactor

theorem computeSlippage_eq (cfg : Config) (basePrice : ℚ) (side : OrderSide)
    (volatility randomFactor : ℚ) :
    computeSlippage cfg basePrice side volatility randomFactor =
      side.direction * slippageAmount cfg basePrice volatility randomFactor := by
  have hdirection : (if side = .BUY then 1 else -1 : ℚ) = side.direction := by
    cases side with
    | BUY => rfl
    | SELL => rfl
  unfold computeSlippage slippageAmount
  rw [hdirection]
  cases cfg.slippageConfig.model with
  | FIXED => rfl
  | PERCENTAGE => ring
  | VOLATILITY => ring

/-- The fill keeps to the limit: the price that the account is charged, and the one that
is recorded. -/
structure KeepsLimit (orderId : ℕ) (order : SimulatedOrder) (limit : ℚ) (e : Execution) : Prop where
  charged : NotWorse order.side limit e.fillPrice
  recorded : NotWorse order.side limit (orderFill orderId e).fillPrice

/-- The limit lies far enough behind the quote: the slippage does not take the price
past it, nor does the rounding to eight decimals, of which a limit of more decimals has
only those up to the eighth. -/
structure LeavesRoom (amount : ℚ) (side : OrderSide) (limit basePrice : ℚ) : Prop where
  distance : amount ≤ side.direction * (limit - basePrice)
  rounds :
    (side.direction * basePrice + amount) * 10 ^ 8 <
        ⌊side.direction * limit * 10 ^ 8⌋ + 1 / 2 ∨
      (side.direction * basePrice + amount) * 10 ^ 8 =
          ⌊side.direction * limit * 10 ^ 8⌋ + 1 / 2 ∧
        Even ⌊side.direction * limit * 10 ^ 8⌋

/-- A limit of at most eight decimals only has to cover the slippage. -/
theorem leavesRoom_iff_of_isDecimal {amount : ℚ} {side : OrderSide} {limit basePrice : ℚ}
    (hlimit : IsDecimal 8 limit) :
    LeavesRoom amount side limit basePrice ↔ amount ≤ side.direction * (limit - basePrice) := by
  constructor
  · exact LeavesRoom.distance
  · intro hle
    refine ⟨hle, Or.inl ?_⟩
    -- the limit is a multiple of the last digit, so that nothing of it is cut off
    obtain ⟨n, hn⟩ : IsDecimal 8 (side.direction * limit) := by
      cases side with
      | BUY => simpa [OrderSide.direction] using hlimit
      | SELL => simpa [OrderSide.direction] using hlimit.neg
    have hsum : side.direction * basePrice + amount ≤ side.direction * limit := by
      rw [mul_sub] at hle
      linarith
    rw [hn, Int.floor_intCast, ← hn]
    linarith

theorem keepsLimit_iff {cfg : Config} {tick : Tick} {randomFactor : ℚ} {account : Account}
    {order : SimulatedOrder} {e : Execution} {basePrice : ℚ}
    (h : ExecutionOf cfg tick randomFactor account order e basePrice) (orderId : ℕ) (limit : ℚ) :
    KeepsLimit orderId order limit e ↔
      LeavesRoom (slippageAmount cfg basePrice tick.volatility randomFactor) order.side limit
        basePrice := by
  -- a sell is read with its sign turned, so that both sides pay the quote and the slippage
  have hprice : order.side.direction * e.fillPrice =
      order.side.direction * basePrice +
        slippageAmount cfg basePrice tick.volatility randomFactor := by
    rw [h.fillPrice_eq, computeSlippage_eq, mul_add, OrderSide.direction_mul_self]
  have hcharged : NotWorse order.side limit e.fillPrice ↔
      slippageAmount cfg basePrice tick.volatility randomFactor ≤
        order.side.direction * (limit - basePrice) := by
    rw [notWorse_iff, hprice, mul_sub, le_sub_iff_add_le']
  -- what is recorded is the same price, rounded
  have hrecorded := roundTo_le_iff 8 (order.side.direction * e.fillPrice)
    (order.side.direction * limit)
  change round8 _ ≤ _ ↔ _ at hrecorded
  rw [← round8_direction, ← notWorse_iff, hprice] at hrecorded
  constructor
  · intro hkeeps
    exact ⟨hcharged.mp hkeeps.charged, hrecorded.mp hkeeps.recorded⟩
  · intro hroom
    exact ⟨hcharged.mpr hroom.distance, hrecorded.mpr hroom.rounds⟩

/-- No limit or take-profit order is filled past its limit in this turn. -/
def KeepsLimits (cfg : Config) (tick : Tick) (s : State) (orderId : ℕ) : Prop :=
  ∀ order e limit, GoesThrough cfg tick s orderId order e → order.orderType.IsLimit →
    order.price = some limit → KeepsLimit orderId order limit e

/-- Where a limit or take-profit order is filled in this turn, its limit leaves room for
the slippage at the quote that triggers it. -/
def SlipsWithinLimits (cfg : Config) (tick : Tick) (s : State) (orderId : ℕ) : Prop :=
  ∀ order e limit basePrice, GoesThrough cfg tick s orderId order e → order.orderType.IsLimit →
    order.price = some limit → shouldFill order tick.bid tick.ask = some basePrice →
    LeavesRoom (slippageAmount cfg basePrice tick.volatility (tick.randomFactor orderId))
      order.side limit basePrice

theorem keepsLimits_iff (cfg : Config) (tick : Tick) (s : State) (orderId : ℕ) :
    KeepsLimits cfg tick s orderId ↔ SlipsWithinLimits cfg tick s orderId := by
  constructor
  · intro hkeeps order e limit basePrice hthrough htype hlimit hbase
    obtain ⟨basePrice', hof⟩ := exists_executionOf hthrough.execution
    -- a fill has but one quote that has triggered it
    have heq : basePrice' = basePrice := Option.some.inj (hof.basePrice_eq.symm.trans hbase)
    rw [heq] at hof
    exact (keepsLimit_iff hof orderId limit).mp (hkeeps order e limit hthrough htype hlimit)
  · intro hslips order e limit hthrough htype hlimit
    obtain ⟨basePrice, hof⟩ := exists_executionOf hthrough.execution
    apply (keepsLimit_iff hof orderId limit).mpr
    exact hslips order e limit basePrice hthrough htype hlimit hof.basePrice_eq

/-- The exact condition turn by turn is the exact condition of an operation. -/
theorem operationTurns_congr {cfg : Config} {Q C : Tick → State → ℕ → Prop}
    (h : ∀ tick s orderId, Q tick s orderId ↔ C tick s orderId) (s : State)
    (operation : Operation) :
    OperationTurns cfg Q s operation ↔ OperationTurns cfg C s operation := by
  cases operation with
  | processMarketTick tick =>
    exact eachStep_iff (I := fun _ => True) (P := fun _ => True) (fun _ _ _ => trivial)
      (fun s orderId _ _ => h tick s orderId) (fun _ _ _ _ _ => trivial) trivial trivial _
  | submit request => exact Iff.rfl
  | cancel orderId => exact Iff.rfl

/-- From any order book and account, under any configuration: all limits are kept through
a run just when the slippage of every fill leaves them room. -/
theorem run_keepsLimits_iff (cfg : Config) (s : State) (operations : List Operation) :
    (∀ earlier operation, earlier ++ [operation] <+: operations →
        OperationTurns cfg (KeepsLimits cfg) (earlier.foldl (step cfg) s) operation) ↔
      ∀ earlier operation, earlier ++ [operation] <+: operations →
        OperationTurns cfg (SlipsWithinLimits cfg) (earlier.foldl (step cfg) s) operation := by
  apply forall_congr'
  intro earlier
  apply forall_congr'
  intro operation
  apply imp_congr_right
  intro _
  exact operationTurns_congr (keepsLimits_iff cfg) _ operation

def buyAtLimit : OrderRequest :=
  ⟨"BTC-USD", .LIMIT, .BUY, 1 / 10, some 50000, none, by norm_num⟩

/-- The ask has come down to the limit. -/
def tickAtLimit : Tick where
  instrument := "BTC-USD"
  bid := 49990
  ask := 50000
  volume := 50000
  volatility := 1 / 50
  now := "2026-01-01T00:00:00+00:00"
  randomFactor := fun _ => 1
  bid_pos := by norm_num
  ask_pos := by norm_num
  volume_pos := by norm_num
  volatility_nonneg := thinTick.volatility_nonneg

/-- One order is placed, at the limit of fifty thousand. -/
def bookAtLimit : State := runOperations defaultConfig 100000 [.submit buyAtLimit]

/-- The buyer pays a thousandth more than the limit. -/
theorem bookAtLimit_not_keepsLimits :
    ((processMarketTick defaultConfig bookAtLimit tickAtLimit).1.orders.map fun order =>
        order.fills.map OrderFill.fillPrice) = [[50050]] ∧
      ¬ OperationTurns defaultConfig (KeepsLimits defaultConfig) bookAtLimit
        (.processMarketTick tickAtLimit) := by
  refine ⟨by decide +kernel, ?_⟩
  intro hturns
  have hkeeps : KeepsLimits defaultConfig tickAtLimit bookAtLimit 0 := hturns.1
  have hprice : (bookAtLimit.orders[0]?.bind fun order =>
      (execution defaultConfig tickAtLimit 1 bookAtLimit.account order).map Execution.fillPrice) =
        some 50050 := by decide +kernel
  obtain ⟨order, ho, hmap⟩ := Option.bind_eq_some_iff.mp hprice
  obtain ⟨e, he, hfill⟩ := Option.map_eq_some_iff.mp hmap
  -- the order as the turn finds it
  have hopen : (bookAtLimit.orders.map fun order =>
      (order.instrument, isOpen order, expired order tickAtLimit.now, order.price, order.side,
        order.orderType)) =
        [("BTC-USD", true, false, some 50000, .BUY, .LIMIT)] := rfl
  have hmem := congrArg (fun l => l[0]?) hopen
  simp only [List.getElem?_map, ho, Option.map_some, List.getElem?_cons_zero,
    Option.some.injEq, Prod.mk.injEq] at hmem
  obtain ⟨hinstrument, hisOpen, hexpired, hlimit, hside, htype⟩ := hmem
  have hkept := hkeeps order e 50000 ⟨ho, hinstrument, hisOpen, hexpired, he⟩ (Or.inl htype) hlimit
  have hle : e.fillPrice ≤ 50000 := by
    have hcharged := hkept.charged
    rwa [hside] at hcharged
  rw [hfill] at hle
  norm_num at hle

end TradeStream.OrderSimulator
