import TradeStream.OrderAccounting
import TradeStream.RunSteps

/-! The states of a run down to the turns of its orders: what holds in all of them, and
what every turn must meet for that. -/
namespace TradeStream.OrderSimulator
open TradeStream.RunSteps

/-- The fee rate that an order pays. -/
def feeRate (cfg : Config) (order : SimulatedOrder) : ℚ :=
  if order.orderType = .LIMIT then cfg.feeSchedule.makerFee else cfg.feeSchedule.takerFee

/-- Where a fill that goes through comes from, and what it was checked against. -/
structure ExecutionOf (cfg : Config) (tick : Tick) (randomFactor : ℚ) (account : Account)
    (order : SimulatedOrder) (e : Execution) (basePrice : ℚ) : Prop where
  basePrice_eq : shouldFill order tick.bid tick.ask = some basePrice
  fillQty_eq : e.fillQty =
    computeFillQuantity cfg (order.quantity - order.filledQuantity) tick.volume
  fillPrice_eq : e.fillPrice =
    basePrice + computeSlippage cfg basePrice order.side tick.volatility randomFactor
  fee_eq : e.fee = |e.fillQty * e.fillPrice * feeRate cfg order|
  affordable : order.side = .BUY → e.fillQty * e.fillPrice + e.fee ≤ account.cashBalance
  held : order.side = .SELL → e.fillQty ≤ account.position order.instrument

theorem exists_executionOf {cfg : Config} {tick : Tick} {randomFactor : ℚ} {account : Account}
    {order : SimulatedOrder} {e : Execution}
    (h : execution cfg tick randomFactor account order = some e) :
    ∃ basePrice, ExecutionOf cfg tick randomFactor account order e basePrice := by
  unfold execution at h
  cases hbase : shouldFill order tick.bid tick.ask with
  | none => simp [hbase] at h
  | some basePrice =>
    have hrate : (if order.orderType = .LIMIT then cfg.feeSchedule.makerFee
        else cfg.feeSchedule.takerFee) = feeRate cfg order := rfl
    simp only [hbase, hrate] at h
    split_ifs at h with hqty hfunds
    simp only [Option.some.injEq] at h
    subst h
    refine ⟨basePrice, hbase, rfl, rfl, rfl, ?_, ?_⟩
    · intro hside
      simpa [hside] using hfunds
    · intro hside
      simpa [hside] using hfunds

theorem GoesThrough.unique {cfg : Config} {tick : Tick} {s : State} {orderId : ℕ}
    {order order' : SimulatedOrder} {e e' : Execution}
    (h : GoesThrough cfg tick s orderId order e) (h' : GoesThrough cfg tick s orderId order' e') :
    order' = order ∧ e' = e := by
  obtain rfl : order = order' := Option.some.inj (h.stored.symm.trans h'.stored)
  exact ⟨rfl, Option.some.inj (h'.execution.symm.trans h.execution)⟩

/-- A turn without a fill leaves the state as it is, or the order expires. -/
theorem processOrder_of_no_fill {cfg : Config} {tick : Tick} {s : State} {orderId : ℕ}
    (h : ¬ ∃ order e, GoesThrough cfg tick s orderId order e) :
    (processOrder cfg tick s orderId).1 = s ∨
      ∃ order order', s.orders[orderId]? = some order ∧ Idles order order' ∧
        (processOrder cfg tick s orderId).1 = ⟨s.orders.set orderId order', s.account⟩ := by
  cases ho : s.orders[orderId]? with
  | none =>
    left
    simp [processOrder, ho]
  | some order =>
    right
    rcases processOrder_cases cfg tick s orderId order ho with ⟨order', hidles, heq⟩ | ⟨e, he⟩
    · exact ⟨order, order', rfl, hidles, by rw [heq]⟩
    · exact absurd ⟨order, e, he⟩ h

/-- A turn is decided by the fill that goes through in it, where what it decides is kept
by orders that idle. -/
theorem processOrder_iff {cfg : Config} {tick : Tick} {s : State} {orderId : ℕ}
    {P : State → Prop} {R : SimulatedOrder → Execution → Prop} (hs : P s)
    (hidles : ∀ order order', s.orders[orderId]? = some order → Idles order order' →
      P ⟨s.orders.set orderId order', s.account⟩)
    (hfill : ∀ order e, GoesThrough cfg tick s orderId order e →
      (P (processOrder cfg tick s orderId).1 ↔ R order e)) :
    P (processOrder cfg tick s orderId).1 ↔
      ∀ order e, GoesThrough cfg tick s orderId order e → R order e := by
  by_cases h : ∃ order e, GoesThrough cfg tick s orderId order e
  · obtain ⟨order, e, he⟩ := h
    rw [hfill order e he]
    constructor
    · intro hR order' e' he'
      obtain ⟨rfl, rfl⟩ := he.unique he'
      exact hR
    · exact fun hall => hall order e he
  · refine iff_of_true ?_ fun order e he => absurd ⟨order, e, he⟩ h
    rcases processOrder_of_no_fill h with heq | ⟨order, order', ho, hidle, heq⟩
    · rwa [heq]
    · rw [heq]
      exact hidles order order' ho hidle

/-- What all orders have and a new value of one of them has, all have afterwards. -/
theorem forall_mem_set {P : SimulatedOrder → Prop} {orders : List SimulatedOrder}
    (h : ∀ order ∈ orders, P order) (orderId : ℕ) {order' : SimulatedOrder} (h' : P order') :
    ∀ order ∈ orders.set orderId order', P order := by
  intro order hmem
  rcases List.mem_or_eq_of_mem_set hmem with hold | rfl
  · exact h order hold
  · exact h'

theorem forall_mem_concat {P : SimulatedOrder → Prop} {orders : List SimulatedOrder}
    (h : ∀ order ∈ orders, P order) {order' : SimulatedOrder} (h' : P order') :
    ∀ order ∈ orders ++ [order'], P order := by
  simp only [List.mem_append, List.mem_singleton]
  intro order hmem
  rcases hmem with hold | rfl
  · exact h order hold
  · exact h'

/-- The loop of a tick goes on after a turn that does not raise. -/
def TurnReturns (cfg : Config) (tick : Tick) (s : State) (orderId : ℕ) : Prop :=
  ∃ fill, (processOrder cfg tick s orderId).2 = .ok fill

/-- `C` holds of every turn that the loop over these orders takes. -/
def EachTurn (cfg : Config) (tick : Tick) (C : State → ℕ → Prop) (s : State)
    (orderIds : List ℕ) : Prop :=
  EachStep (fun s orderId => (processOrder cfg tick s orderId).1) (TurnReturns cfg tick) C s
    orderIds

/-- `C` holds of every turn of an operation; only ticks have any. -/
def OperationTurns (cfg : Config) (C : Tick → State → ℕ → Prop) (s : State) : Operation → Prop
  | .processMarketTick tick => EachTurn cfg tick (C tick) s (List.range s.orders.length)
  | _ => True

/-- `P` holds after an operation, and within it after every turn. -/
def OperationStates (cfg : Config) (P : State → Prop) (s : State) (operation : Operation) :
    Prop :=
  P (step cfg s operation) ∧
    OperationTurns cfg (fun tick s orderId => P (processOrder cfg tick s orderId).1) s operation

theorem processOrders_keeps {cfg : Config} {tick : Tick} {P : State → Prop} {s : State}
    (hs : P s) (orderIds : List ℕ)
    (h : EachTurn cfg tick (fun s orderId => P (processOrder cfg tick s orderId).1) s orderIds) :
    P (processOrders cfg tick s orderIds).1 := by
  induction orderIds generalizing s with
  | nil => exact hs
  | cons orderId rest ih =>
    obtain ⟨hhead, htail⟩ := h
    cases hresult : (processOrder cfg tick s orderId).2 with
    | error e =>
      rw [processOrders_cons_error cfg tick s orderId rest e hresult]
      exact hhead
    | ok fill =>
      rw [(processOrders_cons_ok cfg tick s orderId rest fill hresult).1]
      exact ih hhead (htail ⟨fill, hresult⟩)

/-- An order as it is placed. -/
structure IsNew (order : SimulatedOrder) : Prop where
  status : order.status = .OPEN
  filledQuantity : order.filledQuantity = 0
  fills : order.fills = []

/-- An order of this status is done. -/
def OrderStatus.IsFinal (status : OrderStatus) : Prop :=
  status = .FILLED ∨ status = .CANCELLED ∨ status = .EXPIRED

/-- What submitting or cancelling may do to the orders. -/
inductive Quiet (s s' : State) : Prop where
  | same (h : s' = s)
  | placed (order : SimulatedOrder) (hnew : IsNew order)
    (h : s' = { s with orders := s.orders ++ [order] })
  | cancelled (orderId : ℕ) (order : SimulatedOrder) (ho : s.orders[orderId]? = some order)
    (hstatus : ¬ order.status.IsFinal)
    (h : s' = { s with orders := s.orders.set orderId { order with status := .CANCELLED } })

theorem quiet_submit (cfg : Config) (s : State) (request : OrderRequest) :
    Quiet s (step cfg s (.submit request)) := by
  by_cases h : request.orderType ≠ .MARKET ∧ request.price = none
  · exact .same (by simp [step, placeOrder, h])
  · rw [step, placeOrder, dif_neg h]
    refine .placed _ ?_ rfl
    exact ⟨rfl, rfl, rfl⟩

theorem quiet_cancel (cfg : Config) (s : State) (orderId : ℕ) :
    Quiet s (step cfg s (.cancel orderId)) := by
  cases ho : s.orders[orderId]? with
  | none => exact .same (by simp [step, cancelOrder, ho])
  | some order =>
    by_cases h : order.status = .FILLED ∨ order.status = .CANCELLED ∨ order.status = .EXPIRED
    · exact .same (by simp [step, cancelOrder, ho, h])
    · exact .cancelled orderId order ho h
        (by simp [step, cancelOrder, ho, h])

/-- `C` is the exact condition under which a turn keeps `P`. `I` is always kept, and
submitting or cancelling keeps both. -/
structure TurnRule (cfg : Config) (I P : State → Prop) (C : Tick → State → ℕ → Prop) : Prop where
  turn : ∀ tick s orderId, I s → I (processOrder cfg tick s orderId).1
  turn_iff : ∀ tick s orderId, I s → P s →
    (P (processOrder cfg tick s orderId).1 ↔ C tick s orderId)
  quiet : ∀ s s', Quiet s s' → I s → I s'
  quiet_keeps : ∀ s s', Quiet s s' → I s → P s → P s'

namespace TurnRule
variable {cfg : Config} {I P : State → Prop} {C : Tick → State → ℕ → Prop}

theorem step (h : TurnRule cfg I P C) (s : State) (operation : Operation) (hI : I s) :
    I (OrderSimulator.step cfg s operation) := by
  cases operation with
  | submit request => exact h.quiet s _ (quiet_submit cfg s request) hI
  | cancel orderId => exact h.quiet s _ (quiet_cancel cfg s orderId) hI
  | processMarketTick tick =>
    apply processOrders_keeps hI
    exact eachStep_of_invariant (h.turn tick) (h.turn tick) hI _

theorem tick_iff (h : TurnRule cfg I P C) (tick : Tick) {s : State} (hI : I s) (hP : P s) :
    OperationStates cfg P s (.processMarketTick tick) ↔
      OperationTurns cfg C s (.processMarketTick tick) := by
  have hturns : EachTurn cfg tick (fun s orderId => P (processOrder cfg tick s orderId).1) s
        (List.range s.orders.length) ↔
      EachTurn cfg tick (C tick) s (List.range s.orders.length) :=
    eachStep_iff (h.turn tick) (h.turn_iff tick) (fun _ _ _ _ hQ => hQ) hI hP _
  constructor
  · intro hstates
    exact hturns.mp hstates.2
  · intro hC
    have hstates := hturns.mpr hC
    exact ⟨processOrders_keeps hP _ hstates, hstates⟩

theorem operation_iff (h : TurnRule cfg I P C) {s : State} (hI : I s) (hP : P s)
    (operation : Operation) :
    OperationStates cfg P s operation ↔ OperationTurns cfg C s operation := by
  cases operation with
  | processMarketTick tick => exact h.tick_iff tick hI hP
  | submit request =>
    exact iff_of_true ⟨h.quiet_keeps s _ (quiet_submit cfg s request) hI hP, trivial⟩ trivial
  | cancel orderId =>
    exact iff_of_true ⟨h.quiet_keeps s _ (quiet_cancel cfg s orderId) hI hP, trivial⟩ trivial

/-- The rule for whole runs. -/
theorem run_iff (h : TurnRule cfg I P C) (initialBalance : ℚ)
    (hI : I (initialState initialBalance)) (hP : P (initialState initialBalance))
    (operations : List Operation) :
    (∀ earlier operation, earlier ++ [operation] <+: operations →
        OperationStates cfg P (runOperations cfg initialBalance earlier) operation) ↔
      ∀ earlier operation, earlier ++ [operation] <+: operations →
        OperationTurns cfg C (runOperations cfg initialBalance earlier) operation :=
  forall_prefix_iff (OrderSimulator.step cfg) h.step
    (fun _ operation hs hPs => h.operation_iff hs hPs operation)
    (fun _ _ _ _ hstates => hstates.1) hI hP operations

end TurnRule

end TradeStream.OrderSimulator
