import TradeStream.OrderFills

/-! Balance, positions and fill prices: what keeps them from going below zero. -/
namespace TradeStream.OrderSimulator
open TradeStream.RoundDecimal

structure Solvent (s : State) : Prop where
  cash_nonneg : 0 ≤ s.account.cashBalance
  position_nonneg : ∀ instrument, 0 ≤ s.account.position instrument
  price_pos : ∀ order ∈ s.orders, ∀ f ∈ order.fills, 0 < f.fillPrice

/-- What a fill is asked for beyond the checks of `_try_fill`: slippage leaves a price
that rounds to more than zero, and the balance covers what the fee of a sale exceeds
its proceeds by. -/
structure Sound (cfg : Config) (tick : Tick) (randomFactor : ℚ) (account : Account)
    (order : SimulatedOrder) (basePrice : ℚ) : Prop where
  price : halfUnit <
    basePrice + computeSlippage cfg basePrice order.side tick.volatility randomFactor
  fee : order.side = .SELL →
    computeFillQuantity cfg (order.quantity - order.filledQuantity) tick.volume *
        (basePrice + computeSlippage cfg basePrice order.side tick.volatility randomFactor) *
        (feeRate cfg order - 1) ≤ account.cashBalance

/-- If the order has a fill in its turn, it is a sound one. -/
def SoundTurn (cfg : Config) (tick : Tick) (s : State) (orderId : ℕ) : Prop :=
  ∀ order e, GoesThrough cfg tick s orderId order e →
    ∀ basePrice, shouldFill order tick.bid tick.ask = some basePrice →
      Sound cfg tick (tick.randomFactor orderId) s.account order basePrice

theorem feeRate_nonneg (cfg : Config) (order : SimulatedOrder) : 0 ≤ feeRate cfg order := by
  unfold feeRate
  split_ifs
  · exact cfg.feeSchedule.makerFee_nonneg
  · exact cfg.feeSchedule.takerFee_nonneg

section
variable (account : Account) (order : SimulatedOrder) (e : Execution)

theorem settle_cashBalance_buy (h : order.side = .BUY) :
    (settle account order e).cashBalance =
      account.cashBalance - (e.fillQty * e.fillPrice + e.fee) := by
  simp [settle, h]

theorem settle_cashBalance_sell (h : order.side = .SELL) :
    (settle account order e).cashBalance =
      account.cashBalance + (e.fillQty * e.fillPrice - e.fee) := by
  simp [settle, h]

theorem updatePosition_nonneg (instrument : String) (delta price : ℚ)
    (h : ∀ i, 0 ≤ account.position i) (hsum : 0 ≤ account.position instrument + delta)
    (i : String) :
    0 ≤ (account.updatePosition instrument delta price).position i := by
  by_cases hi : i = instrument
  · subst hi
    rw [updatePosition_position]
    split_ifs
    · exact le_rfl
    · exact roundTo_nonneg 8 hsum
  · rw [updatePosition_other _ _ _ _ _ hi]
    exact h i

/-- A fill that was checked against the position leaves none negative. -/
theorem settle_position_nonneg (h : ∀ i, 0 ≤ account.position i)
    (hheld : order.side = .SELL → e.fillQty ≤ account.position order.instrument) (i : String) :
    0 ≤ (settle account order e).position i := by
  cases hside : order.side with
  | BUY =>
    have hsum : 0 ≤ account.position order.instrument + e.fillQty :=
      add_nonneg (h order.instrument) e.fillQty_pos.le
    simp only [settle, hside]
    apply updatePosition_nonneg
    · exact h
    · exact hsum
  | SELL =>
    have hsum : 0 ≤ account.position order.instrument + -e.fillQty := by
      have := hheld hside
      linarith
    simp only [settle, hside]
    apply updatePosition_nonneg
    · exact h
    · exact hsum

end

section
variable {cfg : Config} {tick : Tick} {randomFactor basePrice : ℚ} {account : Account}
  {order : SimulatedOrder} {e : Execution}

/-- At a positive price the cash after a fill is decided by the fee of a sale. -/
theorem settle_cash_nonneg_iff
    (h : ExecutionOf cfg tick randomFactor account order e basePrice) (hprice : 0 < e.fillPrice) :
    0 ≤ (settle account order e).cashBalance ↔
      (order.side = .SELL →
        e.fillQty * e.fillPrice * (feeRate cfg order - 1) ≤ account.cashBalance) := by
  cases hside : order.side with
  | BUY =>
    have hcost := h.affordable hside
    rw [settle_cashBalance_buy account order e hside]
    exact iff_of_true (by linarith) (by simp)
  | SELL =>
    have hfee : e.fee = e.fillQty * e.fillPrice * feeRate cfg order := by
      rw [h.fee_eq]
      apply abs_of_nonneg
      exact mul_nonneg (mul_pos e.fillQty_pos hprice).le (feeRate_nonneg cfg order)
    rw [settle_cashBalance_sell account order e hside, hfee]
    constructor
    · intro hcash _
      linarith
    · intro hcovered
      have := hcovered rfl
      linarith

end

/-- A turn keeps the state solvent just when its fill is sound. -/
theorem solvent_processOrder_iff (cfg : Config) (tick : Tick) (s : State) (orderId : ℕ)
    (hs : Solvent s) :
    Solvent (processOrder cfg tick s orderId).1 ↔ SoundTurn cfg tick s orderId := by
  apply processOrder_iff hs
  · intro order order' ho hidles
    refine ⟨hs.cash_nonneg, hs.position_nonneg, ?_⟩
    apply forall_mem_set hs.price_pos
    rw [hidles.fills]
    exact hs.price_pos order (List.mem_of_getElem? ho)
  · intro order e hthrough
    obtain ⟨basePrice, hexec⟩ := exists_executionOf hthrough.execution
    have hhalf : (0 : ℚ) < halfUnit := by norm_num [halfUnit]
    -- The new fill is the only price that has not been looked at.
    have hprices : (∀ o ∈ s.orders.set orderId (afterFill orderId order e),
        ∀ f ∈ o.fills, 0 < f.fillPrice) ↔ halfUnit < e.fillPrice := by
      rw [← round8_pos_iff]
      constructor
      · intro hall
        obtain ⟨hlt, _⟩ := List.getElem?_eq_some_iff.mp hthrough.stored
        exact hall _ (List.mem_set hlt _) (orderFill orderId e) (by simp)
      · intro hpos
        apply forall_mem_set hs.price_pos
        rw [afterFill_fills]
        intro f hf
        rcases List.mem_append.mp hf with hold | hnew
        · exact hs.price_pos order (List.mem_of_getElem? hthrough.stored) f hold
        · obtain rfl : f = orderFill orderId e := by simpa using hnew
          exact hpos
    rw [hthrough.processOrder_state]
    constructor
    · intro hafter base hbase
      obtain rfl : basePrice = base := Option.some.inj (hexec.basePrice_eq.symm.trans hbase)
      have hprice := hprices.mp hafter.price_pos
      have hcash := (settle_cash_nonneg_iff hexec (hhalf.trans hprice)).mp hafter.cash_nonneg
      rw [hexec.fillPrice_eq] at hprice
      rw [hexec.fillQty_eq, hexec.fillPrice_eq] at hcash
      exact ⟨hprice, hcash⟩
    · intro hsound
      obtain ⟨hprice, hfee⟩ := hsound basePrice hexec.basePrice_eq
      rw [← hexec.fillPrice_eq] at hprice hfee
      rw [← hexec.fillQty_eq] at hfee
      exact ⟨(settle_cash_nonneg_iff hexec (hhalf.trans hprice)).mpr hfee,
        settle_position_nonneg s.account order e hs.position_nonneg hexec.held,
        hprices.mpr hprice⟩

theorem solventRule (cfg : Config) :
    TurnRule cfg (fun _ => True) Solvent (SoundTurn cfg) where
  turn := fun _ _ _ _ => trivial
  turn_iff := fun tick s orderId _ hs => solvent_processOrder_iff cfg tick s orderId hs
  quiet := fun _ _ _ _ => trivial
  quiet_keeps := by
    intro s s' hquiet _ hs
    cases hquiet with
    | same h => rwa [h]
    | placed order hnew h =>
      rw [h]
      refine ⟨hs.cash_nonneg, hs.position_nonneg, ?_⟩
      apply forall_mem_concat hs.price_pos
      rw [hnew.fills]
      exact fun f hf => absurd hf List.not_mem_nil
    | cancelled orderId order ho hstatus h =>
      rw [h]
      refine ⟨hs.cash_nonneg, hs.position_nonneg, ?_⟩
      exact forall_mem_set hs.price_pos orderId (hs.price_pos order (List.mem_of_getElem? ho))

theorem solvent_initialState_iff (initialBalance : ℚ) :
    Solvent (initialState initialBalance) ↔ 0 ≤ initialBalance := by
  constructor
  · exact fun h => h.cash_nonneg
  · intro h
    exact ⟨h, fun _ => le_rfl, fun _ hmem => absurd hmem List.not_mem_nil⟩

/-- Every state of a run is solvent just when the run starts without debts and every
fill of it is sound. -/
theorem run_solvent_iff (cfg : Config) (initialBalance : ℚ) (operations : List Operation) :
    (Solvent (initialState initialBalance) ∧
      ∀ earlier operation, earlier ++ [operation] <+: operations →
        OperationStates cfg Solvent (runOperations cfg initialBalance earlier) operation) ↔
      0 ≤ initialBalance ∧ ∀ earlier operation, earlier ++ [operation] <+: operations →
        OperationTurns cfg (SoundTurn cfg) (runOperations cfg initialBalance earlier)
          operation := by
  rw [← solvent_initialState_iff]
  apply and_congr_right
  intro hinitial
  exact (solventRule cfg).run_iff initialBalance trivial hinitial operations

/-- Slippage of ten a unit, whatever the price. -/
def fixedTenConfig : Config :=
  { defaultConfig with slippageConfig := ⟨.FIXED, 10⟩ }

def sellOne : OrderRequest :=
  ⟨"BTC-USD", .MARKET, .SELL, 1, none, none, buyOne.quantity_pos⟩

def indebted : State :=
  runOperations fixedTenConfig 12
    [.submit buyOne, .processMarketTick deepTick, .submit sellOne, .processMarketTick deepTick]

/-- The sale at a price of one is recorded at minus nine, and leaves a debt. -/
theorem indebted_not_solvent :
    (indebted.orders.map fun order => order.fills.map OrderFill.fillPrice) = [[11], [-9]] ∧
      indebted.account.cashBalance < 0 ∧ ¬ Solvent indebted := by
  have hcash : indebted.account.cashBalance < 0 := by decide +kernel
  refine ⟨by decide +kernel, hcash, ?_⟩
  intro h
  exact absurd h.cash_nonneg (not_le.mpr hcash)

end TradeStream.OrderSimulator
