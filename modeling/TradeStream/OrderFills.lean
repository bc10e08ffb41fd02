import TradeStream.OrderTurns

/-! What an order says of its fills, and the fills that it records wrongly. -/
namespace TradeStream.OrderSimulator
open TradeStream.RoundDecimal TradeStream.RunSteps

def SimulatedOrder.recordedQuantity (order : SimulatedOrder) : ℚ :=
  (order.fills.map OrderFill.quantity).sum

/-- The mean price of the recorded fills, weighted by their quantities. -/
def SimulatedOrder.meanPrice (order : SimulatedOrder) : ℚ :=
  (order.fills.map fun f => f.fillPrice * f.quantity).sum / order.recordedQuantity

/-- The order agrees with its recorded fills. Averages are kept to eight decimals. -/
structure Consistent (order : SimulatedOrder) : Prop where
  filled_eq : order.filledQuantity = order.recordedQuantity
  filled_le : order.filledQuantity ≤ order.quantity
  average_eq : order.filledQuantity ≠ 0 → order.averageFillPrice = round8 order.meanPrice
  filled_iff : order.status = .FILLED ↔ order.filledQuantity = order.quantity
  /-- An order filled up to its quantity, as far as eight decimals can tell, is not left open. -/
  closed : order.fills ≠ [] → order.filledQuantity = round8 order.quantity →
    order.status = .FILLED

/-- A fill of this quantity is one that the order can record: it is not a tie on top of
an odd number of units, and it does not fill up a quantity of more than eight decimals. -/
structure Recordable (order : SimulatedOrder) (fillQty : ℚ) : Prop where
  no_tie : Int.fract (fillQty * 10 ^ 8) = 1 / 2 → Even ⌊order.filledQuantity * 10 ^ 8⌋
  fills_up : round8 (order.filledQuantity + fillQty) = round8 order.quantity →
    IsDecimal 8 order.quantity

/-- The order after its fill, whether or not the average was computed. -/
def afterFill (orderId : ℕ) (order : SimulatedOrder) (e : Execution) : SimulatedOrder :=
  if (appendFill orderId order e).filledQuantity = 0 then appendFill orderId order e
  else updateStatus (appendFill orderId order e)

section
variable (orderId : ℕ) (order : SimulatedOrder) (e : Execution)

theorem appendFill_filledQuantity :
    (appendFill orderId order e).filledQuantity = round8 (order.filledQuantity + e.fillQty) := rfl

@[simp] theorem afterFill_filledQuantity :
    (afterFill orderId order e).filledQuantity = round8 (order.filledQuantity + e.fillQty) := by
  unfold afterFill
  split_ifs <;> rfl

@[simp] theorem afterFill_quantity : (afterFill orderId order e).quantity = order.quantity := by
  unfold afterFill
  split_ifs <;> rfl

@[simp] theorem afterFill_fills :
    (afterFill orderId order e).fills = order.fills ++ [orderFill orderId e] := by
  unfold afterFill
  split_ifs <;> rfl

theorem afterFill_recordedQuantity :
    (afterFill orderId order e).recordedQuantity = order.recordedQuantity + round8 e.fillQty := by
  simp [SimulatedOrder.recordedQuantity, orderFill]

theorem afterFill_status :
    (afterFill orderId order e).status =
      if round8 (order.filledQuantity + e.fillQty) = 0 then order.status
      else if |round8 (order.filledQuantity + e.fillQty) - order.quantity| < 1 / 10 ^ 10 then
        .FILLED
      else .PARTIALLY_FILLED := by
  rw [afterFill, appendFill_filledQuantity]
  split_ifs with hzero hnear
  · rfl
  · exact if_pos hnear
  · exact if_neg hnear

theorem afterFill_average (h : round8 (order.filledQuantity + e.fillQty) ≠ 0) :
    (afterFill orderId order e).averageFillPrice = round8
      (((afterFill orderId order e).fills.map fun f => f.fillPrice * f.quantity).sum /
        (afterFill orderId order e).filledQuantity) := by
  rw [afterFill_fills, afterFill_filledQuantity, afterFill, appendFill_filledQuantity, if_neg h]
  rfl

end

section
variable {order : SimulatedOrder} {e : Execution}

/-- The recorded quantity of a fill is what it adds, but for the ties. -/
theorem filled_eq_afterFill_iff (orderId : ℕ) (hdec : IsDecimal 8 order.filledQuantity)
    (h : order.filledQuantity = order.recordedQuantity) :
    (afterFill orderId order e).filledQuantity = (afterFill orderId order e).recordedQuantity ↔
      (Int.fract (e.fillQty * 10 ^ 8) = 1 / 2 → Even ⌊order.filledQuantity * 10 ^ 8⌋) := by
  obtain ⟨n, hn⟩ := hdec
  rw [afterFill_filledQuantity, afterFill_recordedQuantity, ← h, round8, round8,
    roundTo_add_iff 8 hn, hn, Int.floor_intCast]

/-- Rounding takes what is filled past a quantity of eight decimals never, and past
another one only where it fills it up. -/
theorem round8_le_quantity {filled : ℚ} (hle : filled ≤ order.quantity)
    (hup : round8 filled = round8 order.quantity → IsDecimal 8 order.quantity) :
    round8 filled = order.quantity ∨ round8 filled + 1 / 2 / 10 ^ 8 ≤ order.quantity := by
  have hmono : round8 filled ≤ round8 order.quantity := roundTo_mono 8 hle
  rcases hmono.eq_or_lt with heq | hlt
  · left
    rw [heq]
    exact (hup heq).roundTo_eq
  · right
    have hunit := (isDecimal_roundTo 8 filled).add_unit_le (isDecimal_roundTo 8 order.quantity) hlt
    have hnear := abs_le.mp (abs_roundTo_sub_le 8 order.quantity)
    change round8 filled + _ ≤ round8 order.quantity at hunit
    change _ ∧ round8 order.quantity - order.quantity ≤ _ at hnear
    linarith

/-- The status says whether the order is full, unless a fill that filled it up could
not be recorded. -/
theorem status_afterFill_iff (orderId : ℕ) (hopen : order.status ≠ .FILLED)
    (hle : order.filledQuantity + e.fillQty ≤ order.quantity)
    (hup : round8 (order.filledQuantity + e.fillQty) = round8 order.quantity →
      IsDecimal 8 order.quantity) :
    (afterFill orderId order e).status = .FILLED ↔
      round8 (order.filledQuantity + e.fillQty) = order.quantity := by
  rw [afterFill_status]
  -- what is recorded is the whole quantity, or short of it by more than the tolerance
  rcases round8_le_quantity hle hup with heq | hfar
  · rw [heq, if_neg order.quantity_pos.ne', sub_self, abs_zero, if_pos (by norm_num)]
    simp
  · have hne : round8 (order.filledQuantity + e.fillQty) ≠ order.quantity := by
      intro heq
      rw [heq] at hfar
      norm_num at hfar
    have hdist : ¬ |round8 (order.filledQuantity + e.fillQty) - order.quantity| < 1 / 10 ^ 10 := by
      rw [abs_lt, not_and_or]
      left
      rw [not_lt]
      norm_num at hfar ⊢
      linarith
    rw [if_neg hdist]
    split_ifs with hzero
    · exact iff_of_false hopen hne
    · exact iff_of_false (by simp) hne

/-- The exact condition under which an order stays consistent through a fill. -/
theorem consistent_afterFill_iff (orderId : ℕ) (hdec : IsDecimal 8 order.filledQuantity)
    (h : Consistent order) (hopen : order.status ≠ .FILLED)
    (hle : order.filledQuantity + e.fillQty ≤ order.quantity) :
    Consistent (afterFill orderId order e) ↔ Recordable order e.fillQty := by
  constructor
  · intro hafter
    refine ⟨(filled_eq_afterFill_iff orderId hdec h.filled_eq).mp hafter.filled_eq, ?_⟩
    intro hup
    -- The order is full to eight decimals, so it is `FILLED`, so it is full.
    have hstatus := hafter.closed (by simp) (by simpa using hup)
    have hfull := hafter.filled_iff.mp hstatus
    rw [afterFill_filledQuantity, afterFill_quantity] at hfull
    rw [← hfull]
    exact isDecimal_roundTo 8 _
  · intro hrec
    have heq := (filled_eq_afterFill_iff orderId hdec h.filled_eq).mpr hrec.no_tie
    have hstatus := status_afterFill_iff orderId hopen hle hrec.fills_up
    constructor
    · exact heq
    · rw [afterFill_filledQuantity, afterFill_quantity]
      rcases round8_le_quantity hle hrec.fills_up with hfull | hfar
      · exact hfull.le
      · have hunit : (0 : ℚ) < 1 / 2 / 10 ^ 8 := by norm_num
        linarith
    · intro hne
      rw [afterFill_filledQuantity] at hne
      rw [afterFill_average orderId order e hne, heq]
      rfl
    · rwa [afterFill_filledQuantity, afterFill_quantity]
    · intro _ hup
      rw [afterFill_filledQuantity, afterFill_quantity] at hup
      apply hstatus.mpr
      rw [hup]
      exact (hrec.fills_up hup).roundTo_eq

end

theorem GoesThrough.processOrder_state {cfg : Config} {tick : Tick} {s : State} {orderId : ℕ}
    {order : SimulatedOrder} {e : Execution} (h : GoesThrough cfg tick s orderId order e) :
    (OrderSimulator.processOrder cfg tick s orderId).1 =
      ⟨s.orders.set orderId (afterFill orderId order e), settle s.account order e⟩ := by
  rw [h.processOrder, afterFill]
  split_ifs <;> rfl

/-- Filled quantities are kept to eight decimals. -/
def KeepsDecimals (s : State) : Prop := ∀ order ∈ s.orders, IsDecimal 8 order.filledQuantity

def AllConsistent (s : State) : Prop := ∀ order ∈ s.orders, Consistent order

/-- If the order has a fill in its turn, it can record it. -/
def RecordableTurn (cfg : Config) (tick : Tick) (s : State) (orderId : ℕ) : Prop :=
  ∀ order e, GoesThrough cfg tick s orderId order e → Recordable order e.fillQty

theorem IsNew.consistent {order : SimulatedOrder} (h : IsNew order) : Consistent order := by
  constructor
  · simp [SimulatedOrder.recordedQuantity, h.filledQuantity, h.fills]
  · rw [h.filledQuantity]
    exact order.quantity_pos.le
  · exact fun hne => absurd h.filledQuantity hne
  · rw [h.status, h.filledQuantity]
    exact iff_of_false (by simp) order.quantity_pos.ne
  · exact fun hne => absurd h.fills hne

/-- A change of status alone between two other than `FILLED`. -/
theorem Consistent.withStatus {order : SimulatedOrder} (h : Consistent order)
    {status : OrderStatus} (hbefore : order.status ≠ .FILLED) (hafter : status ≠ .FILLED) :
    Consistent { order with status := status } := by
  constructor
  · exact h.filled_eq
  · exact h.filled_le
  · exact h.average_eq
  · exact iff_of_false hafter fun hfull => hbefore (h.filled_iff.mpr hfull)
  · exact fun hfills hup => absurd (h.closed hfills hup) hbefore

theorem ne_filled_of_isOpen {order : SimulatedOrder} (h : isOpen order = true) :
    order.status ≠ .FILLED := by
  intro hfilled
  simp [isOpen, hfilled] at h

theorem Idles.consistent {order order' : SimulatedOrder} (h : Idles order order')
    (hcons : Consistent order) : Consistent order' := by
  rcases h with rfl | ⟨hopen, rfl⟩
  · exact hcons
  · exact hcons.withStatus (ne_filled_of_isOpen hopen) (by simp)

theorem Idles.filledQuantity {order order' : SimulatedOrder} (h : Idles order order') :
    order'.filledQuantity = order.filledQuantity := by
  rcases h with rfl | ⟨_, rfl⟩ <;> rfl

theorem GoesThrough.fill_le {cfg : Config} {tick : Tick} {s : State} {orderId : ℕ}
    {order : SimulatedOrder} {e : Execution} (h : GoesThrough cfg tick s orderId order e) :
    order.filledQuantity + e.fillQty ≤ order.quantity := by
  obtain ⟨basePrice, hexec⟩ := exists_executionOf h.execution
  have hmin : e.fillQty ≤ order.quantity - order.filledQuantity := by
    rw [hexec.fillQty_eq]
    exact min_le_left _ _
  linarith

theorem keepsDecimals_processOrder (cfg : Config) (tick : Tick) (s : State) (orderId : ℕ)
    (h : KeepsDecimals s) : KeepsDecimals (processOrder cfg tick s orderId).1 := by
  refine (processOrder_iff (R := fun _ _ => True) h ?_ ?_).mpr fun _ _ _ => trivial
  · intro order order' ho hidles
    apply forall_mem_set h
    rw [hidles.filledQuantity]
    exact h order (List.mem_of_getElem? ho)
  · intro order e hthrough
    refine iff_of_true ?_ trivial
    rw [hthrough.processOrder_state]
    apply forall_mem_set h
    rw [afterFill_filledQuantity]
    exact isDecimal_roundTo 8 _

/-- A turn keeps the orders consistent just when its fill can be recorded. -/
theorem allConsistent_processOrder_iff (cfg : Config) (tick : Tick) (s : State) (orderId : ℕ)
    (hdec : KeepsDecimals s) (h : AllConsistent s) :
    AllConsistent (processOrder cfg tick s orderId).1 ↔ RecordableTurn cfg tick s orderId := by
  apply processOrder_iff h
  · intro order order' ho hidles
    exact forall_mem_set h orderId (hidles.consistent (h order (List.mem_of_getElem? ho)))
  · intro order e hthrough
    have hmem := List.mem_of_getElem? hthrough.stored
    have hiff := consistent_afterFill_iff orderId (hdec order hmem) (h order hmem)
      (ne_filled_of_isOpen hthrough.isOpen) hthrough.fill_le
    rw [hthrough.processOrder_state, ← hiff]
    constructor
    · intro hall
      obtain ⟨hlt, _⟩ := List.getElem?_eq_some_iff.mp hthrough.stored
      exact hall _ (List.mem_set hlt _)
    · exact forall_mem_set h orderId

theorem fillsRule (cfg : Config) :
    TurnRule cfg KeepsDecimals AllConsistent (RecordableTurn cfg) where
  turn := keepsDecimals_processOrder cfg
  turn_iff := allConsistent_processOrder_iff cfg
  quiet := by
    intro s s' hquiet hdec
    cases hquiet with
    | same h => rwa [h]
    | placed order hnew h =>
      rw [h]
      apply forall_mem_concat hdec
      rw [hnew.filledQuantity]
      exact ⟨0, by simp⟩
    | cancelled orderId order ho hstatus h =>
      rw [h]
      exact forall_mem_set hdec orderId (hdec order (List.mem_of_getElem? ho))
  quiet_keeps := by
    intro s s' hquiet _ hcons
    cases hquiet with
    | same h => rwa [h]
    | placed order hnew h =>
      rw [h]
      exact forall_mem_concat hcons hnew.consistent
    | cancelled orderId order ho hstatus h =>
      rw [h]
      -- a cancelled order was not filled
      apply forall_mem_set hcons
      have hnotFilled : order.status ≠ .FILLED := fun hfilled => hstatus (Or.inl hfilled)
      exact (hcons order (List.mem_of_getElem? ho)).withStatus hnotFilled (by simp)

/-- What is done stays as it is. -/
def FinalKept (s s' : State) : Prop :=
  ∀ (i : ℕ) (order : SimulatedOrder), s.orders[i]? = some order → order.status.IsFinal →
    s'.orders[i]? = some order

theorem not_isOpen_of_IsFinal {order : SimulatedOrder} (h : order.status.IsFinal) :
    isOpen order = false := by
  rcases h with h | h | h <;> simp [isOpen, h]

theorem finalKept_set {s : State} {account : Account} {orderId : ℕ} {order order' : SimulatedOrder}
    (ho : s.orders[orderId]? = some order) (h : order.status.IsFinal → order' = order) :
    FinalKept s ⟨s.orders.set orderId order', account⟩ := by
  intro i o hi hfinal
  by_cases hid : orderId = i
  · subst hid
    obtain rfl : order = o := Option.some.inj (ho.symm.trans hi)
    obtain ⟨hlt, _⟩ := List.getElem?_eq_some_iff.mp ho
    simp [hlt, h hfinal]
  · simp [hid, hi]

theorem finalKept_processOrder (cfg : Config) (tick : Tick) (s : State) (orderId : ℕ) :
    FinalKept s (processOrder cfg tick s orderId).1 := by
  have hself : FinalKept s s := fun _ _ hi _ => hi
  refine (processOrder_iff (R := fun _ _ => True) hself ?_ ?_).mpr fun _ _ _ => trivial
  · intro order order' ho hidles
    apply finalKept_set ho
    intro hfinal
    rcases hidles with rfl | ⟨hopen, _⟩
    · rfl
    · rw [not_isOpen_of_IsFinal hfinal] at hopen
      cases hopen
  · intro order e hthrough
    refine iff_of_true ?_ trivial
    rw [hthrough.processOrder_state]
    apply finalKept_set hthrough.stored
    intro hfinal
    have hopen := hthrough.isOpen
    rw [not_isOpen_of_IsFinal hfinal] at hopen
    cases hopen

theorem FinalKept.refl (s : State) : FinalKept s s := fun _ _ hi _ => hi

theorem FinalKept.trans {s s' s'' : State} (h : FinalKept s s') (h' : FinalKept s' s'') :
    FinalKept s s'' :=
  fun i order ho hfinal => h' i order (h i order ho hfinal) hfinal

theorem finalKept_step (cfg : Config) (s : State) (operation : Operation) :
    FinalKept s (step cfg s operation) := by
  have hquiet : ∀ s', Quiet s s' → FinalKept s s' := by
    intro s' hquiet
    cases hquiet with
    | same h =>
      rw [h]
      exact FinalKept.refl s
    | placed order hnew h =>
      -- a new order stands behind all others
      rw [h]
      intro i o hi _
      obtain ⟨hlt, _⟩ := List.getElem?_eq_some_iff.mp hi
      rw [List.getElem?_append_left hlt]
      exact hi
    | cancelled orderId order ho hstatus h =>
      rw [h]
      exact finalKept_set ho fun hfinal => absurd hfinal hstatus
  cases operation with
  | submit request => exact hquiet _ (quiet_submit cfg s request)
  | cancel orderId => exact hquiet _ (quiet_cancel cfg s orderId)
  | processMarketTick tick =>
    -- each order has its turn, and no turn moves an order that is final
    have hturn : ∀ s' orderId, FinalKept s s' →
        FinalKept s (processOrder cfg tick s' orderId).1 :=
      fun s' orderId h => h.trans (finalKept_processOrder cfg tick s' orderId)
    apply processOrders_keeps (FinalKept.refl s)
    exact eachStep_of_invariant hturn hturn (FinalKept.refl s) _

theorem finalKept_run (cfg : Config) (initialBalance : ℚ) (earlier later : List Operation) :
    FinalKept (runOperations cfg initialBalance earlier)
      (runOperations cfg initialBalance (earlier ++ later)) := by
  have hfold : ∀ s, FinalKept s (later.foldl (step cfg) s) := by
    induction later with
    | nil => exact FinalKept.refl
    | cons operation later ih =>
      intro s
      exact (finalKept_step cfg s operation).trans (ih _)
  rw [runOperations, runOperations, List.foldl_append]
  exact hfold _

/-- In every state of a run, the orders agree with their fills just when no fill of the
run is one that its order cannot record. What is done keeps its fills in any case. -/
theorem run_consistent_iff (cfg : Config) (initialBalance : ℚ) (operations : List Operation) :
    ((∀ earlier operation, earlier ++ [operation] <+: operations →
        OperationStates cfg AllConsistent (runOperations cfg initialBalance earlier) operation) ∧
      ∀ earlier later, earlier ++ later <+: operations →
        FinalKept (runOperations cfg initialBalance earlier)
          (runOperations cfg initialBalance (earlier ++ later))) ↔
      ∀ earlier operation, earlier ++ [operation] <+: operations →
        OperationTurns cfg (RecordableTurn cfg) (runOperations cfg initialBalance earlier)
          operation := by
  have hrule := (fillsRule cfg).run_iff initialBalance
    (fun _ hmem => absurd hmem List.not_mem_nil) (fun _ hmem => absurd hmem List.not_mem_nil)
    operations
  rw [and_iff_left fun earlier later _ => finalKept_run cfg initialBalance earlier later]
  exact hrule

def buyNineDecimals : OrderRequest :=
  ⟨"BTC-USD", .MARKET, .BUY, 123456789 / 10 ^ 9, none, none, by norm_num⟩

/-- A tick of ample volume. -/
def deepTick : Tick where
  instrument := "BTC-USD"
  bid := 1
  ask := 1
  volume := 1000000
  volatility := 1 / 50
  now := "2026-01-01T00:00:00+00:00"
  randomFactor := fun _ => 1
  bid_pos := thinTick.bid_pos
  ask_pos := thinTick.ask_pos
  volume_pos := by norm_num
  volatility_nonneg := thinTick.volatility_nonneg

def overfilled : State :=
  runOperations defaultConfig 100000 [.submit buyNineDecimals, .processMarketTick deepTick]

/-- The order is filled past its quantity, and no later tick closes it. -/
theorem overfilled_stays_open :
    (overfilled.orders.map fun order => (order.filledQuantity, order.status)) =
        [(12345679 / 10 ^ 8, .PARTIALLY_FILLED)] ∧
      ((step defaultConfig overfilled (.processMarketTick deepTick)).orders.map fun order =>
        (order.filledQuantity, order.status)) = [(12345679 / 10 ^ 8, .PARTIALLY_FILLED)] ∧
      ¬ AllConsistent overfilled := by
  have hfilled : (overfilled.orders.map fun order => (order.filledQuantity, order.status)) =
      [(12345679 / 10 ^ 8, .PARTIALLY_FILLED)] := by decide +kernel
  refine ⟨hfilled, by decide +kernel, ?_⟩
  intro hcons
  have hle : ∀ order ∈ overfilled.orders, order.filledQuantity ≤ order.quantity :=
    fun order hmem => (hcons order hmem).filled_le
  revert hle
  decide +kernel

end TradeStream.OrderSimulator
