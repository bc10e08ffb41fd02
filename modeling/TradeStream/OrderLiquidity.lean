import TradeStream.OrderTurns

/-! What a tick fills of all orders together. Every order has its own share of the
tick's volume, so the shares are bounded one by one and not in sum. -/
namespace TradeStream.OrderSimulator

section
variable {α : Type*} [AddCommGroup α] [LinearOrder α] [IsOrderedAddMonoid α]

/-- A term is less than the sum if it is not the only one. -/
theorem lt_sum_of_mem {l : List α} (hpos : ∀ x ∈ l, 0 < x) (hlen : 1 < l.length) {x : α}
    (hx : x ∈ l) : x < l.sum := by
  obtain ⟨before, after, rfl⟩ := List.append_of_mem hx
  have hbefore : 0 ≤ before.sum := List.sum_nonneg fun y hy => (hpos y (by simp [hy])).le
  have hafter : 0 ≤ after.sum := List.sum_nonneg fun y hy => (hpos y (by simp [hy])).le
  -- some other term stands before it or after it
  have hothers : 0 < before.sum + after.sum := by
    by_cases hnil : before = []
    · have hne : after ≠ [] := by
        rintro rfl
        simp [hnil] at hlen
      have hpos' := List.sum_pos after (fun y hy => hpos y (by simp [hy])) hne
      exact add_pos_of_nonneg_of_pos hbefore hpos'
    · have hpos' := List.sum_pos before (fun y hy => hpos y (by simp [hy])) hnil
      exact add_pos_of_pos_of_nonneg hpos' hafter
  have hsum : (before ++ x :: after).sum = x + (before.sum + after.sum) := by
    rw [List.sum_append, List.sum_cons, add_left_comm]
  rw [hsum]
  exact lt_add_of_pos_right x hothers

theorem sum_min_le_sum (remaining : List α) (cap : α) :
    (remaining.map fun r => min r cap).sum ≤ remaining.sum := by
  have h := List.sum_le_sum (l := remaining) (f := fun r => min r cap) (g := id)
    fun r _ => min_le_left r cap
  rwa [List.map_id] at h

/-- Shares of a cap stay within it in sum only if there is but one of them, or if the cap
covers all that remains. -/
theorem sum_min_le_iff {remaining : List α} {cap : α} (hpos : ∀ r ∈ remaining, 0 < min r cap) :
    (remaining.map fun r => min r cap).sum ≤ cap ↔
      0 ≤ cap ∧ (remaining.length ≤ 1 ∨ remaining.sum ≤ cap) := by
  have hshares : ∀ x ∈ remaining.map fun r => min r cap, 0 < x := by
    intro x hx
    obtain ⟨r, hr, rfl⟩ := List.mem_map.mp hx
    exact hpos r hr
  constructor
  · intro hle
    refine ⟨(List.sum_nonneg fun x hx => (hshares x hx).le).trans hle, ?_⟩
    rcases Nat.lt_or_ge 1 remaining.length with hlen | hlen
    · right
      -- the cap is no share of its own, since the others are not zero
      have hbelow : ∀ r ∈ remaining, min r cap = r := by
        intro r hr
        have hlt : min r cap < (remaining.map fun r => min r cap).sum :=
          lt_sum_of_mem hshares (by simpa using hlen) (List.mem_map.mpr ⟨r, hr, rfl⟩)
        rcases min_choice r cap with hleft | hright
        · exact hleft
        · rw [hright] at hlt
          exact absurd hle hlt.not_ge
      rwa [List.map_congr_left hbelow, List.map_id'] at hle
    · exact Or.inl hlen
  · rintro ⟨hcap, hone | hsum⟩
    · match remaining, hone with
      | [], _ => simpa using hcap
      | [r], _ => simp
    · exact (sum_min_le_sum remaining cap).trans hsum

end

/-- An order that a turn fills, as it is before the turn. -/
structure FilledOrder where
  orderId : ℕ
  order : SimulatedOrder
  execution : Execution

def FilledOrder.remaining (f : FilledOrder) : ℚ := f.order.quantity - f.order.filledQuantity

/-- The fill that goes through in a turn. -/
def turnFill (cfg : Config) (tick : Tick) (s : State) (orderId : ℕ) : Option FilledOrder :=
  match s.orders[orderId]? with
  | none => none
  | some order =>
    if order.instrument ≠ tick.instrument then none
    else if !isOpen order then none
    else if expired order tick.now then none
    else
      (execution cfg tick (tick.randomFactor orderId) s.account order).map
        (FilledOrder.mk orderId order)

theorem turnFill_eq_some_iff {cfg : Config} {tick : Tick} {s : State} {orderId : ℕ}
    {f : FilledOrder} :
    turnFill cfg tick s orderId = some f ↔
      f.orderId = orderId ∧ GoesThrough cfg tick s orderId f.order f.execution := by
  unfold turnFill
  cases ho : s.orders[orderId]? with
  | none =>
    constructor
    · intro h
      cases h
    · rintro ⟨-, hthrough⟩
      cases ho.symm.trans hthrough.stored
  | some order =>
    constructor
    · intro h
      simp only at h
      -- the guards of the turn are the fields of `GoesThrough`
      split_ifs at h with hinstrument hopen hexpired
      obtain ⟨e, he, rfl⟩ := Option.map_eq_some_iff.mp h
      exact ⟨rfl, ho, not_not.mp hinstrument, by simpa using hopen, by simpa using hexpired, he⟩
    · rintro ⟨hid, hthrough⟩
      have horder : order = f.order := Option.some.inj (ho.symm.trans hthrough.stored)
      have hf : FilledOrder.mk orderId f.order f.execution = f := by rw [← hid]
      rw [horder]
      simp [hthrough.instrument, hthrough.isOpen, hthrough.unexpired, hthrough.execution, hf]

/-- The fills of the turns that the loop takes. -/
def tickFills (cfg : Config) (tick : Tick) : State → List ℕ → List FilledOrder
  | _, [] => []
  | s, orderId :: rest =>
    (turnFill cfg tick s orderId).toList ++
      match (processOrder cfg tick s orderId).2 with
      | .error _ => []
      | .ok _ => tickFills cfg tick (processOrder cfg tick s orderId).1 rest

theorem processOrder_fill {cfg : Config} {tick : Tick} {s : State} {orderId : ℕ}
    {fill : Option OrderFill} (h : (processOrder cfg tick s orderId).2 = .ok fill) :
    fill = (turnFill cfg tick s orderId).map fun f => orderFill f.orderId f.execution := by
  cases hturn : turnFill cfg tick s orderId with
  | some f =>
    obtain ⟨hid, hthrough⟩ := turnFill_eq_some_iff.mp hturn
    rw [hthrough.processOrder] at h
    -- the turn that raises an error returns no fill
    split_ifs at h with hzero
    rw [Option.map_some, hid]
    exact (Except.ok.inj h).symm
  | none =>
    cases ho : s.orders[orderId]? with
    | none => simpa [processOrder, ho] using h.symm
    | some order =>
      rcases processOrder_cases cfg tick s orderId order ho with ⟨order', -, heq⟩ | ⟨e, he⟩
      · rw [heq] at h
        exact (Except.ok.inj h).symm
      · have hsome := turnFill_eq_some_iff (f := ⟨orderId, order, e⟩) |>.mpr ⟨rfl, he⟩
        rw [hturn] at hsome
        cases hsome

/-- What `process_market_tick` returns are these fills, rounded. -/
theorem processOrders_fills {cfg : Config} {tick : Tick} {s : State} {orderIds : List ℕ}
    {fills : List OrderFill} (h : (processOrders cfg tick s orderIds).2 = .ok fills) :
    fills = (tickFills cfg tick s orderIds).map fun f => orderFill f.orderId f.execution := by
  induction orderIds generalizing s fills with
  | nil => exact (Except.ok.inj h).symm
  | cons orderId rest ih =>
    rcases hp : processOrder cfg tick s orderId with ⟨s', result⟩
    rw [processOrders, hp] at h
    cases result with
    | error e => cases h
    | ok fill =>
      rcases hq : processOrders cfg tick s' rest with ⟨s'', result'⟩
      simp only [hq] at h
      cases result' with
      | error e => cases h
      | ok fills' =>
        have hfill := processOrder_fill (congrArg Prod.snd hp)
        have hrest := ih (congrArg Prod.snd hq)
        rw [← Except.ok.inj h, tickFills, hp, hfill, hrest, List.map_append]
        cases turnFill cfg tick s orderId with
        | none => rfl
        | some f => rfl

theorem executionOf_tickFills {cfg : Config} {tick : Tick} {s : State} {orderIds : List ℕ}
    {f : FilledOrder} (hf : f ∈ tickFills cfg tick s orderIds) :
    f.execution.fillQty = min f.remaining (tick.volume * cfg.maxFillRatio) := by
  induction orderIds generalizing s with
  | nil => exact absurd hf List.not_mem_nil
  | cons orderId rest ih =>
    rw [tickFills, List.mem_append] at hf
    rcases hf with hturn | hrest
    · obtain ⟨-, hthrough⟩ := turnFill_eq_some_iff.mp (Option.mem_toList.mp hturn)
      obtain ⟨basePrice, hof⟩ := exists_executionOf hthrough.execution
      exact hof.fillQty_eq
    · cases hresult : (processOrder cfg tick s orderId).2 with
      | error e => simp [hresult] at hrest
      | ok fill =>
        simp only [hresult] at hrest
        exact ih hrest

/-- The orders that a tick fills, in the order of their turns. -/
def filledOrders (cfg : Config) (s : State) (tick : Tick) : List FilledOrder :=
  tickFills cfg tick s (List.range s.orders.length)

/-- What a tick fills of all orders, as it is settled. -/
def totalFilled (cfg : Config) (s : State) (tick : Tick) : ℚ :=
  ((filledOrders cfg s tick).map fun f => f.execution.fillQty).sum

/-- The part of the tick's volume that may be filled. -/
def availableLiquidity (cfg : Config) (tick : Tick) : ℚ := tick.volume * cfg.maxFillRatio

theorem ten_pos : (0 : ℚ) < 10 := by norm_num

def buyTen : OrderRequest := ⟨"BTC-USD", .MARKET, .BUY, 10, none, none, ten_pos⟩

/-- A tick of a volume of ten, of which three may be filled. -/
def tickOfTen : Tick where
  instrument := "BTC-USD"
  bid := 1
  ask := 1
  volume := 10
  volatility := 1 / 50
  now := "2026-01-01T00:00:00+00:00"
  randomFactor := fun _ => 1
  bid_pos := thinTick.bid_pos
  ask_pos := thinTick.ask_pos
  volume_pos := ten_pos
  volatility_nonneg := thinTick.volatility_nonneg

def twoBuyers : State := runOperations defaultConfig 100000 [.submit buyTen, .submit buyTen]

end TradeStream.OrderSimulator
