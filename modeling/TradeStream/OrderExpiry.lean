import TradeStream.OrderTurns
import TradeStream.IsoText

/-! `expires_at` against the time of the tick. The texts are compared, and the exact
condition for that to be right is the one for the spellings of two instants. -/
namespace TradeStream.OrderSimulator
open TradeStream.IsoText TradeStream.IsoText.IsoInstant

/-- A turn leaves the other orders as they are. -/
theorem processOrder_other (cfg : Config) (tick : Tick) (s : State) {orderId i : ℕ}
    (h : orderId ≠ i) : (processOrder cfg tick s orderId).1.orders[i]? = s.orders[i]? := by
  cases ho : s.orders[orderId]? with
  | none => simp [processOrder, ho]
  | some order =>
    rcases processOrder_cases cfg tick s orderId order ho with ⟨order', -, heq⟩ | ⟨e, he⟩
    · rw [heq]
      exact List.getElem?_set_ne h
    · rw [he.processOrder]
      split_ifs
      · exact List.getElem?_set_ne h
      · exact List.getElem?_set_ne h

theorem processOrders_other (cfg : Config) (tick : Tick) (s : State) {orderIds : List ℕ} {i : ℕ}
    (h : i ∉ orderIds) : (processOrders cfg tick s orderIds).1.orders[i]? = s.orders[i]? := by
  induction orderIds generalizing s with
  | nil => rfl
  | cons orderId rest ih =>
    rw [List.mem_cons, not_or] at h
    have hhead := processOrder_other cfg tick s (Ne.symm h.1)
    cases hresult : (processOrder cfg tick s orderId).2 with
    | error e => rw [processOrders_cons_error cfg tick s orderId rest e hresult, hhead]
    | ok fill =>
      rw [(processOrders_cons_ok cfg tick s orderId rest fill hresult).1, ih _ h.2, hhead]

/-- The loop over more orders goes on from where it has got to. -/
theorem processOrders_append (cfg : Config) (tick : Tick) (s : State) (l l' : List ℕ)
    (h : ∃ fills, (processOrders cfg tick s l).2 = .ok fills) :
    (processOrders cfg tick s (l ++ l')).1 =
      (processOrders cfg tick (processOrders cfg tick s l).1 l').1 := by
  induction l generalizing s with
  | nil => rfl
  | cons orderId rest ih =>
    cases hresult : (processOrder cfg tick s orderId).2 with
    | error e =>
      -- the loop would not have got to the end of `l`
      rw [processOrders_cons_error cfg tick s orderId rest e hresult] at h
      obtain ⟨fills, hfills⟩ := h
      cases hfills
    | ok fill =>
      obtain ⟨hstate, hiff⟩ := processOrders_cons_ok cfg tick s orderId rest fill hresult
      have hstate' := (processOrders_cons_ok cfg tick s orderId (rest ++ l') fill hresult).1
      rw [List.cons_append, hstate', hstate, ih _ (hiff.mp h)]

/-- After its turn, an order is left alone for the rest of the tick. -/
theorem processOrders_cons_self (cfg : Config) (tick : Tick) (s : State) {orderId : ℕ}
    {rest : List ℕ} (h : orderId ∉ rest) :
    (processOrders cfg tick s (orderId :: rest)).1.orders[orderId]? =
      (processOrder cfg tick s orderId).1.orders[orderId]? := by
  cases hresult : (processOrder cfg tick s orderId).2 with
  | error e => rw [processOrders_cons_error cfg tick s orderId rest e hresult]
  | ok fill =>
    rw [(processOrders_cons_ok cfg tick s orderId rest fill hresult).1]
    exact processOrders_other cfg tick _ h

/-- The orders of a book, split at one of them. -/
theorem range_split {n i : ℕ} (h : i < n) :
    List.range n = List.range i ++ i :: List.range' (i + 1) (n - i - 1) := by
  have hlen : n = i + (n - i - 1 + 1) := by omega
  have hsplit : List.range' 0 (i + (n - i - 1 + 1)) =
      List.range' 0 i ++ List.range' (0 + 1 * i) (n - i - 1 + 1) := List.range'_append.symm
  rw [List.range_eq_range', List.range_eq_range']
  conv_lhs => rw [hlen, hsplit]
  rw [List.range'_succ, one_mul, zero_add]

/-- Comparing the strings is comparing the texts. -/
theorem expired_iff {order : SimulatedOrder} {a b : IsoInstant}
    (h : order.expiresAt = some (String.ofList a.text)) :
    expired order (String.ofList b.text) = true ↔ a.text < b.text := by
  -- an empty `expires_at` would stand for none
  have hne : String.ofList a.text ≠ "" := by
    intro hempty
    have hlist := congrArg String.toList hempty
    simp [IsoInstant.text, padded] at hlist
  have hlt : String.ofList a.text < String.ofList b.text ↔ a.text < b.text := by
    rw [String.lt_iff_toList_lt, String.toList_ofList, String.toList_ofList]
  simp only [expired, h, Bool.and_eq_true, decide_eq_true_eq, hlt]
  exact and_iff_right hne

/-- A fill leaves the order open or filled. -/
theorem afterTurn_status {cfg : Config} {tick : Tick} {s : State} {orderId : ℕ}
    {order : SimulatedOrder} {e : Execution} (h : GoesThrough cfg tick s orderId order e) :
    ∃ order', (processOrder cfg tick s orderId).1.orders[orderId]? = some order' ∧
      order'.status ≠ .EXPIRED := by
  obtain ⟨hlt, -⟩ := List.getElem?_eq_some_iff.mp h.stored
  rw [h.processOrder]
  split_ifs with hzero
  · refine ⟨_, List.getElem?_set_self hlt, ?_⟩
    intro hexpired
    have hopen := h.isOpen
    simp [isOpen] at hopen
    change order.status = .EXPIRED at hexpired
    rw [hexpired] at hopen
    simp at hopen
  · refine ⟨_, List.getElem?_set_self hlt, ?_⟩
    unfold updateStatus
    dsimp only
    split_ifs
    · simp
    · simp

/-- The turn of an open order of the tick's instrument. -/
theorem processOrder_status_iff {cfg : Config} {tick : Tick} {s : State} {orderId : ℕ}
    {order : SimulatedOrder} (ho : s.orders[orderId]? = some order)
    (hinstrument : order.instrument = tick.instrument) (hopen : isOpen order = true) :
    (∃ order', (processOrder cfg tick s orderId).1.orders[orderId]? = some order' ∧
      order'.status = .EXPIRED) ↔ expired order tick.now = true := by
  obtain ⟨hlt, -⟩ := List.getElem?_eq_some_iff.mp ho
  cases hexpired : expired order tick.now with
  | true =>
    -- the check comes before the price is looked at
    refine iff_of_true ?_ rfl
    have hturn : processOrder cfg tick s orderId =
        ({ s with orders := s.orders.set orderId { order with status := .EXPIRED } },
          .ok none) := by
      simp [processOrder, ho, hinstrument, hopen, hexpired]
    rw [hturn]
    exact ⟨_, List.getElem?_set_self hlt, rfl⟩
  | false =>
    refine iff_of_false ?_ Bool.false_ne_true
    rintro ⟨order', ho', hstatus⟩
    -- an order that is left as it is, or filled, has another status
    cases he : execution cfg tick (tick.randomFactor orderId) s.account order with
    | none =>
      have hturn : processOrder cfg tick s orderId =
          ({ s with orders := s.orders.set orderId order }, .ok none) := by
        simp [processOrder, ho, hinstrument, hopen, hexpired, tryFill, he]
      rw [hturn] at ho'
      have hsame : order = order' :=
        Option.some.inj ((List.getElem?_set_self hlt).symm.trans ho')
      rw [← hsame] at hstatus
      simp [isOpen, hstatus] at hopen
    | some e =>
      obtain ⟨order'', ho'', hne⟩ :=
        afterTurn_status ⟨ho, hinstrument, hopen, hexpired, he⟩
      rw [ho'] at ho''
      exact hne (Option.some.inj ho'' ▸ hstatus)

/-- What the tick does to an open order of its instrument that the loop gets to. -/
theorem processMarketTick_status_iff {cfg : Config} {s : State} {tick : Tick} {orderId : ℕ}
    {order : SimulatedOrder} {expiresAt now : IsoInstant}
    (ho : s.orders[orderId]? = some order) (hinstrument : order.instrument = tick.instrument)
    (hopen : isOpen order = true)
    (hexpires : order.expiresAt = some (String.ofList expiresAt.text))
    (hnow : tick.now = String.ofList now.text)
    (hturn : ∃ fills, (processOrders cfg tick s (List.range orderId)).2 = .ok fills) :
    (∃ order', (processMarketTick cfg s tick).1.orders[orderId]? = some order' ∧
      order'.status = .EXPIRED) ↔ expiresAt.text < now.text := by
  obtain ⟨hlt, -⟩ := List.getElem?_eq_some_iff.mp ho
  have hbefore : orderId ∉ List.range orderId := by simp
  have hafter : orderId ∉ List.range' (orderId + 1) (s.orders.length - orderId - 1) := by
    rw [List.mem_range'_1]
    omega
  -- the orders before it leave it alone, and so do those after it
  have hreached :
      (processOrders cfg tick s (List.range orderId)).1.orders[orderId]? = some order := by
    rw [processOrders_other cfg tick s hbefore, ho]
  rw [processMarketTick, range_split hlt, processOrders_append cfg tick s _ _ hturn,
    processOrders_cons_self cfg tick _ hafter,
    processOrder_status_iff hreached hinstrument hopen, hnow, expired_iff hexpires]

/-- The tick marks the order as expired just when it is due. -/
def ExpiresWhenDue (cfg : Config) (s : State) (tick : Tick) (orderId : ℕ)
    (expiresAt now : IsoInstant) : Prop :=
  (∃ order', (processMarketTick cfg s tick).1.orders[orderId]? = some order' ∧
    order'.status = .EXPIRED) ↔ expiresAt.instant < now.instant

/-- The first of January of 2026, at a full hour of a zone. -/
def newYear (hour : ℕ) (zone : Zone) (hour_lt : hour < 24) : IsoInstant where
  year := 2026
  month := 1
  day := 1
  hour := hour
  minute := 0
  second := 0
  decimals := []
  zone := zone
  year_lt := by norm_num
  month_mem := by norm_num
  day_mem := by norm_num [daysInMonth]
  hour_lt := hour_lt
  minute_lt := by norm_num
  second_lt := by norm_num
  decimals_lt := fun _ h => absurd h List.not_mem_nil

/-- Ten o'clock in UTC. -/
def fifteenInKarachi : IsoInstant :=
  newYear 15 (.ahead ⟨5, 0, by norm_num, by norm_num⟩) (by norm_num)

/-- As `datetime.now(timezone.utc).isoformat()` spells it. -/
def noonInUtc : IsoInstant := newYear 12 (.ahead ⟨0, 0, by norm_num, by norm_num⟩) (by norm_num)

def buyUntil (expiresAt : IsoInstant) : OrderRequest :=
  ⟨"BTC-USD", .MARKET, .BUY, 1, none, some (String.ofList expiresAt.text), buyOne.quantity_pos⟩

def tickAt (now : IsoInstant) : Tick where
  instrument := "BTC-USD"
  bid := 1
  ask := 1
  volume := 1
  volatility := 1 / 50
  now := String.ofList now.text
  randomFactor := fun _ => 1
  bid_pos := thinTick.bid_pos
  ask_pos := thinTick.ask_pos
  volume_pos := thinTick.bid_pos
  volatility_nonneg := thinTick.volatility_nonneg

/-- A book of the one order that expires at this time. -/
def bookUntil (expiresAt : IsoInstant) : State :=
  runOperations defaultConfig 100000 [.submit (buyUntil expiresAt)]

end TradeStream.OrderSimulator
