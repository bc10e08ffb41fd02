import TradeStream.OrderSimulator

/-! The account changes by recorded fills only, as long as no fill is too small to
be recorded. -/
namespace TradeStream.OrderSimulator
open TradeStream.RoundDecimal

/-- Half a unit of the eighth decimal. -/
def halfUnit : ℚ := 1 / 2 / 10 ^ 8

/-- The quantity that an order adds to its position. -/
def OrderSide.signed : OrderSide → ℚ → ℚ
  | .BUY, q => q
  | .SELL, q => -q

/-- A recorded fill accounts for what changed: some traded quantity, price and fee,
which it records to eight decimals, were exchanged, and nothing else. -/
structure Accounts (side : OrderSide) (instrument : String) (before after : Account)
    (f : OrderFill) : Prop where
  quantity_pos : 0 < f.quantity
  exchanged : ∃ q p fee, |f.quantity - q| ≤ halfUnit ∧ |f.fillPrice - p| ≤ halfUnit ∧
    |f.fee - fee| ≤ halfUnit ∧ after.cashBalance = before.cashBalance - side.signed q * p - fee ∧
    |after.position instrument - (before.position instrument + side.signed q)| ≤ halfUnit
  others : ∀ other, other ≠ instrument → after.position other = before.position other

/-- What one order may do to the state in its turn: nothing to the account, or a
change that one new fill of its own accounts for. -/
def OrderTurn (s s' : State) (orderId : ℕ) : Prop :=
  ∃ order order', s.orders[orderId]? = some order ∧ s'.orders = s.orders.set orderId order' ∧
    (s'.account = s.account ∧ order'.fills = order.fills ∨
      ∃ f, order'.fills = order.fills ++ [f] ∧
        Accounts order.side order.instrument s.account s'.account f)

/-- The orders have their turns one after the other. -/
inductive Turns : State → List ℕ → State → Prop where
  | nil (s : State) : Turns s [] s
  | cons {s s' s'' : State} {orderId : ℕ} {rest : List ℕ} (head : OrderTurn s s' orderId)
      (tail : Turns s' rest s'') : Turns s (orderId :: rest) s''

/-- A tick does not raise, and what it does to the account is accounted for. -/
def TickAccounts (cfg : Config) (s : State) (tick : Tick) : Prop :=
  (∃ fills, (processMarketTick cfg s tick).2 = .ok fills) ∧
    Turns s (List.range s.orders.length) (processMarketTick cfg s tick).1

/-- An operation accounts for what it does to the account. -/
def OperationAccounts (cfg : Config) (s : State) : Operation → Prop
  | .processMarketTick tick => TickAccounts cfg s tick
  | operation => (step cfg s operation).account = s.account

/-- An order whose turn it is, with a fill that goes through. -/
structure GoesThrough (cfg : Config) (tick : Tick) (s : State) (orderId : ℕ)
    (order : SimulatedOrder) (e : Execution) : Prop where
  stored : s.orders[orderId]? = some order
  instrument : order.instrument = tick.instrument
  isOpen : isOpen order = true
  unexpired : expired order tick.now = false
  execution : execution cfg tick (tick.randomFactor orderId) s.account order = some e

/-- The order is up for a fill in this state, of a positive quantity that rounds to
nothing. -/
def DustFill (cfg : Config) (tick : Tick) (s : State) (orderId : ℕ) : Prop :=
  ∃ order e, GoesThrough cfg tick s orderId order e ∧ e.fillQty ≤ halfUnit

/-- No order has a dust fill when its turn comes. -/
def NoDust (cfg : Config) (tick : Tick) (s : State) (orderIds : List ℕ) : Prop :=
  ∀ earlier orderId, earlier ++ [orderId] <+: orderIds →
    ¬ DustFill cfg tick (processOrders cfg tick s earlier).1 orderId

@[simp] theorem updatePosition_cashBalance (a : Account) (instrument : String)
    (delta price : ℚ) : (a.updatePosition instrument delta price).cashBalance = a.cashBalance := by
  simp only [Account.updatePosition]
  split_ifs <;> rfl

theorem updatePosition_position (a : Account) (instrument : String) (delta price : ℚ) :
    (a.updatePosition instrument delta price).position instrument =
      if |a.position instrument + delta| < 1 / 10 ^ 10 then 0
      else round8 (a.position instrument + delta) := by
  simp only [Account.updatePosition]
  split_ifs
  · simp [Account.position]
  all_goals simp [Account.position]

theorem updatePosition_other (a : Account) (instrument : String) (delta price : ℚ)
    (other : String) (h : other ≠ instrument) :
    (a.updatePosition instrument delta price).position other = a.position other := by
  simp only [Account.updatePosition]
  split_ifs
  all_goals simp [Account.position, h]

theorem abs_round8_sub_le (x : ℚ) : |round8 x - x| ≤ halfUnit := abs_roundTo_sub_le 8 x

theorem round8_pos_iff (x : ℚ) : 0 < round8 x ↔ halfUnit < x := roundTo_pos_iff 8 x

theorem abs_updatePosition_sub_le (a : Account) (instrument : String) (delta price : ℚ) :
    |(a.updatePosition instrument delta price).position instrument -
        (a.position instrument + delta)| ≤ halfUnit := by
  rw [updatePosition_position]
  split_ifs with hsmall
  · rw [zero_sub, abs_neg]
    apply hsmall.le.trans
    norm_num [halfUnit]
  · exact abs_round8_sub_le _

/-- A fill that is not dust accounts for what it settles. -/
theorem accounts_settle (orderId : ℕ) (account : Account) (order : SimulatedOrder)
    (e : Execution) (he : halfUnit < e.fillQty) :
    Accounts order.side order.instrument account (settle account order e)
      (orderFill orderId e) where
  quantity_pos := (round8_pos_iff e.fillQty).mpr he
  exchanged := by
    -- the account moves by the exact amounts, of which the fill has the rounded ones
    refine ⟨e.fillQty, e.fillPrice, e.fee, abs_round8_sub_le _, abs_round8_sub_le _,
      abs_round8_sub_le _, ?_, ?_⟩
    · unfold settle
      cases order.side with
      | BUY =>
        simp only [updatePosition_cashBalance, OrderSide.signed]
        ring
      | SELL =>
        simp only [updatePosition_cashBalance, OrderSide.signed]
        ring
    · unfold settle
      cases order.side with
      | BUY => exact abs_updatePosition_sub_le _ _ _ _
      | SELL => exact abs_updatePosition_sub_le _ _ _ _
  others := by
    intro other hother
    unfold settle
    cases order.side with
    | BUY => exact updatePosition_other _ _ _ _ _ hother
    | SELL => exact updatePosition_other _ _ _ _ _ hother

/-- Such an order is settled and its fill recorded, whether or not the average is
then computed. -/
theorem GoesThrough.processOrder {cfg : Config} {tick : Tick} {s : State} {orderId : ℕ}
    {order : SimulatedOrder} {e : Execution} (h : GoesThrough cfg tick s orderId order e) :
    processOrder cfg tick s orderId =
      if (appendFill orderId order e).filledQuantity = 0 then
        (⟨s.orders.set orderId (appendFill orderId order e), settle s.account order e⟩,
          .error .ZeroDivisionError)
      else
        (⟨s.orders.set orderId (updateStatus (appendFill orderId order e)),
          settle s.account order e⟩, .ok (some (orderFill orderId e))) := by
  simp only [OrderSimulator.processOrder, h.stored, h.instrument, h.isOpen, h.unexpired, tryFill,
    h.execution]
  by_cases hzero : (appendFill orderId order e).filledQuantity = 0
  · simp [hzero]
  · simp [hzero]

/-- An order that gets no fill in its turn stays as it is or expires. -/
def Idles (order order' : SimulatedOrder) : Prop :=
  order' = order ∨ isOpen order = true ∧ order' = { order with status := .EXPIRED }

theorem Idles.fills {order order' : SimulatedOrder} (h : Idles order order') :
    order'.fills = order.fills := by
  rcases h with rfl | ⟨_, rfl⟩
  · rfl
  · rfl

/-- Every other order leaves the account alone and idles. -/
theorem processOrder_cases (cfg : Config) (tick : Tick) (s : State) (orderId : ℕ)
    (order : SimulatedOrder) (ho : s.orders[orderId]? = some order) :
    (∃ order', Idles order order' ∧ processOrder cfg tick s orderId =
      (⟨s.orders.set orderId order', s.account⟩, .ok none)) ∨
        ∃ e, GoesThrough cfg tick s orderId order e := by
  obtain ⟨hlt, hget⟩ := List.getElem?_eq_some_iff.mp ho
  have hself : s.orders.set orderId order = s.orders := by
    rw [← hget]
    exact List.set_getElem_self hlt
  -- the order of the guards is that of `processOrder`
  by_cases hinstrument : order.instrument = tick.instrument
  · cases hopen : isOpen order with
    | false =>
      refine Or.inl ⟨order, Or.inl rfl, ?_⟩
      simp [processOrder, ho, hinstrument, hopen, hself]
    | true =>
      cases hexpired : expired order tick.now with
      | true =>
        refine Or.inl ⟨{ order with status := .EXPIRED }, Or.inr ⟨hopen, rfl⟩, ?_⟩
        simp [processOrder, ho, hinstrument, hopen, hexpired]
      | false =>
        cases he : execution cfg tick (tick.randomFactor orderId) s.account order with
        | none =>
          refine Or.inl ⟨order, Or.inl rfl, ?_⟩
          simp [processOrder, ho, hinstrument, hopen, hexpired, tryFill, he, hself]
        | some e => exact Or.inr ⟨e, ho, hinstrument, hopen, hexpired, he⟩
  · refine Or.inl ⟨order, Or.inl rfl, ?_⟩
    simp [processOrder, ho, hinstrument, hself]

/-- No order is lost, and fills are only appended. -/
def FillsExtend (s s' : State) : Prop :=
  s'.orders.length = s.orders.length ∧
    ∀ (i : ℕ) (order : SimulatedOrder), s.orders[i]? = some order →
      ∃ (order' : SimulatedOrder) (l : List OrderFill),
        s'.orders[i]? = some order' ∧ order'.fills = order.fills ++ l

theorem FillsExtend.refl (s : State) : FillsExtend s s :=
  ⟨rfl, fun _ order h => ⟨order, [], h, (List.append_nil _).symm⟩⟩

theorem FillsExtend.trans {s s' s'' : State} (h : FillsExtend s s') (h' : FillsExtend s' s'') :
    FillsExtend s s'' := by
  refine ⟨h'.1.trans h.1, ?_⟩
  intro i order ho
  obtain ⟨order', l, ho', hl⟩ := h.2 i order ho
  obtain ⟨order'', l', ho'', hl'⟩ := h'.2 i order' ho'
  exact ⟨order'', l ++ l', ho'', by rw [hl', hl, List.append_assoc]⟩

theorem fillsExtend_set (s : State) (account : Account) (orderId : ℕ)
    (order order' : SimulatedOrder) (l : List OrderFill) (ho : s.orders[orderId]? = some order)
    (hl : order'.fills = order.fills ++ l) :
    FillsExtend s ⟨s.orders.set orderId order', account⟩ := by
  refine ⟨List.length_set, ?_⟩
  intro i o hi
  by_cases hid : orderId = i
  · subst hid
    obtain rfl : order = o := Option.some.inj (ho.symm.trans hi)
    obtain ⟨hlt, _⟩ := List.getElem?_eq_some_iff.mp ho
    exact ⟨order', l, by simp [hlt], hl⟩
  · exact ⟨o, [], by simp [hid, hi], (List.append_nil _).symm⟩

theorem processOrder_fillsExtend (cfg : Config) (tick : Tick) (s : State) (orderId : ℕ) :
    FillsExtend s (processOrder cfg tick s orderId).1 := by
  cases ho : s.orders[orderId]? with
  | none =>
    have hnone : processOrder cfg tick s orderId = (s, .ok none) := by simp [processOrder, ho]
    rw [hnone]
    exact FillsExtend.refl s
  | some order =>
    rcases processOrder_cases cfg tick s orderId order ho with ⟨order', hidles, heq⟩ | ⟨e, h⟩
    · rw [heq]
      exact fillsExtend_set s _ orderId order order' [] ho (by rw [hidles.fills, List.append_nil])
    · rw [h.processOrder]
      split_ifs
      · exact fillsExtend_set s _ orderId order _ [orderFill orderId e] ho rfl
      · exact fillsExtend_set s _ orderId order _ [orderFill orderId e] ho rfl

theorem processOrders_cons_ok (cfg : Config) (tick : Tick) (s : State) (orderId : ℕ)
    (rest : List ℕ) (fill : Option OrderFill) (h : (processOrder cfg tick s orderId).2 = .ok fill) :
    (processOrders cfg tick s (orderId :: rest)).1 =
        (processOrders cfg tick (processOrder cfg tick s orderId).1 rest).1 ∧
      ((∃ fills, (processOrders cfg tick s (orderId :: rest)).2 = .ok fills) ↔
        ∃ fills, (processOrders cfg tick (processOrder cfg tick s orderId).1 rest).2 =
          .ok fills) := by
  rcases hp : processOrder cfg tick s orderId with ⟨s', result⟩
  rw [hp] at h
  obtain rfl : result = .ok fill := h
  rw [processOrders, hp]
  rcases hq : processOrders cfg tick s' rest with ⟨s'', result'⟩
  cases result' with
  | error e => simp [hq]
  | ok fills => simp [hq]

theorem processOrders_cons_error (cfg : Config) (tick : Tick) (s : State) (orderId : ℕ)
    (rest : List ℕ) (e : PyError) (h : (processOrder cfg tick s orderId).2 = .error e) :
    processOrders cfg tick s (orderId :: rest) =
      ((processOrder cfg tick s orderId).1, .error e) := by
  rcases hp : processOrder cfg tick s orderId with ⟨s', result⟩
  rw [hp] at h
  obtain rfl : result = .error e := h
  rw [processOrders, hp]

theorem processOrders_fillsExtend (cfg : Config) (tick : Tick) (orderIds : List ℕ) (s : State) :
    FillsExtend s (processOrders cfg tick s orderIds).1 := by
  induction orderIds generalizing s with
  | nil => exact FillsExtend.refl s
  | cons orderId rest ih =>
    have hhead := processOrder_fillsExtend cfg tick s orderId
    cases h : (processOrder cfg tick s orderId).2 with
    | error e =>
      rw [processOrders_cons_error cfg tick s orderId rest e h]
      exact hhead
    | ok fill =>
      rw [(processOrders_cons_ok cfg tick s orderId rest fill h).1]
      exact hhead.trans (ih _)

/-- An order without a dust fill has its turn, and nothing is raised. -/
theorem orderTurn_of_not_dustFill (cfg : Config) (tick : Tick) (s : State) (orderId : ℕ)
    (hid : orderId < s.orders.length) (h : ¬ DustFill cfg tick s orderId) :
    (∃ fill, (processOrder cfg tick s orderId).2 = .ok fill) ∧
      OrderTurn s (processOrder cfg tick s orderId).1 orderId := by
  have ho : s.orders[orderId]? = some s.orders[orderId] := List.getElem?_eq_getElem hid
  rcases processOrder_cases cfg tick s orderId _ ho with ⟨order', hidles, heq⟩ | ⟨e, hthrough⟩
  · rw [heq]
    exact ⟨⟨none, rfl⟩, _, order', ho, rfl, Or.inl ⟨rfl, hidles.fills⟩⟩
  · have he : halfUnit < e.fillQty := by
      by_contra hle
      exact h ⟨_, e, hthrough, not_lt.mp hle⟩
    -- What is filled already is not negative, so the sum is no dust either.
    have hfilled : (appendFill orderId s.orders[orderId] e).filledQuantity ≠ 0 := by
      have hnonneg := s.orders[orderId].filledQuantity_nonneg
      exact ((round8_pos_iff _).mpr (by linarith)).ne'
    rw [hthrough.processOrder, if_neg hfilled]
    exact ⟨⟨_, rfl⟩, _, _, ho, rfl, Or.inr ⟨orderFill orderId e, rfl,
      accounts_settle orderId s.account _ e he⟩⟩

theorem noDust_cons (cfg : Config) (tick : Tick) (s : State) (orderId : ℕ) (rest : List ℕ)
    (fill : Option OrderFill) (h : (processOrder cfg tick s orderId).2 = .ok fill) :
    NoDust cfg tick s (orderId :: rest) ↔ ¬ DustFill cfg tick s orderId ∧
      NoDust cfg tick (processOrder cfg tick s orderId).1 rest := by
  constructor
  · intro hno
    refine ⟨hno [] orderId (by simp), ?_⟩
    intro earlier j hpre
    have := hno (orderId :: earlier) j (by simpa using hpre)
    rwa [(processOrders_cons_ok cfg tick s orderId earlier fill h).1] at this
  · rintro ⟨hhead, htail⟩ earlier j hpre
    cases earlier with
    | nil =>
      obtain rfl : j = orderId := by simpa using hpre
      exact hhead
    | cons k earlier =>
      rw [List.cons_append, List.cons_prefix_cons] at hpre
      obtain ⟨rfl, hpre⟩ := hpre
      rw [(processOrders_cons_ok cfg tick s k earlier fill h).1]
      exact htail earlier j hpre

/-- Without dust fills every order has its turn, and nothing is raised. -/
theorem turns_of_noDust (cfg : Config) (tick : Tick) (orderIds : List ℕ) (s : State)
    (hids : ∀ i ∈ orderIds, i < s.orders.length) (h : NoDust cfg tick s orderIds) :
    (∃ fills, (processOrders cfg tick s orderIds).2 = .ok fills) ∧
      Turns s orderIds (processOrders cfg tick s orderIds).1 := by
  induction orderIds generalizing s with
  | nil => exact ⟨⟨[], rfl⟩, .nil s⟩
  | cons orderId rest ih =>
    have hhead : ¬ DustFill cfg tick s orderId := h [] orderId (by simp)
    obtain ⟨⟨fill, hfill⟩, hturn⟩ := orderTurn_of_not_dustFill cfg tick s orderId
      (hids orderId List.mem_cons_self) hhead
    have hlength := (processOrder_fillsExtend cfg tick s orderId).1
    obtain ⟨hok, hturns⟩ := ih (processOrder cfg tick s orderId).1
      (fun i hi => by
        rw [hlength]
        exact hids i (List.mem_cons_of_mem _ hi))
      ((noDust_cons cfg tick s orderId rest fill hfill).mp h).2
    obtain ⟨hstate, hiff⟩ := processOrders_cons_ok cfg tick s orderId rest fill hfill
    refine ⟨hiff.mpr hok, ?_⟩
    rw [hstate]
    exact .cons hturn hturns

/-- The fills that are new in `s'` all have a positive quantity. -/
def NewFillsPositive (s s' : State) : Prop :=
  ∀ (i : ℕ) (order order' : SimulatedOrder) (l : List OrderFill), s.orders[i]? = some order →
    s'.orders[i]? = some order' → order'.fills = order.fills ++ l → ∀ f ∈ l, 0 < f.quantity

theorem Turns.newFillsPositive {s s' : State} {orderIds : List ℕ} (h : Turns s orderIds s') :
    FillsExtend s s' ∧ NewFillsPositive s s' := by
  induction h with
  | nil s =>
    refine ⟨FillsExtend.refl s, ?_⟩
    intro i order order' l ho ho' hl
    obtain rfl : order = order' := Option.some.inj (ho.symm.trans ho')
    have hnil : l = [] := by simpa using hl
    simp [hnil]
  | @cons s mid s'' orderId rest head tail ih =>
    obtain ⟨order, order', ho, hset, hturn⟩ := head
    -- The turn appends at most one fill, of a positive quantity.
    obtain ⟨new, hnew, hpos⟩ : ∃ new, order'.fills = order.fills ++ new ∧
        ∀ f ∈ new, 0 < f.quantity := by
      rcases hturn with ⟨_, hfills⟩ | ⟨f, hfills, hacc⟩
      · exact ⟨[], by rw [hfills, List.append_nil], by simp⟩
      · exact ⟨[f], hfills, by simpa using hacc.quantity_pos⟩
    have hext : FillsExtend s mid := by
      have hmid : mid = ⟨s.orders.set orderId order', mid.account⟩ := by
        rw [← hset]
      rw [hmid]
      exact fillsExtend_set s _ orderId order order' new ho hnew
    refine ⟨hext.trans ih.1, ?_⟩
    intro i o o'' l hi hi'' hl f hf
    by_cases hid : orderId = i
    · subst hid
      obtain rfl : order = o := Option.some.inj (ho.symm.trans hi)
      obtain ⟨hlt, _⟩ := List.getElem?_eq_some_iff.mp ho
      have hmid : mid.orders[orderId]? = some order' := by simp [hset, hlt]
      obtain ⟨p, l', hp, hl'⟩ := ih.1.2 orderId order' hmid
      obtain rfl : p = o'' := Option.some.inj (hp.symm.trans hi'')
      have hcat : l = new ++ l' := by
        rw [hl', hnew, List.append_assoc] at hl
        exact (List.append_cancel_left hl).symm
      rw [hcat] at hf
      rcases List.mem_append.mp hf with hf | hf
      · exact hpos f hf
      · exact ih.2 orderId order' p l' hmid hi'' hl' f hf
    · have hmid : mid.orders[i]? = some o := by simp [hset, hid, hi]
      exact ih.2 i o o'' l hmid hi'' hl f hf

/-- A dust fill raises, or it is recorded with quantity zero. -/
theorem noDust_of_newFillsPositive (cfg : Config) (tick : Tick) (orderIds : List ℕ) (s : State)
    (hok : ∃ fills, (processOrders cfg tick s orderIds).2 = .ok fills)
    (hpos : NewFillsPositive s (processOrders cfg tick s orderIds).1) :
    NoDust cfg tick s orderIds := by
  induction orderIds generalizing s with
  | nil =>
    intro earlier j hpre
    simp at hpre
  | cons orderId rest ih =>
    have hext := processOrder_fillsExtend cfg tick s orderId
    cases hresult : (processOrder cfg tick s orderId).2 with
    | error e =>
      rw [processOrders_cons_error cfg tick s orderId rest e hresult] at hok
      obtain ⟨fills, hfills⟩ := hok
      cases hfills
    | ok fill =>
      obtain ⟨hstate, hiff⟩ := processOrders_cons_ok cfg tick s orderId rest fill hresult
      have hrest := processOrders_fillsExtend cfg tick rest (processOrder cfg tick s orderId).1
      rw [hstate] at hpos
      refine (noDust_cons cfg tick s orderId rest fill hresult).mpr ⟨?_, ?_⟩
      · rintro ⟨order, e, hthrough, hdust⟩
        have hfilled : (appendFill orderId order e).filledQuantity ≠ 0 := by
          intro hzero
          rw [hthrough.processOrder, if_pos hzero] at hresult
          cases hresult
        -- The zero quantity is among the new fills of the whole tick.
        obtain ⟨hlt, _⟩ := List.getElem?_eq_some_iff.mp hthrough.stored
        have hmid : (processOrder cfg tick s orderId).1.orders[orderId]? =
            some (updateStatus (appendFill orderId order e)) := by
          rw [hthrough.processOrder, if_neg hfilled]
          simp [hlt]
        obtain ⟨order', l, ho', hl⟩ := hrest.2 orderId _ hmid
        have hnew : order'.fills = order.fills ++ ([orderFill orderId e] ++ l) := by
          rw [hl, ← List.append_assoc]
          rfl
        have hqty := hpos orderId order order' _ hthrough.stored ho' hnew (orderFill orderId e)
          (by simp)
        exact absurd ((round8_pos_iff e.fillQty).mp hqty) (not_lt.mpr hdust)
      · apply ih _ (hiff.mp hok)
        intro i order order' l ho ho' hl f hf
        have hlen : i < s.orders.length := by
          obtain ⟨hlt, _⟩ := List.getElem?_eq_some_iff.mp ho
          rw [hext.1] at hlt
          exact hlt
        have hs : s.orders[i]? = some s.orders[i] := List.getElem?_eq_getElem hlen
        obtain ⟨mid, l', hmid, hl'⟩ := hext.2 i _ hs
        obtain rfl : mid = order := Option.some.inj (hmid.symm.trans ho)
        exact hpos i _ order' (l' ++ l) hs ho' (by rw [hl, hl', List.append_assoc]) f
          (List.mem_append_right _ hf)

/-- A tick accounts for what it does just when it has no dust fill. -/
theorem tickAccounts_iff (cfg : Config) (s : State) (tick : Tick) :
    TickAccounts cfg s tick ↔ NoDust cfg tick s (List.range s.orders.length) := by
  constructor
  · rintro ⟨hok, hturns⟩
    exact noDust_of_newFillsPositive cfg tick _ s hok hturns.newFillsPositive.2
  · exact turns_of_noDust cfg tick _ s fun i hi => List.mem_range.mp hi

/-- What an operation must not meet. -/
def OperationNoDust (cfg : Config) (s : State) : Operation → Prop
  | .processMarketTick tick => NoDust cfg tick s (List.range s.orders.length)
  | _ => True

theorem operationAccounts_iff (cfg : Config) (s : State) (operation : Operation) :
    OperationAccounts cfg s operation ↔ OperationNoDust cfg s operation := by
  cases operation with
  | processMarketTick tick => exact tickAccounts_iff cfg s tick
  | submit request =>
    refine iff_of_true ?_ trivial
    simp only [OperationAccounts, step, placeOrder]
    split_ifs <;> rfl
  | cancel orderId =>
    refine iff_of_true ?_ trivial
    simp only [OperationAccounts, step, cancelOrder]
    split
    · rfl
    · split_ifs <;> rfl

/-- In every run all operations account for what they do to the account, without an
exception, just when no tick of the run meets a dust fill. -/
theorem run_accounts_iff (cfg : Config) (initialBalance : ℚ) (operations : List Operation) :
    (∀ earlier operation, earlier ++ [operation] <+: operations →
        OperationAccounts cfg (runOperations cfg initialBalance earlier) operation) ↔
      ∀ earlier operation, earlier ++ [operation] <+: operations →
        OperationNoDust cfg (runOperations cfg initialBalance earlier) operation := by
  constructor
  · intro h earlier operation hpre
    exact (operationAccounts_iff cfg _ operation).mp (h earlier operation hpre)
  · intro h earlier operation hpre
    exact (operationAccounts_iff cfg _ operation).mpr (h earlier operation hpre)

/-- The defaults of the constructor. -/
def defaultConfig : Config where
  slippageConfig := ⟨.PERCENTAGE, 1 / 1000⟩
  feeSchedule := ⟨1 / 1000, 2 / 1000, by norm_num, by norm_num⟩
  maxFillRatio := 3 / 10

def buyOne : OrderRequest := ⟨"BTC-USD", .MARKET, .BUY, 1, none, none, by norm_num⟩

/-- A tick of almost no volume. -/
def thinTick : Tick where
  instrument := "BTC-USD"
  bid := 1
  ask := 1
  volume := 1 / 10 ^ 9
  volatility := 1 / 50
  now := "2026-01-01T00:00:00+00:00"
  randomFactor := fun _ => 1
  bid_pos := by norm_num
  ask_pos := by norm_num
  volume_pos := by norm_num
  volatility_nonneg := by norm_num

/-- The tick raises after the balance has changed. -/
theorem thinTick_raises :
    ((processMarketTick defaultConfig
        (runOperations defaultConfig 100000 [.submit buyOne]) thinTick).2.isOk = false ∧
      (processMarketTick defaultConfig
        (runOperations defaultConfig 100000 [.submit buyOne]) thinTick).1.account.cashBalance
          ≠ 100000) ∧
      ¬ TickAccounts defaultConfig (runOperations defaultConfig 100000 [.submit buyOne])
        thinTick := by
  have hraises : (processMarketTick defaultConfig
      (runOperations defaultConfig 100000 [.submit buyOne]) thinTick).2.isOk = false := by
    decide +kernel
  refine ⟨⟨hraises, by decide +kernel⟩, ?_⟩
  rintro ⟨⟨fills, hfills⟩, _⟩
  rw [hfills] at hraises
  cases hraises

end TradeStream.OrderSimulator
