import TradeStream.Interleaving
import TradeStream.KeyedTable
import TradeStream.RunSteps

/-! Cancelling and modifying orders while fills change their status: each request reads
the order in one statement and writes it in the next. -/
namespace TradeStream.OrderChanges
open TradeStream.Interleaving TradeStream.KeyedTable TradeStream.RunSteps

inductive OrderStatus where
  | PENDING
  | OPEN
  | PARTIAL_FILL
  | FILLED
  | CANCELLED
  | EXPIRED
  deriving DecidableEq

/-- `status.lower()`. -/
def OrderStatus.lower : OrderStatus → String
  | .PENDING => "pending"
  | .OPEN => "open"
  | .PARTIAL_FILL => "partial_fill"
  | .FILLED => "filled"
  | .CANCELLED => "cancelled"
  | .EXPIRED => "expired"

/-- The place in the lifecycle. -/
def OrderStatus.rank : OrderStatus → ℕ
  | .PENDING => 0
  | .OPEN => 1
  | .PARTIAL_FILL => 2
  | .FILLED => 3
  | .CANCELLED => 3
  | .EXPIRED => 3

def cancellable : List OrderStatus := [.PENDING, .OPEN, .PARTIAL_FILL]

def modifiable : List OrderStatus := [.PENDING, .OPEN]

/-- A row of `orders`. -/
structure Order where
  symbol : String
  side : String
  orderType : String
  quantity : ℚ
  price : Option ℚ
  stopPrice : Option ℚ
  filledQuantity : ℚ
  avgFillPrice : Option ℚ
  status : OrderStatus
  deriving DecidableEq

abbrev Orders := Table String Order

/-- Requests, and the changes of an order's status that fills make. -/
inductive Request where
  | cancel (orderId : String)
  | modify (orderId : String) (price quantity : Option ℚ)
  | fill (orderId : String) (status : OrderStatus) (filledQuantity : ℚ) (avgFillPrice : Option ℚ)
  deriving DecidableEq

inductive Response where
  | order (order : Order)
  | notFound (orderId : String)
  | error (code message : String) (statusCode : ℕ)
  | validationError (message : String)
  | serverError (message : String)
  | done
  deriving DecidableEq

/-- The statement that a request executes next. -/
inductive Phase where
  | begin
  | update
  | ended (response : Response)
  | raised
  deriving DecidableEq

/-- What comes after the statement that returns the row: `_serialize_order` is outside of
the handler's `try`, and raises where there is no row. -/
def serializeOrder (row : Option Order) : Phase :=
  match row with
  | none => .raised
  | some order => .ended (.order order)

def modifiedOrder (price quantity : Option ℚ) (order : Order) : Order :=
  { order with
    price := if price.isSome then price else order.price
    quantity := quantity.getD order.quantity }

def selectToCancel (orders : Orders) (orderId : String) : Phase :=
  match orders.lookup orderId with
  | none => .ended (.notFound orderId)
  | some order =>
    if order.status ∈ cancellable then .update
    else .ended (.error "ORDER_NOT_CANCELLABLE" ("Order is already " ++ order.status.lower) 409)

/-- The `UPDATE` asks for the status again. -/
def updateToCancel (orders : Orders) (orderId : String) : Orders × Phase :=
  match orders.lookup orderId with
  | none => (orders, serializeOrder none)
  | some order =>
    if order.status ∈ cancellable then
      let order := { order with status := .CANCELLED }
      (orders.insert orderId order, serializeOrder (some order))
    else (orders, serializeOrder none)

def selectToModify (orders : Orders) (orderId : String) : Phase :=
  match orders.lookup orderId with
  | none => .ended (.notFound orderId)
  | some order =>
    if order.status ∈ modifiable then .update
    else
      .ended (.error "ORDER_NOT_MODIFIABLE"
        ("Cannot modify order with status " ++ order.status.lower) 409)

/-- The `UPDATE` does not. -/
def updateToModify (orders : Orders) (orderId : String) (price quantity : Option ℚ) :
    Orders × Phase :=
  match orders.lookup orderId with
  | none => (orders, serializeOrder none)
  | some order =>
    let order := modifiedOrder price quantity order
    (orders.insert orderId order, serializeOrder (some order))

def filledOrder (status : OrderStatus) (filledQuantity : ℚ) (avgFillPrice : Option ℚ)
    (order : Order) : Order :=
  { order with status := status, filledQuantity := filledQuantity, avgFillPrice := avgFillPrice }

/-- Fills move an order on in its lifecycle, and cancel none. -/
def fillOrder (orders : Orders) (orderId : String) (status : OrderStatus) (filledQuantity : ℚ)
    (avgFillPrice : Option ℚ) : Orders :=
  match orders.lookup orderId with
  | none => orders
  | some order =>
    if order.status.rank < status.rank ∧ status ≠ .CANCELLED then
      orders.insert orderId (filledOrder status filledQuantity avgFillPrice order)
    else orders

def execute (request : Request) (succeeds : Bool) (orders : Orders) (phase : Phase) :
    Orders × Phase :=
  match request, phase with
  | .cancel orderId, .begin =>
    (orders, if succeeds then selectToCancel orders orderId
      else .ended (.serverError "Failed to cancel order"))
  | .cancel orderId, .update =>
    if succeeds then updateToCancel orders orderId
    else (orders, .ended (.serverError "Failed to cancel order"))
  | .modify orderId price quantity, .begin =>
    (orders,
      if price = none ∧ quantity = none then
        .ended (.validationError "At least one of price or quantity must be provided")
      else if succeeds then selectToModify orders orderId
      else .ended (.serverError "Failed to modify order"))
  | .modify orderId price quantity, .update =>
    if succeeds then updateToModify orders orderId price quantity
    else (orders, .ended (.serverError "Failed to modify order"))
  | .fill orderId status filledQuantity avgFillPrice, .begin =>
    (if succeeds then fillOrder orders orderId status filledQuantity avgFillPrice else orders,
      .ended .done)
  | _, phase => (orders, phase)

/-- The price and the quantity change only in an order that may be modified. -/
def Unchanged (before after : Orders) : Prop :=
  ∀ orderId old new, before.lookup orderId = some old → after.lookup orderId = some new →
    old.status ∈ modifiable ∨ new.price = old.price ∧ new.quantity = old.quantity

def CancelsLive (before after : Orders) : Prop :=
  ∀ orderId old new, before.lookup orderId = some old → after.lookup orderId = some new →
    new.status = .CANCELLED → old.status = .CANCELLED ∨ old.status ∈ cancellable

/-- The statements that a request has before it. -/
def Phase.statements : Phase → ℕ
  | .begin => 2
  | .update => 1
  | .ended _ => 0
  | .raised => 0

/-- A statement brings its request nearer to its response, and no exception ends it. -/
structure Answers (before after : Phase) : Prop where
  caught : after = .raised → before = .raised
  nearer : after.statements < before.statements ∨ before.statements = 0

section
variable {ι : Type*} [DecidableEq ι] (requests : ι → Request)

def next (world : World ι Orders Phase) (turn : Turn ι Bool) : World ι Orders Phase :=
  world.step (fun i => execute (requests i)) turn

variable (ι) in
omit [DecidableEq ι] in
def start (orders : Orders) : World ι Orders Phase := ⟨orders, fun _ => .begin⟩

/-- What is asked of a turn. -/
structure Meets (world : World ι Orders Phase) (turn : Turn ι Bool) : Prop where
  unchanged : Unchanged world.db (next requests world turn).db
  cancelsLive : CancelsLive world.db (next requests world turn).db
  answers : Answers (world.processes turn.process)
    ((next requests world turn).processes turn.process)

end

/-- An order that a request is about to write may still be written: to be modified it is
pending or open, unless the values stay as they are, and to be cancelled it is not yet
filled, cancelled or expired. -/
def StillWritable (request : Request) (succeeds : Bool) (orders : Orders) (phase : Phase) : Prop :=
  phase = .update → succeeds = true →
    match request with
    | .cancel orderId => ∀ order, orders.lookup orderId = some order → order.status ∈ cancellable
    | .modify orderId price quantity => ∀ order, orders.lookup orderId = some order →
      order.status ∈ modifiable ∨ (modifiedOrder price quantity order).price = order.price ∧
        (modifiedOrder price quantity order).quantity = order.quantity
    | .fill _ _ _ _ => True

def Request.orderId : Request → String
  | .cancel orderId => orderId
  | .modify orderId _ _ => orderId
  | .fill orderId _ _ _ => orderId

def Request.isFill : Request → Bool
  | .fill _ _ _ _ => true
  | _ => false

/-- A request that has come to its update has found its order. -/
def Kept (request : Request) (orders : Orders) (phase : Phase) : Prop :=
  phase = .update → request.isFill = false ∧ (orders.lookup request.orderId).isSome = true

theorem unchanged_refl (orders : Orders) : Unchanged orders orders := by
  intro orderId old new hold hnew
  obtain rfl := Option.some.inj (hold.symm.trans hnew)
  exact .inr ⟨rfl, rfl⟩

theorem cancelsLive_refl (orders : Orders) : CancelsLive orders orders := by
  intro orderId old new hold hnew hcancelled
  obtain rfl := Option.some.inj (hold.symm.trans hnew)
  exact .inl hcancelled

section
variable {orders : Orders} {orderId : String} {old new : Order}

theorem unchanged_insert_iff (h : orders.lookup orderId = some old) :
    Unchanged orders (orders.insert orderId new) ↔
      old.status ∈ modifiable ∨ new.price = old.price ∧ new.quantity = old.quantity := by
  constructor
  · intro hunchanged
    exact hunchanged orderId old new h (AList.lookup_insert orders)
  · intro hown orderId' old' new' hold hnew
    by_cases hid : orderId' = orderId
    · subst hid
      obtain rfl := Option.some.inj (h.symm.trans hold)
      rw [AList.lookup_insert, Option.some.injEq] at hnew
      rwa [← hnew]
    -- every other order is as it was
    · rw [AList.lookup_insert_ne hid] at hnew
      exact unchanged_refl orders orderId' old' new' hold hnew

theorem cancelsLive_insert (h : orders.lookup orderId = some old)
    (hown : new.status = .CANCELLED → old.status = .CANCELLED ∨ old.status ∈ cancellable) :
    CancelsLive orders (orders.insert orderId new) := by
  intro orderId' old' new' hold hnew hcancelled
  by_cases hid : orderId' = orderId
  · subst hid
    obtain rfl := Option.some.inj (h.symm.trans hold)
    rw [AList.lookup_insert, Option.some.injEq] at hnew
    rw [← hnew] at hcancelled
    exact hown hcancelled
  · rw [AList.lookup_insert_ne hid] at hnew
    exact cancelsLive_refl orders orderId' old' new' hold hnew hcancelled

theorem isSome_lookup_insert {orderId' : String}
    (h : (orders.lookup orderId').isSome = true) :
    ((orders.insert orderId new).lookup orderId').isSome = true := by
  by_cases hid : orderId' = orderId
  · subst hid
    rw [AList.lookup_insert]
    rfl
  · rwa [AList.lookup_insert_ne hid]

end

section
variable {orders : Orders} {orderId : String}

theorem answers_of_ended {before : Phase} {response : Response}
    (h : before = .begin ∨ before = .update) : Answers before (.ended response) := by
  refine ⟨by simp, .inl ?_⟩
  obtain rfl | rfl := h <;> simp [Phase.statements]

theorem answers_of_select {after : Phase} (hraised : after ≠ .raised) (hbegin : after ≠ .begin) :
    Answers .begin after := by
  refine ⟨fun h => absurd h hraised, .inl ?_⟩
  cases after with
  | begin => exact absurd rfl hbegin
  | _ => simp [Phase.statements]

theorem answers_refl_of_ended {phase : Phase} (h : phase.statements = 0) : Answers phase phase :=
  ⟨id, .inr h⟩

theorem not_answers_raised : ¬ Answers .update .raised := by
  intro h
  cases h.caught rfl

theorem answers_selectToCancel : Answers .begin (selectToCancel orders orderId) := by
  apply answers_of_select
  · unfold selectToCancel
    cases orders.lookup orderId with
    | none => simp
    | some order => by_cases h : order.status ∈ cancellable <;> simp [h]
  · unfold selectToCancel
    cases orders.lookup orderId with
    | none => simp
    | some order => by_cases h : order.status ∈ cancellable <;> simp [h]

theorem answers_selectToModify : Answers .begin (selectToModify orders orderId) := by
  apply answers_of_select
  · unfold selectToModify
    cases orders.lookup orderId with
    | none => simp
    | some order => by_cases h : order.status ∈ modifiable <;> simp [h]
  · unfold selectToModify
    cases orders.lookup orderId with
    | none => simp
    | some order => by_cases h : order.status ∈ modifiable <;> simp [h]

/-- A fill leaves what was ordered, and cancels nothing. -/
theorem fillOrder_cases (orders : Orders) (orderId : String) (status : OrderStatus)
    (filledQuantity : ℚ) (avgFillPrice : Option ℚ) :
    fillOrder orders orderId status filledQuantity avgFillPrice = orders ∨
      ∃ old new, orders.lookup orderId = some old ∧ new.price = old.price ∧
        new.quantity = old.quantity ∧ new.status ≠ .CANCELLED ∧
          fillOrder orders orderId status filledQuantity avgFillPrice =
            orders.insert orderId new := by
  unfold fillOrder
  cases hlookup : orders.lookup orderId with
  | none => exact .inl rfl
  | some order =>
    by_cases hmoves : order.status.rank < status.rank ∧ status ≠ .CANCELLED
    -- the price and the quantity ordered are no part of a fill
    · exact .inr ⟨order, filledOrder status filledQuantity avgFillPrice order, rfl, rfl, rfl,
        hmoves.2, if_pos hmoves⟩
    · exact .inl (if_neg hmoves)

theorem meets_update_cancel_iff {order : Order} (h : orders.lookup orderId = some order) :
    (Unchanged orders (updateToCancel orders orderId).1 ∧
        Answers .update (updateToCancel orders orderId).2) ↔ order.status ∈ cancellable := by
  unfold updateToCancel
  rw [h]
  by_cases hlive : order.status ∈ cancellable
  · simp only [hlive, ↓reduceIte, iff_true]
    exact ⟨(unchanged_insert_iff h).mpr (.inr ⟨rfl, rfl⟩), answers_of_ended (.inr rfl)⟩
  · -- the update has matched no row
    simp only [hlive, ↓reduceIte, iff_false]
    exact fun hmeets => not_answers_raised hmeets.2

theorem meets_update_modify_iff {order : Order} (h : orders.lookup orderId = some order)
    (price quantity : Option ℚ) :
    (Unchanged orders (updateToModify orders orderId price quantity).1 ∧
        Answers .update (updateToModify orders orderId price quantity).2) ↔
      order.status ∈ modifiable ∨ (modifiedOrder price quantity order).price = order.price ∧
        (modifiedOrder price quantity order).quantity = order.quantity := by
  unfold updateToModify
  rw [h]
  simp only [unchanged_insert_iff h]
  exact and_iff_left (answers_of_ended (.inr rfl))

end

theorem unchanged_fillOrder (orders : Orders) (orderId : String) (status : OrderStatus)
    (filledQuantity : ℚ) (avgFillPrice : Option ℚ) :
    Unchanged orders (fillOrder orders orderId status filledQuantity avgFillPrice) := by
  obtain hsame | ⟨old, new, hold, hprice, hquantity, -, hinsert⟩ :=
    fillOrder_cases orders orderId status filledQuantity avgFillPrice
  · rw [hsame]
    exact unchanged_refl orders
  · rw [hinsert]
    exact (unchanged_insert_iff hold).mpr (.inr ⟨hprice, hquantity⟩)

/-- No first statement of a request goes wrong: it only reads, or it is a fill. -/
theorem unchanged_and_answers_begin (request : Request) (succeeds : Bool) (orders : Orders) :
    Unchanged orders (execute request succeeds orders .begin).1 ∧
      Answers .begin (execute request succeeds orders .begin).2 := by
  cases request with
  | cancel orderId =>
    refine ⟨unchanged_refl orders, ?_⟩
    simp only [execute]
    split_ifs
    · exact answers_selectToCancel
    · exact answers_of_ended (.inl rfl)
  | modify orderId price quantity =>
    refine ⟨unchanged_refl orders, ?_⟩
    simp only [execute]
    split_ifs
    · exact answers_of_ended (.inl rfl)
    · exact answers_selectToModify
    · exact answers_of_ended (.inl rfl)
  | fill orderId status filledQuantity avgFillPrice =>
    refine ⟨?_, answers_of_ended (.inl rfl)⟩
    simp only [execute]
    split_ifs
    · exact unchanged_fillOrder orders orderId status filledQuantity avgFillPrice
    · exact unchanged_refl orders

/-- Only these two updates can go wrong. -/
theorem unchanged_and_answers_iff {request : Request} {succeeds : Bool} {orders : Orders}
    {phase : Phase} (hkept : Kept request orders phase) :
    (Unchanged orders (execute request succeeds orders phase).1 ∧
        Answers phase (execute request succeeds orders phase).2) ↔
      StillWritable request succeeds orders phase := by
  have hsame {phase : Phase} (h : phase.statements = 0) :
      Unchanged orders orders ∧ Answers phase phase :=
    ⟨unchanged_refl orders, answers_refl_of_ended h⟩
  cases phase with
  | begin => exact iff_of_true (unchanged_and_answers_begin request succeeds orders) nofun
  -- what the row has become since it was read decides
  | update =>
    obtain ⟨hfill, hsome⟩ := hkept rfl
    obtain ⟨order, hlookup⟩ := Option.isSome_iff_exists.mp hsome
    cases request with
    | cancel orderId =>
      simp only [Request.orderId] at hlookup
      cases succeeds with
      | false =>
        exact iff_of_true ⟨unchanged_refl orders, answers_of_ended (.inr rfl)⟩ nofun
      | true =>
        simp only [execute, ↓reduceIte, meets_update_cancel_iff hlookup]
        simp [StillWritable, hlookup]
    | modify orderId price quantity =>
      simp only [Request.orderId] at hlookup
      cases succeeds with
      | false =>
        exact iff_of_true ⟨unchanged_refl orders, answers_of_ended (.inr rfl)⟩ nofun
      | true =>
        simp only [execute, ↓reduceIte, meets_update_modify_iff hlookup]
        simp [StillWritable, hlookup]
    | fill orderId status filledQuantity avgFillPrice => cases hfill
  | ended response => cases request <;> exact iff_of_true (hsame rfl) nofun
  | raised => cases request <;> exact iff_of_true (hsame rfl) nofun

/-- A statement writes the order of its request at most, and cancels it only while it is
live. -/
theorem fst_execute (request : Request) (succeeds : Bool) (orders : Orders) (phase : Phase) :
    (execute request succeeds orders phase).1 = orders ∨
      ∃ old new, orders.lookup request.orderId = some old ∧
        (new.status = .CANCELLED → old.status = .CANCELLED ∨ old.status ∈ cancellable) ∧
          (execute request succeeds orders phase).1 = orders.insert request.orderId new := by
  cases request with
  | cancel orderId =>
    cases phase with
    | update =>
      simp only [execute, Request.orderId]
      split_ifs
      · unfold updateToCancel
        cases hlookup : orders.lookup orderId with
        | none => exact .inl rfl
        | some order =>
          simp only
          split_ifs with hlive
          · exact .inr ⟨order, _, rfl, fun _ => .inr hlive, rfl⟩
          · exact .inl rfl
      · exact .inl rfl
    | _ => exact .inl rfl
  | modify orderId price quantity =>
    cases phase with
    | update =>
      simp only [execute, Request.orderId]
      split_ifs
      · unfold updateToModify
        cases hlookup : orders.lookup orderId with
        | none => exact .inl rfl
        | some order =>
          -- the status stays as it is, so that a cancelled order was one before
          exact .inr ⟨order, modifiedOrder price quantity order, rfl,
            fun hcancelled => .inl hcancelled, rfl⟩
      · exact .inl rfl
    | _ => exact .inl rfl
  | fill orderId status filledQuantity avgFillPrice =>
    cases phase with
    | begin =>
      simp only [execute, Request.orderId]
      split_ifs
      · obtain hsame | ⟨old, new, hold, -, -, hstatus, hinsert⟩ :=
          fillOrder_cases orders orderId status filledQuantity avgFillPrice
        · exact .inl hsame
        · exact .inr ⟨old, new, hold, fun hcancelled => absurd hcancelled hstatus, hinsert⟩
      · exact .inl rfl
    | _ => exact .inl rfl

theorem cancelsLive_execute (request : Request) (succeeds : Bool) (orders : Orders)
    (phase : Phase) : CancelsLive orders (execute request succeeds orders phase).1 := by
  obtain hsame | ⟨old, new, hold, hcancels, hinsert⟩ := fst_execute request succeeds orders phase
  · rw [hsame]
    exact cancelsLive_refl orders
  · rw [hinsert]
    exact cancelsLive_insert hold hcancels

theorem lookup_execute (request : Request) (succeeds : Bool) {orders : Orders} (phase : Phase)
    {orderId : String} (h : (orders.lookup orderId).isSome = true) :
    ((execute request succeeds orders phase).1.lookup orderId).isSome = true := by
  obtain hsame | ⟨old, new, -, -, hinsert⟩ := fst_execute request succeeds orders phase
  · rwa [hsame]
  · rw [hinsert]
    exact isSome_lookup_insert h

theorem update_of_select {orders : Orders} {orderId : String}
    (h : selectToCancel orders orderId = .update ∨ selectToModify orders orderId = .update) :
    (orders.lookup orderId).isSome = true := by
  cases hlookup : orders.lookup orderId with
  | none => simp [selectToCancel, selectToModify, hlookup] at h
  | some order => rfl

theorem kept_execute (request : Request) (succeeds : Bool) (orders : Orders) (phase : Phase) :
    Kept request (execute request succeeds orders phase).1
      (execute request succeeds orders phase).2 ∨
    (execute request succeeds orders phase).2 = phase := by
  cases phase with
  | begin =>
    apply Or.inl
    intro hupdate
    cases request with
    | cancel orderId =>
      simp only [execute] at hupdate
      split_ifs at hupdate
      exact ⟨rfl, update_of_select (.inl hupdate)⟩
    | modify orderId price quantity =>
      simp only [execute] at hupdate
      split_ifs at hupdate
      exact ⟨rfl, update_of_select (.inr hupdate)⟩
    | fill orderId status filledQuantity avgFillPrice => cases hupdate
  | update =>
    cases request with
    | cancel orderId =>
      simp only [execute, updateToCancel]
      split_ifs
      · cases orders.lookup orderId with
        | none => exact .inl nofun
        | some order =>
          simp only
          split_ifs <;> exact .inl nofun
      · exact .inl nofun
    | modify orderId price quantity =>
      simp only [execute, updateToModify]
      split_ifs
      · cases orders.lookup orderId <;> exact .inl nofun
      · exact .inl nofun
    | fill orderId status filledQuantity avgFillPrice => exact .inr rfl
  | ended response => cases request <;> exact .inr rfl
  | raised => cases request <;> exact .inr rfl

section
variable {ι : Type*} [DecidableEq ι] (requests : ι → Request)

theorem kept_next {world : World ι Orders Phase}
    (h : ∀ i, Kept (requests i) world.db (world.processes i)) (turn : Turn ι Bool) (i : ι) :
    Kept (requests i) (next requests world turn).db ((next requests world turn).processes i) := by
  revert i
  have hmono (i : ι) (hi : Kept (requests i) world.db (world.processes i)) :
      Kept (requests i) (next requests world turn).db (world.processes i) :=
    fun hphase => ⟨(hi hphase).1, lookup_execute _ _ _ (hi hphase).2⟩
  apply forall_processes_step (fun i => execute (requests i))
    (K := fun i orders phase => Kept (requests i) orders phase) h
  · obtain hkept | hphase := kept_execute (requests turn.process) turn.input world.db
      (world.processes turn.process)
    · exact hkept
    -- the phase has not moved, and its order has not gone
    · rw [hphase]
      exact hmono turn.process (h turn.process)
  · exact fun i _ hi => hmono i hi

theorem meets_iff {world : World ι Orders Phase}
    (h : ∀ i, Kept (requests i) world.db (world.processes i)) (turn : Turn ι Bool) :
    Meets requests world turn ↔
      StillWritable (requests turn.process) turn.input world.db (world.processes turn.process) := by
  rw [← unchanged_and_answers_iff (h turn.process)]
  constructor
  · intro hmeets
    have hanswers := hmeets.answers
    rw [next, processes_step_self] at hanswers
    exact ⟨hmeets.unchanged, hanswers⟩
  · intro ⟨hunchanged, hanswers⟩
    refine ⟨hunchanged, cancelsLive_execute _ _ _ _, ?_⟩
    rw [next, processes_step_self]
    exact hanswers

/-- Whatever requests and fills there are, in whatever order their statements come: prices
and quantities stay once an order is no longer pending or open, only live orders are
cancelled, and every request comes to a response, if and only if every update finds an
order that it may still write. -/
theorem meets_iff_stillWritable (orders : Orders) (turns : List (Turn ι Bool)) :
    (∀ earlier turn, earlier ++ [turn] <+: turns →
      Meets requests (earlier.foldl (next requests) (start ι orders)) turn) ↔
    ∀ earlier turn, earlier ++ [turn] <+: turns →
      let world := earlier.foldl (next requests) (start ι orders)
      StillWritable (requests turn.process) turn.input world.db (world.processes turn.process) := by
  apply forall_prefix_iff (next requests) (P := fun _ => True)
    (I := fun world => ∀ i, Kept (requests i) world.db (world.processes i))
    (C := fun world turn => StillWritable (requests turn.process) turn.input world.db
      (world.processes turn.process))
  · exact fun world turn h i => kept_next requests h turn i
  · exact fun world turn h _ => meets_iff requests h turn
  · exact fun _ _ _ _ _ => trivial
  · exact fun _ => nofun
  · trivial

end

/-- An order that is cancelled, modified and filled at the same time. -/
def threeRequests : Fin 3 → Request
  | 0 => .cancel "o"
  | 1 => .modify "o" (some 2) none
  | 2 => .fill "o" .FILLED 1 (some 1)

def openOrder : Order := ⟨"BTC/USD", "BUY", "LIMIT", 1, some 1, none, 0, none, .OPEN⟩

/-- The fill comes between the reads and the writes of the two requests. -/
def filledBetween : List (Turn (Fin 3) Bool) := (List.finRange 3).map fun i => ⟨i, true⟩

def filledWorld : World (Fin 3) Orders Phase :=
  filledBetween.foldl (next threeRequests)
    (start (Fin 3) ((∅ : Orders).insert "o" openOrder))

/-- The price of a filled order changes, and an exception escapes from the request that
cancels it. -/
theorem filledWorld_not_meets :
    ¬ Meets threeRequests filledWorld ⟨1, true⟩ ∧ ¬ Meets threeRequests filledWorld ⟨0, true⟩ := by
  constructor
  · intro h
    have hown := h.unchanged "o" (filledOrder .FILLED 1 (some 1) openOrder)
      (modifiedOrder (some 2) none (filledOrder .FILLED 1 (some 1) openOrder))
      (by decide +kernel) (by decide +kernel)
    revert hown
    decide +kernel
  · intro h
    -- the update has matched no row, and its result is serialized all the same
    have hcaught := h.answers.caught (by decide +kernel)
    revert hcaught
    decide +kernel

end TradeStream.OrderChanges
