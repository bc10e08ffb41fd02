import TradeStream.PortfolioBalance

/-! Concurrent calls of `close_trade`. A call reads its trade, and later closes it in a
transaction that does not look at the status again. A transaction keeps the rows that it
wrote locked until it commits, so that it is one step. -/
namespace TradeStream.PaperTrading.ConcurrentClose
open TradeStream.RoundDecimal TradeStream.RunSteps

structure CloseRequest where
  tradeId : ℕ
  exitPrice : ℚ

def tradePnl (trade : PaperTrade) (exitPrice : ℚ) : ℚ :=
  match trade.side with
  | .buy => (exitPrice - trade.entryPrice) * trade.quantity
  | .sell => (trade.entryPrice - exitPrice) * trade.quantity

/-- `SELECT ... WHERE id = $1 AND status = 'OPEN'`. -/
def findOpen (store : Store) (tradeId : ℕ) : Option PaperTrade :=
  store.trades[tradeId]?.filter fun trade => trade.status = .opened

/-- The transaction of `close_trade`, with the trade as it was read. The first statement
takes the row by its id alone. -/
def closeRead (store : Store) (request : CloseRequest) (trade : PaperTrade) : Store :=
  { store with
    trades := store.trades.modify request.tradeId fun row => { row with
      exitPrice := some (numeric request.exitPrice)
      pnl := some (numeric (tradePnl trade request.exitPrice))
      status := .closed }
    portfolio := Function.update store.portfolio trade.symbol
      (Store.removePosition (store.portfolio trade.symbol) trade.quantity) }

def closedResult (request : CloseRequest) (trade : PaperTrade) : Store.ClosedTrade :=
  ⟨trade.symbol, trade.side, trade.entryPrice, request.exitPrice, trade.quantity,
    roundTo 8 (tradePnl trade request.exitPrice)⟩

/-- How far a call is. -/
inductive Phase where
  | waiting
  | found (trade : PaperTrade)
  | returned (result : Option Store.ClosedTrade)

inductive Event (ι : Type*) where
  | read (i : ι)
  | close (i : ι)

structure World (ι : Type*) where
  store : Store
  phases : ι → Phase

variable {ι : Type*} [DecidableEq ι] (requests : ι → CloseRequest)

def World.step (w : World ι) : Event ι → World ι
  | .read i =>
    match w.phases i with
    | .waiting =>
      match findOpen w.store (requests i).tradeId with
      | some trade => { w with phases := Function.update w.phases i (.found trade) }
      | none => { w with phases := Function.update w.phases i (.returned none) }
    | _ => w
  | .close i =>
    match w.phases i with
    | .found trade =>
      { store := closeRead w.store (requests i) trade
        phases := Function.update w.phases i
          (.returned (some (closedResult (requests i) trade))) }
    | _ => w

/-- After the events, with each call's steps in the order of `close_trade`: an event that is
not its call's next step does nothing. -/
def World.after (store : Store) (events : List (Event ι)) : World ι :=
  events.foldl (World.step requests) ⟨store, fun _ => .waiting⟩

def IsClosed (store : Store) (tradeId : ℕ) : Prop :=
  ∃ trade, store.trades[tradeId]? = some trade ∧ trade.status = .closed

/-- The quantities of the closed trades of a symbol. -/
def closedQuantity (store : Store) (symbol : String) : ℚ :=
  ((store.trades.filter fun trade => trade.symbol = symbol ∧ trade.status = .closed).map
    PaperTrade.quantity).sum

/-- The portfolio has gone down by the quantity of each trade that was closed since, once. -/
def ReducedOnce (start store : Store) : Prop :=
  ∀ symbol, rowQuantity (store.portfolio symbol) + closedQuantity store symbol =
    rowQuantity (start.portfolio symbol) + closedQuantity start symbol

/-- There is enough in the row to take the quantity from it. -/
def Holds (existing : Option PortfolioRow) (quantity : ℚ) : Prop :=
  match existing with
  | none => quantity = 0
  | some row => quantity ≤ row.quantity

/-- Taking the quantity changes nothing. -/
def Spares (existing : Option PortfolioRow) (quantity : ℚ) : Prop :=
  match existing with
  | none => True
  | some row =>
    (row.quantity ≤ quantity → row.quantity = 0) ∧ (quantity < row.quantity → quantity = 0)

/-- The transaction finds its trade still open, and enough in the row; or closed by another
call, and nothing to take. -/
def Phase.ClosesOnce (store : Store) (request : CloseRequest) : Phase → Prop
  | .found trade =>
    if (findOpen store request.tradeId).isSome then
      Holds (store.portfolio trade.symbol) trade.quantity
    else Spares (store.portfolio trade.symbol) trade.quantity
  | _ => True

def ClosesOnce (w : World ι) : Event ι → Prop
  | .read _ => True
  | .close i => (w.phases i).ClosesOnce w.store (requests i)

instance (existing : Option PortfolioRow) (quantity : ℚ) : Decidable (Holds existing quantity) :=
  match existing with
  | none => inferInstanceAs (Decidable (quantity = 0))
  | some row => inferInstanceAs (Decidable (quantity ≤ row.quantity))

instance (existing : Option PortfolioRow) (quantity : ℚ) :
    Decidable (Spares existing quantity) :=
  match existing with
  | none => inferInstanceAs (Decidable True)
  | some row => inferInstanceAs (Decidable ((row.quantity ≤ quantity → row.quantity = 0) ∧
      (quantity < row.quantity → quantity = 0)))

instance (store : Store) (request : CloseRequest) (phase : Phase) :
    Decidable (phase.ClosesOnce store request) :=
  match phase with
  | .found trade => inferInstanceAs (Decidable (if (findOpen store request.tradeId).isSome then
      Holds (store.portfolio trade.symbol) trade.quantity
    else Spares (store.portfolio trade.symbol) trade.quantity))
  | .waiting => inferInstanceAs (Decidable True)
  | .returned _ => inferInstanceAs (Decidable True)

instance (w : World ι) (e : Event ι) : Decidable (ClosesOnce requests w e) :=
  match e with
  | .read _ => inferInstanceAs (Decidable True)
  | .close i => inferInstanceAs (Decidable ((w.phases i).ClosesOnce w.store (requests i)))

/-- What a call has read is what the trade still is, its status apart. -/
structure Consistent (w : World ι) : Prop where
  stored : w.store.Stored
  found : ∀ i trade, w.phases i = .found trade →
    ∃ row, w.store.trades[(requests i).tradeId]? = some row ∧ row.symbol = trade.symbol ∧
      row.quantity = trade.quantity

/-! ### The transaction -/

theorem findOpen_eq_some_iff {store : Store} {tradeId : ℕ} {trade : PaperTrade} :
    findOpen store tradeId = some trade ↔
      store.trades[tradeId]? = some trade ∧ trade.status = .opened := by
  simp [findOpen, Option.filter_eq_some_iff]

theorem modify_of_getElem? {α : Type*} {l : List α} {i : ℕ} {a : α} (h : l[i]? = some a)
    (f : α → α) : l.modify i f = l.set i (f a) := by
  simp [List.modify_eq_set_getElem?, h]

/-- A call without another in between is `close_trade` as one step. -/
theorem closeTrade_eq (store : Store) (request : CloseRequest) :
    store.closeTrade request.tradeId request.exitPrice =
      match findOpen store request.tradeId with
      | some trade => (closeRead store request trade, some (closedResult request trade))
      | none => (store, none) := by
  rw [Store.closeTrade]
  cases htrade : store.trades[request.tradeId]? with
  | none => simp [findOpen, htrade]
  | some trade =>
    by_cases hopened : trade.status = .opened
    · have hfind : findOpen store request.tradeId = some trade :=
        findOpen_eq_some_iff.mpr ⟨htrade, hopened⟩
      simp only [hfind, hopened, ↓reduceIte, closeRead, modify_of_getElem? htrade]
      rfl
    · have hfind : findOpen store request.tradeId = none := by
        simp [findOpen, htrade, hopened]
      simp only [hfind, hopened, ↓reduceIte]

/-- The transaction closes the row as it is now, whatever its status. -/
theorem closed_closeRead {store : Store} {request : CloseRequest} {trade row : PaperTrade}
    (hrow : store.trades[request.tradeId]? = some row) (hsymbol : row.symbol = trade.symbol)
    (hquantity : row.quantity = trade.quantity) :
    Store.Closed store (closeRead store request trade) request.tradeId row := by
  refine ⟨?_, _, modify_of_getElem? hrow _, rfl, rfl⟩
  rw [hsymbol, hquantity]
  rfl

/-- What a trade counts among the closed trades of a symbol. -/
def closedPart (symbol : String) (trade : PaperTrade) : ℚ :=
  if trade.symbol = symbol ∧ trade.status = .closed then trade.quantity else 0

theorem closedQuantity_eq_sum (store : Store) (symbol : String) :
    closedQuantity store symbol = (store.trades.map (closedPart symbol)).sum := by
  unfold closedPart
  rw [closedQuantity, List.sum_map_ite]
  simp

/-- The symbol of a trade that was open gets its quantity. -/
theorem closedQuantity_closeRead {store : Store} {request : CloseRequest}
    {trade row : PaperTrade} (hrow : store.trades[request.tradeId]? = some row)
    (other : String) :
    closedQuantity (closeRead store request trade) other = closedQuantity store other +
      if row.symbol = other ∧ row.status = .opened then row.quantity else 0 := by
  obtain ⟨hlt, hget⟩ := List.getElem?_eq_some_iff.mp hrow
  have hmapped : request.tradeId < (store.trades.map (closedPart other)).length := by
    rwa [List.length_map]
  rw [closedQuantity_eq_sum, closedQuantity_eq_sum, closeRead, modify_of_getElem? hrow,
    List.map_set, List.sum_set', dif_pos hmapped, List.getElem_map, hget]
  -- a trade that is closed once more counts no more than before
  simp only [closedPart]
  cases row.status with
  | opened => simp
  | closed => simp

/-- What the rows and the closed trades come to after the transaction. -/
theorem reducedOnce_closeRead_iff {start store : Store} {request : CloseRequest}
    {trade row : PaperTrade} (hreduced : ReducedOnce start store)
    (hrow : store.trades[request.tradeId]? = some row) (hsymbol : row.symbol = trade.symbol)
    (hquantity : row.quantity = trade.quantity) :
    ReducedOnce start (closeRead store request trade) ↔
      rowQuantity (Store.removePosition (store.portfolio trade.symbol) trade.quantity) +
          (if row.status = .opened then trade.quantity else 0) =
        rowQuantity (store.portfolio trade.symbol) := by
  have hportfolio : (closeRead store request trade).portfolio =
      Function.update store.portfolio trade.symbol
        (Store.removePosition (store.portfolio trade.symbol) trade.quantity) := rfl
  have hclosed (other : String) := @closedQuantity_closeRead store request trade row hrow other
  constructor
  · -- only the trade's own symbol can go wrong
    intro h
    have hafter := h trade.symbol
    have hbefore := hreduced trade.symbol
    rw [hclosed, hportfolio, Function.update_self] at hafter
    simp only [hsymbol, true_and, hquantity] at hafter
    linarith
  · intro h other
    have hbefore := hreduced other
    rw [hclosed, hportfolio]
    by_cases heq : other = trade.symbol
    · subst heq
      rw [Function.update_self]
      simp only [hsymbol, true_and, hquantity]
      linarith
    · have hother : ¬ (row.symbol = other ∧ row.status = .opened) := by
        rintro ⟨rfl, -⟩
        exact heq hsymbol
      rw [Function.update_of_ne heq, if_neg hother, add_zero]
      exact hbefore

theorem holds_iff {existing : Option PortfolioRow} {quantity : ℚ}
    (hdecimal : ∀ row, existing = some row → IsDecimal 8 row.quantity)
    (hquantity : IsDecimal 8 quantity) :
    rowQuantity (Store.removePosition existing quantity) + quantity = rowQuantity existing ↔
      Holds existing quantity := by
  cases existing with
  | none => simp [Store.removePosition, rowQuantity, Holds]
  | some row =>
    rw [rowQuantity_removePosition (hdecimal row rfl) hquantity]
    simp only [rowQuantity, Option.map_some, Option.getD_some, Holds]
    split_ifs with hle
    · constructor
      · intro h
        linarith
      · intro h
        linarith
    · exact iff_of_true (by ring) (not_le.mp hle).le

theorem spares_iff {existing : Option PortfolioRow} {quantity : ℚ}
    (hdecimal : ∀ row, existing = some row → IsDecimal 8 row.quantity)
    (hquantity : IsDecimal 8 quantity) :
    rowQuantity (Store.removePosition existing quantity) + 0 = rowQuantity existing ↔
      Spares existing quantity := by
  cases existing with
  | none => simp [Store.removePosition, rowQuantity, Spares]
  | some row =>
    rw [rowQuantity_removePosition (hdecimal row rfl) hquantity]
    simp only [rowQuantity, Option.map_some, Option.getD_some, Spares]
    split_ifs with hle
    · simp only [hle, true_implies, hle.not_gt, false_implies, and_true, zero_add]
      exact eq_comm
    · simp only [hle, false_implies, true_and, not_le.mp hle, true_implies, add_zero]
      exact sub_eq_self

/-! ### One event -/

section
variable {requests}

/-- An event leaves the database alone, or is the transaction of a call that has found its
trade. -/
theorem store_step (w : World ι) (e : Event ι) :
    ((w.step requests e).store = w.store ∧ ClosesOnce requests w e) ∨
      ∃ i trade, e = .close i ∧ w.phases i = .found trade ∧
        (w.step requests e).store = closeRead w.store (requests i) trade := by
  cases e with
  | read i =>
    refine .inl ⟨?_, trivial⟩
    simp only [World.step]
    split
    · split <;> rfl
    · rfl
  | close i =>
    cases hphase : w.phases i with
    | found trade => exact .inr ⟨i, trade, rfl, hphase, by simp only [World.step, hphase]⟩
    | waiting =>
      exact .inl ⟨by simp only [World.step, hphase], by simp only [ClosesOnce, hphase, Phase.ClosesOnce]⟩
    | returned result =>
      exact .inl ⟨by simp only [World.step, hphase], by simp only [ClosesOnce, hphase, Phase.ClosesOnce]⟩

theorem reducedOnce_step_iff {start : Store} {w : World ι} (h : Consistent requests w)
    (hreduced : ReducedOnce start w.store) (e : Event ι) :
    ReducedOnce start (w.step requests e).store ↔ ClosesOnce requests w e := by
  rcases store_step w e with ⟨hsame, hcloses⟩ | ⟨i, trade, rfl, hphase, hstore⟩
  · rw [hsame]
    exact iff_of_true hreduced hcloses
  · obtain ⟨row, hrow, hsymbol, hquantity⟩ := h.found i trade hphase
    have hdecimal : IsDecimal 8 trade.quantity :=
      hquantity ▸ h.stored.trades row (List.mem_of_getElem? hrow)
    have hopen : (findOpen w.store (requests i).tradeId).isSome ↔ row.status = .opened := by
      simp [findOpen, hrow]
    rw [hstore, reducedOnce_closeRead_iff hreduced hrow hsymbol hquantity]
    -- the call that closes the trade must take its quantity, every later one nothing
    simp only [ClosesOnce, hphase, Phase.ClosesOnce, hopen]
    split_ifs with hstatus
    · exact holds_iff (h.stored.rows trade.symbol) hdecimal
    · exact spares_iff (h.stored.rows trade.symbol) hdecimal

variable (requests) in
/-- The rows of the trades after an event: the same, but for the status and what a close
writes. -/
theorem trades_step (w : World ι) (e : Event ι) {tradeId : ℕ} {row : PaperTrade}
    (hrow : w.store.trades[tradeId]? = some row) :
    ∃ row', (w.step requests e).store.trades[tradeId]? = some row' ∧
      row'.symbol = row.symbol ∧ row'.quantity = row.quantity ∧
      (row.status = .closed → row'.status = .closed) := by
  rcases store_step w e with ⟨hsame, -⟩ | ⟨i, trade, rfl, -, hstore⟩
  · rw [hsame]
    exact ⟨row, hrow, rfl, rfl, id⟩
  · rw [hstore, closeRead]
    by_cases heq : (requests i).tradeId = tradeId
    · subst heq
      rw [modify_of_getElem? hrow]
      obtain ⟨hlt, -⟩ := List.getElem?_eq_some_iff.mp hrow
      exact ⟨_, List.getElem?_set_self hlt, rfl, rfl, fun _ => rfl⟩
    · rw [List.getElem?_modify_ne _ _ heq]
      exact ⟨row, hrow, rfl, rfl, id⟩

theorem IsClosed.step {w : World ι} {tradeId : ℕ} (h : IsClosed w.store tradeId)
    (e : Event ι) : IsClosed (w.step requests e).store tradeId := by
  obtain ⟨row, hrow, hclosed⟩ := h
  obtain ⟨row', hrow', -, -, hstatus⟩ := trades_step requests w e hrow
  exact ⟨row', hrow', hstatus hclosed⟩

theorem found_of_update {phases : ι → Phase} {i j : ι} {phase : Phase}
    {trade : PaperTrade} (h : Function.update phases i phase j = .found trade) :
    phases j = .found trade ∨ j = i ∧ phase = .found trade := by
  by_cases hj : j = i
  · subst hj
    rw [Function.update_self] at h
    exact .inr ⟨rfl, h⟩
  · rw [Function.update_of_ne hj] at h
    exact .inl h

/-- A call that has found a trade found it before, or finds it in this event. -/
theorem found_of_step {w : World ι} {e : Event ι} {j : ι} {trade : PaperTrade}
    (h : (w.step requests e).phases j = .found trade) :
    w.phases j = .found trade ∨ findOpen w.store (requests j).tradeId = some trade := by
  cases e with
  | read i =>
    simp only [World.step] at h
    split at h
    · split at h
      next found hfind =>
        -- the request that reads is the one, or its phase is as it was
        rcases found_of_update h with hbefore | ⟨rfl, hnow⟩
        · exact .inl hbefore
        · exact .inr (Phase.found.inj hnow ▸ hfind)
      next =>
        rcases found_of_update h with hbefore | ⟨rfl, hnow⟩
        · exact .inl hbefore
        · cases hnow
    · exact .inl h
  | close i =>
    simp only [World.step] at h
    split at h
    · rcases found_of_update h with hbefore | ⟨rfl, hnow⟩
      · exact .inl hbefore
      · cases hnow
    · exact .inl h

theorem Consistent.step {w : World ι} (h : Consistent requests w) (e : Event ι) :
    Consistent requests (w.step requests e) := by
  have hstored : (w.step requests e).store.Stored := by
    rcases store_step w e with ⟨hsame, -⟩ | ⟨i, trade, rfl, hphase, hstore⟩
    · rw [hsame]
      exact h.stored
    · obtain ⟨row, hrow, hsymbol, hquantity⟩ := h.found i trade hphase
      rw [hstore]
      exact (closed_closeRead hrow hsymbol hquantity).stored hrow h.stored
  refine ⟨hstored, ?_⟩
  intro j trade hj
  -- the row of `j` before the event; the event changes neither its symbol nor its quantity
  have hfound : ∃ row, w.store.trades[(requests j).tradeId]? = some row ∧
      row.symbol = trade.symbol ∧ row.quantity = trade.quantity := by
    rcases found_of_step hj with hbefore | hfind
    · exact h.found j trade hbefore
    · exact ⟨trade, (findOpen_eq_some_iff.mp hfind).1, rfl, rfl⟩
  obtain ⟨row, hrow, hsymbol, hquantity⟩ := hfound
  obtain ⟨row', hrow', hsymbol', hquantity', -⟩ := trades_step requests w e hrow
  exact ⟨row', hrow', hsymbol'.trans hsymbol, hquantity'.trans hquantity⟩

theorem isClosed_after_of_prefix {start : Store} {earlier later : List (Event ι)}
    (h : earlier <+: later) {tradeId : ℕ}
    (hclosed : IsClosed (World.after requests start earlier).store tradeId) :
    IsClosed (World.after requests start later).store tradeId := by
  obtain ⟨rest, rfl⟩ := h
  induction rest using List.reverseRecOn with
  | nil => rwa [List.append_nil]
  | append_singleton rest e ih =>
    rw [← List.append_assoc, World.after, List.foldl_append]
    exact ih.step e

end

/-! ### Runs -/

/-- No closed trade is open again, and in every state reached the portfolio has gone down
by each closed trade once, exactly if every transaction of the run closes its trade once. -/
theorem closedOnce_iff {start : Store} (hstored : start.Stored) (events : List (Event ι)) :
    ((∀ earlier later, earlier <+: later → later <+: events → ∀ tradeId,
          IsClosed (World.after requests start earlier).store tradeId →
            IsClosed (World.after requests start later).store tradeId) ∧
        ∀ reached, reached <+: events →
          ReducedOnce start (World.after requests start reached).store) ↔
      ∀ earlier e, earlier ++ [e] <+: events →
        ClosesOnce requests (World.after requests start earlier) e := by
  have hinit : Consistent requests (⟨start, fun _ => .waiting⟩ : World ι) :=
    ⟨hstored, fun _ _ h => (nomatch h)⟩
  have hreduced : ReducedOnce start start := fun _ => rfl
  have hrun := @forall_reached_iff_forall_step _ _ (World.step requests)
    (Consistent requests) (fun w => ReducedOnce start w.store) (ClosesOnce requests)
    (fun _ e h => h.step e) (fun _ e h hw => reducedOnce_step_iff h hw e)
    ⟨start, fun _ => .waiting⟩ hinit hreduced events
  refine Iff.trans ?_ hrun
  apply and_iff_right
  intro earlier later hearlier _ tradeId
  exact isClosed_after_of_prefix hearlier

/-! Two trades of one unit each, and two calls that close the first. -/

def unitTrade : PaperTrade :=
  ⟨none, some "signal", "BTC/USD", .buy, 100, none, 1, none, .opened⟩

def twoUnits : Store where
  signals := fun _ => true
  trades := [unitTrade, unitTrade]
  portfolio := Function.update (fun _ => none) "BTC/USD" (some ⟨2, 100⟩)
  sessions := fun _ => none

def closeFirst : CloseRequest := ⟨0, 110⟩

theorem stored_twoUnits : twoUnits.Stored := by
  have hone : IsDecimal 8 (1 : ℚ) := ⟨10 ^ 8, by norm_num⟩
  have htwo : IsDecimal 8 (2 : ℚ) := ⟨2 * 10 ^ 8, by norm_num⟩
  refine ⟨?_, ?_⟩
  · intro symbol row hrow
    by_cases hsymbol : symbol = "BTC/USD"
    · subst hsymbol
      obtain rfl : ⟨2, 100⟩ = row := by simpa [twoUnits] using hrow
      exact htwo
    · simp [twoUnits, hsymbol] at hrow
  · intro trade htrade
    obtain rfl : trade = unitTrade := by simpa [twoUnits] using htrade
    exact hone

/-- One call after the other: the second finds no open trade. -/
theorem closeTwice_sequential :
    ReducedOnce twoUnits (World.after (fun _ : ℕ => closeFirst) twoUnits
      [.read 0, .close 0, .read 1, .close 1]).store := by
  refine ((closedOnce_iff (fun _ : ℕ => closeFirst) stored_twoUnits _).mpr ?_).2 _
    List.prefix_rfl
  refine (eachStep_iff_forall_step (World.step fun _ : ℕ => closeFirst) _ _ _).mp ?_
  simp only [EachStep, true_implies]
  decide +kernel

/-- Both calls find the trade open, and the portfolio loses what the other trade holds. -/
theorem closeTwice_interleaved :
    ¬ ∀ reached, reached <+: [Event.read 0, .read 1, .close 0, .close 1] →
      ReducedOnce twoUnits (World.after (fun _ : ℕ => closeFirst) twoUnits reached).store := by
  intro h
  have hlast := h _ List.prefix_rfl "BTC/USD"
  have hdiffer : ¬ rowQuantity ((World.after (fun _ : ℕ => closeFirst) twoUnits
        [.read 0, .read 1, .close 0, .close 1]).store.portfolio "BTC/USD") +
      closedQuantity (World.after (fun _ : ℕ => closeFirst) twoUnits
        [.read 0, .read 1, .close 0, .close 1]).store "BTC/USD" =
      rowQuantity (twoUnits.portfolio "BTC/USD") + closedQuantity twoUnits "BTC/USD" := by
    decide +kernel
  exact hdiffer hlast

end TradeStream.PaperTrading.ConcurrentClose
