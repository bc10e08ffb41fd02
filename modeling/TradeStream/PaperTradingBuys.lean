import TradeStream.PortfolioState

/-! Concurrent BUYs of one symbol, by `execute_trade` and `execute_session_trade`, statement
by statement under READ COMMITTED: a SELECT sees what is committed, a row that one
transaction has written is locked until it ends, and a statement that has to wait does
nothing yet. -/
namespace TradeStream.PaperTrading.ConcurrentBuys
open TradeStream.Fallible TradeStream.RoundDecimal TradeStream.RunSteps
open TradeStream.PaperTrading.PortfolioState (avgPrice)

/-- A BUY, of a session or not. -/
structure BuyRequest where
  sessionId : Option String
  signalId : Option String
  entryPrice : ℚ
  quantity : ℚ

/-- How far a transaction is: after the INSERT of its trade, the UPDATE of its session, the
SELECT of the portfolio row, the UPDATE or INSERT of it, and the end. -/
inductive Phase where
  | waiting
  | inserted
  | charged
  | selected (existing : Option PortfolioRow)
  | written (existing : Option PortfolioRow)
  | committed
  | rolledBack

namespace Phase

def isCommitted : Phase → Bool
  | .committed => true
  | _ => false

/-- The transaction has written its session's row, and not ended. -/
def locksSession : Phase → Bool
  | .charged | .selected _ | .written _ => true
  | _ => false

/-- The transaction has written the portfolio row, and not ended. -/
def locksRow : Phase → Bool
  | .written _ => true
  | _ => false

end Phase

inductive Event (ι : Type*) where
  | insert (i : ι)
  | charge (i : ι)
  | select (i : ι)
  | write (i : ι)
  | commit (i : ι)
  | rollback (i : ι)

section
variable {ι : Type*} [Fintype ι] [DecidableEq ι]

/-- What is committed, and the transactions. -/
structure World (ι : Type*) where
  store : Store
  phases : ι → Phase

def World.init (store : Store) : World ι := ⟨store, fun _ => .waiting⟩

def World.goTo (w : World ι) (i : ι) (phase : Phase) : World ι :=
  { w with phases := Function.update w.phases i phase }

variable (symbol : String) (requests : ι → BuyRequest)

def World.sessionLocked (w : World ι) (i : ι) : Prop :=
  ∃ j, j ≠ i ∧ (requests j).sessionId = (requests i).sessionId ∧
    (w.phases j).locksSession = true

def World.rowLocked (w : World ι) (i : ι) : Prop := ∃ j, j ≠ i ∧ (w.phases j).locksRow = true

instance (w : World ι) (i : ι) : Decidable (w.sessionLocked requests i) :=
  inferInstanceAs (Decidable (∃ _, _))

instance (w : World ι) (i : ι) : Decidable (w.rowLocked i) :=
  inferInstanceAs (Decidable (∃ _, _))

/-- What a transaction makes visible when it commits: its trade, the balance of its session,
and the row that it computed from what it had selected. -/
def commitBuy (store : Store) (request : BuyRequest) (existing : Option PortfolioRow) : Store where
  signals := store.signals
  trades := store.trades ++ [Store.openedTrade request.sessionId request.signalId symbol .buy
    request.entryPrice request.quantity]
  portfolio := Function.update store.portfolio symbol
    (Store.upsertPosition existing .buy request.entryPrice request.quantity)
  sessions :=
    match request.sessionId with
    | none => store.sessions
    | some sessionId => Function.update store.sessions sessionId
      ((store.sessions sessionId).map fun session : Session =>
        session.afterTrade .buy (request.entryPrice * request.quantity))

/-- One statement. -/
def World.step (w : World ι) : Event ι → World ι
  | .insert i =>
    match w.phases i with
    | .waiting =>
      match w.store.insertTrade (requests i).sessionId (requests i).signalId symbol .buy
          (requests i).entryPrice (requests i).quantity with
      | .ok _ => w.goTo i .inserted
      | .error _ => w.goTo i .rolledBack
    | _ => w
  | .charge i =>
    match w.phases i, (requests i).sessionId with
    -- the UPDATE waits for the session's row
    | .inserted, some _ => if w.sessionLocked requests i then w else w.goTo i .charged
    | _, _ => w
  | .select i =>
    match w.phases i, (requests i).sessionId with
    -- a plain SELECT sees what is committed, and waits for nobody
    | .inserted, none => w.goTo i (.selected (w.store.portfolio symbol))
    | .charged, some _ => w.goTo i (.selected (w.store.portfolio symbol))
    | _, _ => w
  | .write i =>
    match w.phases i with
    | .selected existing =>
      if w.rowLocked i then w
      else
        match existing, w.store.portfolio symbol with
        -- the symbol is unique, so that the INSERT of a second row fails
        | none, some _ => w.goTo i .rolledBack
        | _, _ => w.goTo i (.written existing)
    | _ => w
  | .commit i =>
    match w.phases i with
    | .written existing =>
      { store := commitBuy symbol w.store (requests i) existing
        phases := Function.update w.phases i .committed }
    | _ => w
  | .rollback i =>
    match w.phases i with
    | .committed => w
    | _ => w.goTo i .rolledBack

/-- The sum over the transactions that have committed. -/
def executed (phases : ι → Phase) (f : ι → ℚ) : ℚ :=
  ∑ i, if (phases i).isCommitted then f i else 0

/-- The quantity of a symbol is what it was plus what was executed, and its average price
is the mean, by quantity, of the entry prices: times the quantity, it is the cost. -/
structure NoneLost (existing : Option PortfolioRow) (w : World ι) : Prop where
  quantity : rowQuantity (w.store.portfolio symbol) =
    rowQuantity existing + executed w.phases fun i => numeric (requests i).quantity
  cost : rowQuantity (w.store.portfolio symbol) * avgPrice (w.store.portfolio symbol) =
    rowQuantity existing * avgPrice existing +
      executed w.phases fun i => numeric (requests i).quantity * numeric (requests i).entryPrice

/-- The row that a transaction had selected comes, with its trade, to what the row as it is
committed by now comes to with it. -/
def Follows (existing current : Option PortfolioRow) (entryPrice quantity : ℚ) : Prop :=
  match existing with
  | none => True
  | some row =>
    numeric (row.quantity + quantity) = rowQuantity current + numeric quantity ∧
      (rowQuantity current + numeric quantity) *
          numeric (if 0 < row.quantity + quantity then
            (row.avgEntryPrice * row.quantity + entryPrice * quantity) / (row.quantity + quantity)
          else 0) =
        rowQuantity current * avgPrice current + numeric quantity * numeric entryPrice

/-- A transaction commits only over the row that it had selected, or one that comes to the
same. -/
def CommitFollows (w : World ι) : Event ι → Prop
  | .commit i => ∀ existing, w.phases i = .written existing →
      Follows existing (w.store.portfolio symbol) (requests i).entryPrice (requests i).quantity
  | _ => True

/-- One transaction at most has written the row, and an INSERT only where none was. -/
structure Locked (w : World ι) : Prop where
  writer : ∀ i j, (w.phases i).locksRow = true → (w.phases j).locksRow = true → i = j
  inserts : ∀ i, w.phases i = .written none → w.store.portfolio symbol = none

/-! ### One statement -/

/-- What a statement can do: nothing, take its transaction on without a commit, or commit it.
Only the write takes the row's lock. -/
inductive Steps (w : World ι) (e : Event ι) : World ι → Prop where
  | waits (hfollows : CommitFollows symbol requests w e) : Steps w e w
  | moves {i : ι} {phase : Phase} (hfollows : CommitFollows symbol requests w e)
      (hbefore : (w.phases i).isCommitted = false) (hafter : phase.isCommitted = false)
      (hfree : phase.locksRow = true → ¬ w.rowLocked i)
      (hnone : phase = .written none → w.store.portfolio symbol = none) :
      Steps w e (w.goTo i phase)
  | commits {i : ι} {existing : Option PortfolioRow} (he : e = .commit i)
      (hphase : w.phases i = .written existing) :
      Steps w e ⟨commitBuy symbol w.store (requests i) existing,
        Function.update w.phases i .committed⟩

variable {symbol requests}

omit [Fintype ι] in
/-- Neither the lock nor the row matters to a transaction that does not take the lock. -/
theorem Steps.unlocked {w : World ι} {e : Event ι} {i : ι} {before after : Phase}
    (hphase : w.phases i = before) (hfollows : CommitFollows symbol requests w e)
    (hbefore : before.isCommitted = false) (hafter : after.isCommitted = false)
    (hlocks : after.locksRow = false) : Steps symbol requests w e (w.goTo i after) := by
  refine .moves hfollows (by rw [hphase, hbefore]) hafter ?_ ?_
  · intro h
    rw [hlocks] at h
    cases h
  · rintro rfl
    cases hlocks

theorem steps_step (w : World ι) (e : Event ι) :
    Steps symbol requests w e (w.step symbol requests e) := by
  cases e with
  | insert i =>
    simp only [World.step]
    split
    next hphase =>
      split
      · exact .unlocked hphase trivial rfl rfl rfl
      · exact .unlocked hphase trivial rfl rfl rfl
    next => exact .waits trivial
  | charge i =>
    simp only [World.step]
    split
    next hphase _ =>
      split_ifs
      · exact .waits trivial
      · exact .unlocked hphase trivial rfl rfl rfl
    next => exact .waits trivial
  | select i =>
    simp only [World.step]
    split
    next hphase _ => exact .unlocked hphase trivial rfl rfl rfl
    next hphase _ => exact .unlocked hphase trivial rfl rfl rfl
    next => exact .waits trivial
  | write i =>
    simp only [World.step]
    split
    next existing hphase =>
      -- a request waits for the row that another has written and not committed
      split_ifs with hlocked
      · exact .waits trivial
      · split
        next => exact .unlocked hphase trivial rfl rfl rfl
        next hexisting =>
          refine .moves trivial (by rw [hphase]; rfl) rfl (fun _ => hlocked) ?_
          intro hwritten
          obtain rfl := Phase.written.inj hwritten
          exact Option.eq_none_iff_forall_ne_some.mpr fun row hrow => hexisting row rfl hrow
    next => exact .waits trivial
  | commit i =>
    simp only [World.step]
    split
    next existing hphase => exact .commits rfl hphase
    next hphase =>
      exact .waits fun existing hwritten => absurd hwritten (hphase existing)
  | rollback i =>
    simp only [World.step]
    split
    next => exact .waits trivial
    next hphase =>
      -- nothing that was committed is rolled back
      refine .moves trivial ?_ rfl (fun h => by cases h) (fun h => by cases h)
      cases hcommitted : w.phases i with
      | committed => exact absurd hcommitted hphase
      | _ => rfl

omit [Fintype ι] in
theorem Locked.step {w w' : World ι} {e : Event ι} (h : Locked symbol w)
    (hstep : Steps symbol requests w e w') : Locked symbol w' := by
  cases hstep with
  | waits => exact h
  | @moves i phase hfollows hbefore hafter hfree hnone =>
    have hphase (j : ι) (hj : j ≠ i) : (w.goTo i phase).phases j = w.phases j :=
      Function.update_of_ne hj _ _
    have hself : (w.goTo i phase).phases i = phase := Function.update_self _ _ _
    -- whoever locks the row beside `i` did so before
    have honly (j : ι) (hj : ((w.goTo i phase).phases j).locksRow = true)
        (hi : phase.locksRow = true) : j = i := by
      by_contra hne
      rw [hphase j hne] at hj
      exact hfree hi ⟨j, hne, hj⟩
    constructor
    · intro j k hj hk
      by_cases hji : j = i
      · rw [hji, hself] at hj
        rw [hji, honly k hk hj]
      · by_cases hki : k = i
        · rw [hki, hself] at hk
          rw [hki, honly j hj hk]
        · rw [hphase j hji] at hj
          rw [hphase k hki] at hk
          exact h.writer j k hj hk
    · intro j hj
      by_cases hji : j = i
      · rw [hji, hself] at hj
        exact hnone hj
      · rw [hphase j hji] at hj
        exact h.inserts j hj
  | @commits i existing he hphase =>
    have hi : (w.phases i).locksRow = true := by rw [hphase]; rfl
    -- only `i` had the lock, and it has ended
    have hnone (j : ι) : ((Function.update w.phases i Phase.committed) j).locksRow = false := by
      by_cases hji : j = i
      · rw [hji, Function.update_self]
        rfl
      · rw [Function.update_of_ne hji]
        by_contra hlocks
        exact hji (h.writer j i (by simpa using hlocks) hi)
    constructor
    · intro j k hj
      rw [hnone j] at hj
      cases hj
    · intro j hj
      have hphase : Function.update w.phases i Phase.committed j = .written none := hj
      have hlocks := hnone j
      rw [hphase] at hlocks
      cases hlocks

/-- One transaction goes on: the sum grows by its part if it commits. -/
theorem executed_update {phases : ι → Phase} {i : ι} (hi : (phases i).isCommitted = false)
    (phase : Phase) (f : ι → ℚ) :
    executed (Function.update phases i phase) f =
      executed phases f + if phase.isCommitted then f i else 0 := by
  have hrest : ∑ j ∈ Finset.univ.erase i,
      (if (Function.update phases i phase j).isCommitted then f j else 0) =
        ∑ j ∈ Finset.univ.erase i, if (phases j).isCommitted then f j else 0 := by
    refine Finset.sum_congr rfl fun j hj => ?_
    rw [Function.update_of_ne (Finset.ne_of_mem_erase hj)]
  rw [executed, executed, ← Finset.add_sum_erase _ _ (Finset.mem_univ i), hrest,
    ← Finset.add_sum_erase _ _ (Finset.mem_univ i), Function.update_self, hi]
  simp only [Bool.false_eq_true, ↓reduceIte]
  ring

/-- What a commit over a row must come to. -/
theorem upsert_follows_iff {existing current : Option PortfolioRow} {entryPrice quantity : ℚ}
    (hnone : existing = none → current = none) :
    (rowQuantity (Store.upsertPosition existing .buy entryPrice quantity) =
          rowQuantity current + numeric quantity ∧
        rowQuantity (Store.upsertPosition existing .buy entryPrice quantity) *
            avgPrice (Store.upsertPosition existing .buy entryPrice quantity) =
          rowQuantity current * avgPrice current + numeric quantity * numeric entryPrice) ↔
      Follows existing current entryPrice quantity := by
  cases existing with
  | none =>
    rw [hnone rfl]
    simp [Store.upsertPosition, Follows, rowQuantity, avgPrice]
  | some row =>
    have hquantity : rowQuantity (Store.upsertPosition (some row) .buy entryPrice quantity) =
        numeric (row.quantity + quantity) := rfl
    rw [hquantity]
    refine and_congr_right fun heq => ?_
    rw [heq]
    rfl

theorem noneLost_step_iff {existing : Option PortfolioRow} {w w' : World ι} {e : Event ι}
    (hlocked : Locked symbol w) (h : NoneLost symbol requests existing w)
    (hstep : Steps symbol requests w e w') :
    NoneLost symbol requests existing w' ↔ CommitFollows symbol requests w e := by
  cases hstep with
  | waits hfollows => exact iff_of_true h hfollows
  | @moves i phase hfollows hbefore hafter hfree hnone =>
    refine iff_of_true ⟨?_, ?_⟩ hfollows
    · rw [World.goTo, executed_update hbefore, hafter, h.quantity]
      simp
    · rw [World.goTo, executed_update hbefore, hafter, h.cost]
      simp
  | @commits i selected he hphase =>
    have hi : (w.phases i).isCommitted = false := by rw [hphase]; rfl
    have hrow : (commitBuy symbol w.store (requests i) selected).portfolio symbol =
        Store.upsertPosition selected .buy (requests i).entryPrice (requests i).quantity :=
      Function.update_self _ _ _
    have hfollows : CommitFollows symbol requests w e ↔
        Follows selected (w.store.portfolio symbol) (requests i).entryPrice
          (requests i).quantity := by
      simp [he, CommitFollows, hphase]
    -- both sides speak of the row that `i` writes over what is committed
    rw [hfollows, ← upsert_follows_iff fun hnone => hlocked.inserts i (by rw [hphase, hnone])]
    have hcommitted : Phase.committed.isCommitted = true := rfl
    constructor
    · intro hafter
      have hquantity := hafter.quantity
      have hcost := hafter.cost
      rw [hrow, executed_update hi, hcommitted, if_pos rfl] at hquantity hcost
      constructor
      · rw [hquantity, h.quantity]
        ring
      · rw [hcost, h.cost]
        ring
    · rintro ⟨hquantity, hcost⟩
      constructor
      · rw [hrow, executed_update hi, hcommitted, if_pos rfl, hquantity, h.quantity]
        ring
      · rw [hrow, executed_update hi, hcommitted, if_pos rfl, hcost, h.cost]
        ring

end

/-- A row that nobody has changed since the SELECT follows a BUY of a positive quantity, if
the rounding of the average price loses nothing. -/
theorem follows_self {row : PortfolioRow} {entryPrice quantity : ℚ}
    (hdecimal : IsDecimal 8 row.quantity) (hrow : 0 ≤ row.quantity) (hpos : 0 < quantity)
    (hcost : (row.quantity + numeric quantity) *
        numeric ((row.avgEntryPrice * row.quantity + entryPrice * quantity) /
          (row.quantity + quantity)) =
      row.quantity * row.avgEntryPrice + numeric quantity * numeric entryPrice) :
    Follows (some row) (some row) entryPrice quantity := by
  have hsum : 0 < row.quantity + quantity := by linarith
  refine ⟨(storeTo_add_iff hdecimal quantity).mpr fun _ => iff_of_true hsum hpos, ?_⟩
  rw [if_pos hsum]
  exact hcost

/-- No BUY is lost in any state reached, exactly if every commit is over a row that the
transaction had seen. -/
theorem noneLost_iff {ι : Type*} [Fintype ι] [DecidableEq ι] (symbol : String)
    (requests : ι → BuyRequest) (store : Store) (events : List (Event ι)) :
    (∀ reached, reached <+: events → NoneLost symbol requests (store.portfolio symbol)
        (reached.foldl (World.step symbol requests) (.init store))) ↔
      ∀ earlier e, earlier ++ [e] <+: events → CommitFollows symbol requests
        (earlier.foldl (World.step symbol requests) (.init store)) e := by
  have hlocked : Locked symbol (World.init store : World ι) := by
    constructor
    · intro i j hi
      cases hi
    · intro i hi
      cases hi
  have hnone : NoneLost symbol requests (store.portfolio symbol) (World.init store) := by
    constructor <;> simp [executed, World.init, Phase.isCommitted]
  refine @forall_reached_iff_forall_step _ _ (World.step symbol requests) (Locked symbol)
    (NoneLost symbol requests (store.portfolio symbol)) _ ?_ ?_ _ hlocked hnone events
  · intro w e hw
    exact hw.step (steps_step w e)
  · intro w e hw hlost
    exact noneLost_step_iff hw hlost (steps_step w e)

/-- A store that holds 1 BTC/USD at 100. -/
def oneHeld : Store where
  signals := fun _ => true
  trades := []
  portfolio := fun symbol => if symbol = "BTC/USD" then some ⟨1, 100⟩ else none
  sessions := fun _ => none

/-- Two BUYs of 1 that both select the row before either has written it. -/
theorem interleavedBuys_lost :
    ¬ NoneLost "BTC/USD" (fun _ : Fin 2 => ⟨none, some "signal", 100, 1⟩)
      (oneHeld.portfolio "BTC/USD")
      ([Event.insert 0, .insert 1, .select 0, .select 1, .write 0, .commit 0, .write 1,
        .commit 1].foldl (World.step "BTC/USD" fun _ => ⟨none, some "signal", 100, 1⟩)
          (.init oneHeld)) := by
  intro hlost
  have hquantity := hlost.quantity
  revert hquantity
  decide +kernel

end TradeStream.PaperTrading.ConcurrentBuys
