import TradeStream.PaperTradingStore
import TradeStream.RunSteps

/-! The portfolio against the open trades: exactly which operations keep the quantity of
every symbol equal to what its open trades add up to. -/
namespace TradeStream.PaperTrading
open TradeStream.RoundDecimal TradeStream.RunSteps

/-- BUY quantities count, and SELL quantities against them. -/
def signed (side : Side) (quantity : ℚ) : ℚ :=
  match side with
  | .buy => quantity
  | .sell => -quantity

/-- The open trades of a symbol: BUY quantities minus SELL quantities. -/
def openQuantity (store : Store) (symbol : String) : ℚ :=
  ((store.trades.filter fun trade => trade.symbol = symbol ∧ trade.status = .opened).map
    fun trade => signed trade.side trade.quantity).sum

/-- The quantity of a row; a missing row means zero. -/
def rowQuantity (row : Option PortfolioRow) : ℚ := (row.map PortfolioRow.quantity).getD 0

def Balanced (store : Store) : Prop :=
  ∀ symbol, rowQuantity (store.portfolio symbol) = openQuantity store symbol

/-- Half a unit of the last decimal that a column keeps. -/
def IsTie (x : ℚ) : Prop := Int.fract (x * 10 ^ 8) = 1 / 2

/-- The trade changes the row by the quantity that the ledger stores of it. -/
def TradeFits (existing : Option PortfolioRow) (side : Side) (quantity : ℚ) : Prop :=
  match existing, side with
  | none, .buy => True
  | none, .sell => numeric quantity = 0
  | some row, .buy => IsTie quantity → (0 < row.quantity + quantity ↔ 0 < quantity)
  | some row, .sell =>
    (row.quantity ≤ quantity → numeric quantity = row.quantity) ∧
      (quantity < row.quantity → IsTie quantity → quantity < 0)

/-- The close takes from the row what the trade had added to it. -/
def CloseFits (existing : Option PortfolioRow) (trade : PaperTrade) : Prop :=
  match existing, trade.side with
  | none, _ => trade.quantity = 0
  | some row, .buy => trade.quantity ≤ row.quantity
  | some row, .sell =>
    (row.quantity ≤ trade.quantity → row.quantity = -trade.quantity) ∧
      (trade.quantity < row.quantity → trade.quantity = 0)

namespace Store

/-- The rows that the foreign keys of a new trade need. -/
def Accepts (store : Store) (sessionId signalId : Option String) : Prop :=
  (∀ id, signalId = some id → store.signals id = true) ∧
    ∀ id, sessionId = some id → store.sessions id ≠ none

/-- Operations that keep the portfolio balanced. -/
def Fits (store : Store) : Op → Prop
  | .executeTrade signalId symbol side _ quantity =>
    store.Accepts none (some signalId) → TradeFits (store.portfolio symbol) side quantity
  | .executeSessionTrade sessionId signalId symbol side _ quantity =>
    store.Accepts (some sessionId) signalId →
      TradeFits (store.portfolio symbol) side quantity
  | .closeTrade tradeId _ =>
    ∀ trade, store.trades[tradeId]? = some trade → trade.status = .opened →
      CloseFits (store.portfolio trade.symbol) trade

/-- Every quantity has the decimals of its column. -/
structure Stored (store : Store) : Prop where
  rows : ∀ symbol row, store.portfolio symbol = some row → IsDecimal 8 row.quantity
  trades : ∀ trade ∈ store.trades, IsDecimal 8 trade.quantity

end Store

/-! ### One row -/

theorem fract_neg_eq_half_iff {x : ℚ} : Int.fract (-x) = 1 / 2 ↔ Int.fract x = 1 / 2 := by
  rcases eq_or_ne (Int.fract x) 0 with hzero | hne
  · rw [Int.fract_neg_eq_zero.mpr hzero, hzero]
  · rw [Int.fract_neg hne]
    constructor
    · intro h
      linarith
    · intro h
      linarith

/-- A SELL from a row: of all it holds, which deletes it, or of a part. -/
theorem rowQuantity_sell_iff {row : PortfolioRow} (hrow : IsDecimal 8 row.quantity)
    (entryPrice quantity : ℚ) :
    rowQuantity (Store.upsertPosition (some row) .sell entryPrice quantity) =
        row.quantity + -numeric quantity ↔
      TradeFits (some row) .sell quantity := by
  simp only [TradeFits]
  rcases le_or_gt row.quantity quantity with hle | hlt
  · have hnone : Store.upsertPosition (some row) .sell entryPrice quantity = none :=
      if_pos (by linarith)
    rw [hnone]
    simp only [rowQuantity, Option.map_none, Option.getD_none, hle, true_implies, hle.not_gt,
      false_implies, and_true]
    constructor
    · intro h
      linarith
    · intro h
      rw [h]
      ring
  · have hsome : Store.upsertPosition (some row) .sell entryPrice quantity =
        some { row with quantity := numeric (row.quantity - quantity) } :=
      if_neg (by linarith)
    have hpos : 0 < row.quantity + -quantity := by linarith
    have htie : Int.fract (-quantity * 10 ^ 8) = 1 / 2 ↔ IsTie quantity := by
      rw [neg_mul]
      exact fract_neg_eq_half_iff
    -- the rest is rounded, the ledger rounds what was sold: they part at ties only
    have hiff := storeTo_add_iff hrow (-quantity)
    rw [htie, storeTo_neg, ← sub_eq_add_neg] at hiff
    rw [hsome]
    simp only [rowQuantity, Option.map_some, Option.getD_some, hlt.not_ge, false_implies,
      true_and, hlt, true_implies]
    refine hiff.trans ?_
    apply imp_congr_right
    intro _
    constructor
    · intro h
      exact neg_pos.mp (h.mp (by linarith))
    · intro h
      exact iff_of_true (by linarith) (neg_pos.mpr h)

theorem rowQuantity_upsert_iff {existing : Option PortfolioRow}
    (hdecimal : ∀ row, existing = some row → IsDecimal 8 row.quantity) (side : Side)
    (entryPrice quantity : ℚ) :
    rowQuantity (Store.upsertPosition existing side entryPrice quantity) =
        rowQuantity existing + signed side (numeric quantity) ↔
      TradeFits existing side quantity := by
  cases existing with
  | none =>
    cases side with
    | buy => simp [Store.upsertPosition, TradeFits, rowQuantity, signed]
    | sell =>
      simp only [Store.upsertPosition, TradeFits, rowQuantity, signed, Option.map_none,
        Option.getD_none, zero_add]
      constructor
      · intro h
        linarith
      · intro h
        rw [h, neg_zero]
  | some row =>
    have hrow := hdecimal row rfl
    cases side with
    | buy => exact storeTo_add_iff hrow quantity
    | sell => exact rowQuantity_sell_iff hrow entryPrice quantity

/-- A close from a row. Both quantities come out of columns, so nothing is rounded. -/
theorem rowQuantity_removePosition {row : PortfolioRow} {quantity : ℚ}
    (hrow : IsDecimal 8 row.quantity) (hquantity : IsDecimal 8 quantity) :
    rowQuantity (Store.removePosition (some row) quantity) =
      if row.quantity ≤ quantity then 0 else row.quantity - quantity := by
  have hrest : numeric (row.quantity - quantity) = row.quantity - quantity :=
    (hrow.sub hquantity).storeTo_eq
  simp only [Store.removePosition, Option.bind_some, hrest, sub_nonpos]
  split_ifs <;> rfl

theorem signed_eq_zero_iff {side : Side} {quantity : ℚ} :
    signed side quantity = 0 ↔ quantity = 0 := by
  cases side with
  | buy => exact Iff.rfl
  | sell => exact neg_eq_zero

theorem rowQuantity_remove_iff {existing : Option PortfolioRow} {trade : PaperTrade}
    (hdecimal : ∀ row, existing = some row → IsDecimal 8 row.quantity)
    (htrade : IsDecimal 8 trade.quantity) :
    rowQuantity (Store.removePosition existing trade.quantity) =
        rowQuantity existing - signed trade.side trade.quantity ↔
      CloseFits existing trade := by
  cases existing with
  | none =>
    have hnone : rowQuantity none = 0 := rfl
    simp only [Store.removePosition, Option.bind_none, hnone, CloseFits]
    rw [zero_sub, eq_comm, neg_eq_zero]
    exact signed_eq_zero_iff
  | some row =>
    rw [rowQuantity_removePosition (hdecimal row rfl) htrade]
    cases hside : trade.side with
    | buy =>
      simp only [CloseFits, hside, rowQuantity, signed, Option.map_some, Option.getD_some]
      split_ifs with hle
      · constructor
        · intro h
          linarith
        · intro h
          linarith
      · exact iff_of_true rfl (not_le.mp hle).le
    | sell =>
      simp only [CloseFits, hside, rowQuantity, signed, Option.map_some, Option.getD_some]
      -- a closed SELL should add to the row, but its quantity is taken all the same
      split_ifs with hle
      · simp only [hle, true_implies, hle.not_gt, false_implies, and_true]
        constructor
        · intro h
          linarith
        · intro h
          linarith
      · simp only [hle, false_implies, true_and, not_le.mp hle, true_implies]
        constructor
        · intro h
          linarith
        · intro h
          rw [h]
          ring

/-! ### The ledger -/

/-- What a trade counts for a symbol. -/
def contribution (symbol : String) (trade : PaperTrade) : ℚ :=
  if trade.symbol = symbol ∧ trade.status = .opened then signed trade.side trade.quantity
  else 0

theorem openQuantity_eq_sum (store : Store) (symbol : String) :
    openQuantity store symbol = (store.trades.map (contribution symbol)).sum := by
  unfold contribution
  rw [openQuantity, List.sum_map_ite]
  simp

/-- One row changed, and the ledger of that symbol. -/
theorem balanced_update_iff {store store' : Store} {symbol : String}
    {row : Option PortfolioRow} {change : ℚ} (h : Balanced store)
    (hportfolio : store'.portfolio = Function.update store.portfolio symbol row)
    (hledger : ∀ other, openQuantity store' other =
      openQuantity store other + if symbol = other then change else 0) :
    Balanced store' ↔ rowQuantity row = rowQuantity (store.portfolio symbol) + change := by
  constructor
  · intro hbalanced
    have hsymbol := hbalanced symbol
    rw [hledger, if_pos rfl, hportfolio, Function.update_self, ← h symbol] at hsymbol
    exact hsymbol
  · intro hrow other
    rw [hledger, hportfolio]
    -- beside `symbol`, neither the row nor the ledger has changed
    by_cases heq : other = symbol
    · subst heq
      rw [Function.update_self, if_pos rfl, ← h other]
      exact hrow
    · rw [Function.update_of_ne heq, if_neg fun heq' => heq heq'.symm, add_zero]
      exact h other

namespace Store
variable {store : Store} {sessionId signalId : Option String} {symbol : String} {side : Side}
  {entryPrice quantity : ℚ}

/-- The row of a new trade. -/
def openedTrade (sessionId signalId : Option String) (symbol : String) (side : Side)
    (entryPrice quantity : ℚ) : PaperTrade where
  sessionId := sessionId
  signalId := signalId
  symbol := symbol
  side := side
  entryPrice := numeric entryPrice
  exitPrice := none
  quantity := numeric quantity
  pnl := none
  status := .opened

theorem insertTrade_eq (h : store.Accepts sessionId signalId) :
    store.insertTrade sessionId signalId symbol side entryPrice quantity = .ok { store with
      trades := store.trades ++
        [openedTrade sessionId signalId symbol side entryPrice quantity] } := by
  have hsignal : ¬ (signalId.any fun id => !store.signals id) = true := by
    cases signalId with
    | none => simp
    | some id => simp [h.1 id rfl]
  have hsession : ¬ (sessionId.any fun id => (store.sessions id).isNone) = true := by
    cases sessionId with
    | none => simp
    | some id => simpa using h.2 id rfl
  rw [insertTrade, if_neg hsignal, if_neg hsession]
  rfl

theorem insertTrade_of_accepts (h : store.Accepts sessionId signalId) :
    ∃ store', store.insertTrade sessionId signalId symbol side entryPrice quantity =
        .ok store' ∧
      store'.portfolio = store.portfolio ∧ store'.sessions = store.sessions ∧
      ∃ trade : PaperTrade, store'.trades = store.trades ++ [trade] ∧ trade.symbol = symbol ∧
        trade.side = side ∧ trade.quantity = numeric quantity ∧ trade.status = .opened :=
  ⟨_, insertTrade_eq h, rfl, rfl, _, rfl, rfl, rfl, rfl, rfl⟩

theorem insertTrade_of_not_accepts (h : ¬ store.Accepts sessionId signalId) :
    ∃ e, store.insertTrade sessionId signalId symbol side entryPrice quantity = .error e := by
  rw [insertTrade]
  split_ifs with hsignal hsession
  · exact ⟨_, rfl⟩
  · exact ⟨_, rfl⟩
  · refine absurd ⟨?_, ?_⟩ h
    · rintro id rfl
      simpa using hsignal
    · rintro id rfl
      simpa [Option.isNone_iff_eq_none] using hsession

theorem openQuantity_append {store' : Store} {trade : PaperTrade}
    (htrades : store'.trades = store.trades ++ [trade]) (hopened : trade.status = .opened)
    (other : String) :
    openQuantity store' other = openQuantity store other +
      if trade.symbol = other then signed trade.side trade.quantity else 0 := by
  rw [openQuantity_eq_sum, openQuantity_eq_sum, htrades, List.map_append, List.sum_append]
  simp [contribution, hopened]

/-- A trade, in a session or not, has one effect on the portfolio and on the ledger. -/
structure Traded (store store' : Store) (symbol : String) (side : Side)
    (entryPrice quantity : ℚ) : Prop where
  portfolio : store'.portfolio = Function.update store.portfolio symbol
    (upsertPosition (store.portfolio symbol) side entryPrice quantity)
  trades : ∃ trade : PaperTrade, store'.trades = store.trades ++ [trade] ∧
    trade.symbol = symbol ∧ trade.side = side ∧ trade.quantity = numeric quantity ∧
    trade.status = .opened

/-- The transaction of a trade: it runs, or it is rolled back. -/
structure Transacted (store store' : Store) (accepts : Prop) (symbol : String) (side : Side)
    (entryPrice quantity : ℚ) : Prop where
  traded : accepts → Traded store store' symbol side entryPrice quantity
  rejected : ¬ accepts → store' = store

theorem apply_executeTrade (signalId : String) :
    Transacted store (store.apply (.executeTrade signalId symbol side entryPrice quantity))
      (store.Accepts none (some signalId)) symbol side entryPrice quantity := by
  constructor
  · intro haccepts
    obtain ⟨store', hinsert, hportfolio, -, htrade⟩ :=
      @insertTrade_of_accepts store none (some signalId) symbol side entryPrice quantity
        haccepts
    have happly : store.apply (.executeTrade signalId symbol side entryPrice quantity) =
        store'.updatePortfolio symbol side entryPrice quantity := by
      simp only [apply, executeTrade, hinsert]
      rfl
    rw [happly]
    refine ⟨?_, htrade⟩
    rw [updatePortfolio, hportfolio]
  · intro haccepts
    obtain ⟨e, hinsert⟩ :=
      @insertTrade_of_not_accepts store none (some signalId) symbol side entryPrice quantity
        haccepts
    simp only [apply, executeTrade, hinsert]
    rfl

theorem apply_executeSessionTrade (sessionId : String) (signalId : Option String) :
    Transacted store
      (store.apply (.executeSessionTrade sessionId signalId symbol side entryPrice quantity))
      (store.Accepts (some sessionId) signalId) symbol side entryPrice quantity := by
  constructor
  · intro haccepts
    obtain ⟨store', hinsert, hportfolio, -, htrade⟩ :=
      @insertTrade_of_accepts store (some sessionId) signalId symbol side entryPrice quantity
        haccepts
    -- the session's balance is written as well, which is none of the portfolio's business
    have happly : store.apply
        (.executeSessionTrade sessionId signalId symbol side entryPrice quantity) =
        { store' with
          sessions := Function.update store'.sessions sessionId
            ((store'.sessions sessionId).map fun session : Session =>
              session.afterTrade side (entryPrice * quantity))
          portfolio := Function.update store'.portfolio symbol
            (upsertPosition (store'.portfolio symbol) side entryPrice quantity) } := by
      simp only [apply, executeSessionTrade, hinsert]
      rfl
    rw [happly]
    refine ⟨?_, htrade⟩
    rw [hportfolio]
  · intro haccepts
    obtain ⟨e, hinsert⟩ :=
      @insertTrade_of_not_accepts store (some sessionId) signalId symbol side entryPrice
        quantity haccepts
    simp only [apply, executeSessionTrade, hinsert]
    rfl

theorem Traded.balanced_iff {store' : Store}
    (h : Traded store store' symbol side entryPrice quantity) (hbalanced : Balanced store)
    (hstored : store.Stored) :
    Balanced store' ↔ TradeFits (store.portfolio symbol) side quantity := by
  obtain ⟨hportfolio, trade, htrades, hsymbol, hside, hquantity, hopened⟩ := h
  have hledger := openQuantity_append htrades hopened
  rw [hsymbol, hside, hquantity] at hledger
  rw [balanced_update_iff hbalanced hportfolio hledger]
  exact rowQuantity_upsert_iff (hstored.rows symbol) side entryPrice quantity

theorem isDecimal_upsertPosition {existing row : Option PortfolioRow}
    (h : upsertPosition existing side entryPrice quantity = row) :
    ∀ result, row = some result → IsDecimal 8 result.quantity := by
  rintro result rfl
  cases existing with
  | none =>
    cases side with
    | buy =>
      obtain rfl := Option.some.inj h
      exact isDecimal_storeTo 8 _
    | sell => cases h
  | some row =>
    cases side with
    | buy =>
      obtain rfl := Option.some.inj h
      exact isDecimal_storeTo 8 _
    | sell =>
      simp only [upsertPosition] at h
      split_ifs at h
      obtain rfl := Option.some.inj h
      exact isDecimal_storeTo 8 _

theorem Stored.update (h : store.Stored) {store' : Store} {row : Option PortfolioRow}
    (hportfolio : store'.portfolio = Function.update store.portfolio symbol row)
    (hrow : ∀ result, row = some result → IsDecimal 8 result.quantity)
    (htrades : ∀ trade ∈ store'.trades, IsDecimal 8 trade.quantity) : store'.Stored := by
  refine ⟨?_, htrades⟩
  intro other result hresult
  rw [hportfolio] at hresult
  by_cases heq : other = symbol
  · subst heq
    rw [Function.update_self] at hresult
    exact hrow result hresult
  · rw [Function.update_of_ne heq] at hresult
    exact h.rows other result hresult

theorem Traded.stored {store' : Store}
    (h : Traded store store' symbol side entryPrice quantity) (hstored : store.Stored) :
    store'.Stored := by
  obtain ⟨hportfolio, trade, htrades, -, -, hquantity, -⟩ := h
  apply hstored.update hportfolio (isDecimal_upsertPosition rfl)
  rw [htrades, List.forall_mem_append, List.forall_mem_singleton, hquantity]
  exact ⟨hstored.trades, isDecimal_storeTo 8 _⟩

theorem Transacted.stored {store' : Store} {accepts : Prop}
    (h : Transacted store store' accepts symbol side entryPrice quantity)
    (hstored : store.Stored) : store'.Stored := by
  by_cases haccepts : accepts
  · exact (h.traded haccepts).stored hstored
  · rw [h.rejected haccepts]
    exact hstored

theorem Transacted.balanced_iff {store' : Store} {accepts : Prop}
    (h : Transacted store store' accepts symbol side entryPrice quantity)
    (hbalanced : Balanced store) (hstored : store.Stored) :
    Balanced store' ↔ (accepts → TradeFits (store.portfolio symbol) side quantity) := by
  by_cases haccepts : accepts
  · simp only [haccepts, true_implies]
    exact (h.traded haccepts).balanced_iff hbalanced hstored
  · rw [h.rejected haccepts]
    exact iff_of_true hbalanced fun h => absurd h haccepts

/-- What closing an open trade does to the store. -/
structure Closed (store store' : Store) (tradeId : ℕ) (trade : PaperTrade) : Prop where
  portfolio : store'.portfolio = Function.update store.portfolio trade.symbol
    (removePosition (store.portfolio trade.symbol) trade.quantity)
  trades : ∃ closed : PaperTrade, store'.trades = store.trades.set tradeId closed ∧
    closed.status = .closed ∧ closed.quantity = trade.quantity

/-- A close finds an open trade, or leaves the store alone. -/
theorem closeTrade_cases (store : Store) (tradeId : ℕ) (exitPrice : ℚ) :
    (∃ trade closed : PaperTrade, store.trades[tradeId]? = some trade ∧
        trade.status = .opened ∧
        (store.apply (.closeTrade tradeId exitPrice)).portfolio =
          Function.update store.portfolio trade.symbol
            (removePosition (store.portfolio trade.symbol) trade.quantity) ∧
        (store.apply (.closeTrade tradeId exitPrice)).trades = store.trades.set tradeId closed ∧
        closed.status = .closed ∧ closed.quantity = trade.quantity ∧
        closed.symbol = trade.symbol) ∨
      (∀ trade, store.trades[tradeId]? = some trade → trade.status ≠ .opened) ∧
        store.apply (.closeTrade tradeId exitPrice) = store := by
  simp only [apply, closeTrade]
  cases htrade : store.trades[tradeId]? with
  | none => exact .inr ⟨fun _ h => absurd h (by simp), rfl⟩
  | some trade =>
    by_cases hopened : trade.status = .opened
    · simp only [if_pos hopened]
      exact .inl ⟨trade, _, rfl, hopened, rfl, rfl, rfl, rfl, rfl⟩
    · simp only [if_neg hopened]
      refine .inr ⟨?_, trivial⟩
      rintro _ ⟨⟩
      exact hopened

theorem apply_closeTrade (tradeId : ℕ) (exitPrice : ℚ) :
    (∃ trade, store.trades[tradeId]? = some trade ∧ trade.status = .opened ∧
        Closed store (store.apply (.closeTrade tradeId exitPrice)) tradeId trade) ∨
      (∀ trade, store.trades[tradeId]? = some trade → trade.status ≠ .opened) ∧
        store.apply (.closeTrade tradeId exitPrice) = store := by
  rcases closeTrade_cases store tradeId exitPrice with
    ⟨trade, closed, htrade, hopened, hportfolio, htrades, hstatus, hquantity, -⟩ | hsame
  · exact .inl ⟨trade, htrade, hopened, hportfolio, closed, htrades, hstatus, hquantity⟩
  · exact .inr hsame

theorem openQuantity_set {store' : Store} {tradeId : ℕ} {trade closed : PaperTrade}
    (htrade : store.trades[tradeId]? = some trade) (hopened : trade.status = .opened)
    (htrades : store'.trades = store.trades.set tradeId closed)
    (hclosed : closed.status = .closed) (other : String) :
    openQuantity store' other = openQuantity store other +
      if trade.symbol = other then -signed trade.side trade.quantity else 0 := by
  obtain ⟨hlt, hget⟩ := List.getElem?_eq_some_iff.mp htrade
  have hnone : contribution other closed = 0 := by simp [contribution, hclosed]
  have hcontribution : contribution other trade =
      if trade.symbol = other then signed trade.side trade.quantity else 0 := by
    simp [contribution, hopened]
  have hmapped : tradeId < (store.trades.map (contribution other)).length := by
    rwa [List.length_map]
  rw [openQuantity_eq_sum, openQuantity_eq_sum, htrades, List.map_set, List.sum_set',
    dif_pos hmapped, List.getElem_map, hget, hnone, hcontribution]
  split_ifs <;> ring

theorem Closed.balanced_iff {store' : Store} {tradeId : ℕ} {trade : PaperTrade}
    (h : Closed store store' tradeId trade) (htrade : store.trades[tradeId]? = some trade)
    (hopened : trade.status = .opened) (hbalanced : Balanced store) (hstored : store.Stored) :
    Balanced store' ↔ CloseFits (store.portfolio trade.symbol) trade := by
  obtain ⟨hportfolio, closed, htrades, hclosed, -⟩ := h
  rw [balanced_update_iff hbalanced hportfolio
    (openQuantity_set htrade hopened htrades hclosed), ← sub_eq_add_neg]
  exact rowQuantity_remove_iff (hstored.rows trade.symbol)
    (hstored.trades trade (List.mem_of_getElem? htrade))

theorem Closed.stored {store' : Store} {tradeId : ℕ} {trade : PaperTrade}
    (h : Closed store store' tradeId trade) (htrade : store.trades[tradeId]? = some trade)
    (hstored : store.Stored) : store'.Stored := by
  obtain ⟨hportfolio, closed, htrades, -, hquantity⟩ := h
  apply hstored.update hportfolio
  · intro result hresult
    obtain ⟨row, -, hrow⟩ := Option.bind_eq_some_iff.mp hresult
    dsimp only at hrow
    split_ifs at hrow
    obtain rfl := Option.some.inj hrow
    exact isDecimal_storeTo 8 _
  · intro trade' hmem
    rw [htrades] at hmem
    rcases List.mem_or_eq_of_mem_set hmem with hmem | rfl
    · exact hstored.trades trade' hmem
    · rw [hquantity]
      exact hstored.trades trade (List.mem_of_getElem? htrade)

/-! ### One operation -/

theorem Stored.apply (hstored : store.Stored) (op : Op) : (store.apply op).Stored := by
  cases op with
  | executeTrade signalId symbol side entryPrice quantity =>
    exact (apply_executeTrade signalId).stored hstored
  | executeSessionTrade sessionId signalId symbol side entryPrice quantity =>
    exact (apply_executeSessionTrade sessionId signalId).stored hstored
  | closeTrade tradeId exitPrice =>
    rcases @apply_closeTrade store tradeId exitPrice with
      ⟨trade, htrade, -, hclosed⟩ | ⟨-, hsame⟩
    · exact hclosed.stored htrade hstored
    · rw [hsame]
      exact hstored

/-- From a balanced portfolio exactly the operations that fit lead to a balanced one. -/
theorem balanced_apply_iff (hstored : store.Stored) (hbalanced : Balanced store) (op : Op) :
    Balanced (store.apply op) ↔ store.Fits op := by
  cases op with
  | executeTrade signalId symbol side entryPrice quantity =>
    exact (apply_executeTrade signalId).balanced_iff hbalanced hstored
  | executeSessionTrade sessionId signalId symbol side entryPrice quantity =>
    exact (apply_executeSessionTrade sessionId signalId).balanced_iff hbalanced hstored
  | closeTrade tradeId exitPrice =>
    rcases @apply_closeTrade store tradeId exitPrice with
      ⟨trade, htrade, hopened, hclosed⟩ | ⟨hnone, hsame⟩
    · rw [hclosed.balanced_iff htrade hopened hbalanced hstored]
      simp only [Fits, htrade, Option.some.injEq, forall_eq', hopened, true_implies]
    · rw [hsame]
      exact iff_of_true hbalanced fun trade htrade hopened =>
        absurd hopened (hnone trade htrade)

end Store

/-! ### Runs -/

/-- In every state reached the portfolio equals the open trades, exactly if every
operation of the run fits. -/
theorem run_balanced_iff (signals : String → Bool) (sessions : String → Option Session)
    (ops : List Op) :
    (∀ reached, reached <+: ops →
        Balanced (reached.foldl Store.apply (.empty signals sessions))) ↔
      ∀ earlier op, earlier ++ [op] <+: ops →
        (earlier.foldl Store.apply (.empty signals sessions)).Fits op := by
  have hstored : (Store.empty signals sessions).Stored := by
    constructor
    · rintro symbol row ⟨⟩
    · rintro trade ⟨⟩
  have hbalanced : Balanced (.empty signals sessions) := fun _ => rfl
  exact forall_reached_iff_forall_step (I := Store.Stored) (P := Balanced) Store.apply
    (fun _ op h => h.apply op)
    (fun _ op hstored hbalanced => Store.balanced_apply_iff hstored hbalanced op)
    hstored hbalanced ops

/-- A SELL of what is not held is an open trade without a row. -/
theorem shortSell_not_balanced :
    ¬ ∀ reached, reached <+: [Op.executeTrade "signal" "BTC/USD" .sell 100 1] →
      Balanced (reached.foldl Store.apply (.empty (fun _ => true) fun _ => none)) := by
  intro h
  have hrow : rowQuantity (([Op.executeTrade "signal" "BTC/USD" .sell 100 1].foldl
      Store.apply (.empty (fun _ => true) fun _ => none)).portfolio "BTC/USD") = 0 := rfl
  have hopen : openQuantity ([Op.executeTrade "signal" "BTC/USD" .sell 100 1].foldl
      Store.apply (.empty (fun _ => true) fun _ => none)) "BTC/USD" = -1 := by
    decide +kernel
  have hbalanced := h _ (List.prefix_refl _) "BTC/USD"
  rw [hrow, hopen] at hbalanced
  norm_num at hbalanced

/-! ### Trades of positive quantities -/

/-- A BUY fits a row that is not short. -/
theorem tradeFits_buy {existing : Option PortfolioRow} {quantity : ℚ}
    (hrow : 0 ≤ rowQuantity existing) (hquantity : 0 < quantity) :
    TradeFits existing .buy quantity := by
  cases existing with
  | none => exact trivial
  | some row =>
    have hrow : 0 ≤ row.quantity := hrow
    exact fun _ => iff_of_true (by linarith) hquantity

/-- A close fits if it is of a BUY that the row still holds. -/
theorem closeFits_iff_of_pos {existing : Option PortfolioRow} {trade : PaperTrade}
    (hrow : 0 ≤ rowQuantity existing) (hquantity : 0 < trade.quantity) :
    CloseFits existing trade ↔
      trade.side = .buy ∧ trade.quantity ≤ rowQuantity existing := by
  cases existing with
  | none =>
    refine iff_of_false hquantity.ne' ?_
    rintro ⟨-, hle⟩
    exact absurd hquantity (not_lt.mpr hle)
  | some row =>
    have hrow : 0 ≤ row.quantity := hrow
    cases hside : trade.side with
    | buy => simp [CloseFits, hside, rowQuantity]
    | sell =>
      refine iff_of_false ?_ fun h => by cases h.1
      simp only [CloseFits, hside]
      rintro ⟨hshort, hlong⟩
      rcases le_or_gt row.quantity trade.quantity with hle | hlt
      · linarith [hshort hle]
      · exact hquantity.ne' (hlong hlt)

end TradeStream.PaperTrading
