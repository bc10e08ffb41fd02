import TradeStream.PortfolioState

/-! Runs of the paper trading store under the portfolio state service: exactly which trades
and closes keep the reported PnL equal to that of the open trades. -/
namespace TradeStream.PaperTrading.PortfolioState
open scoped List
open TradeStream.RoundDecimal TradeStream.RunSteps

/-- The last of the trades, if there is one, is a BUY. -/
def EndsLong (trades : List PaperTrade) : Prop :=
  ∀ last, trades.getLast? = some last → last.side = .buy

/-- A trade that the row follows. A BUY must lose nothing to the rounding of the quantity
and of the average price, a SELL must be of all that is held, at the average price. -/
def TradeKeeps (existing : Option PortfolioRow) (side : Side) (entryPrice quantity : ℚ) : Prop :=
  match existing, side with
  | none, .buy => 0 ≤ numeric quantity
  | none, .sell => numeric quantity = 0
  | some row, .buy =>
    max 0 (numeric (row.quantity + quantity)) = row.quantity + numeric quantity ∧
      (row.quantity + numeric quantity) *
        numeric ((row.avgEntryPrice * row.quantity + entryPrice * quantity) /
          (row.quantity + quantity)) =
        row.quantity * row.avgEntryPrice + numeric quantity * numeric entryPrice
  | some row, .sell =>
    numeric (row.quantity - quantity) ≤ 0 ∧ numeric quantity = row.quantity ∧
      row.quantity * row.avgEntryPrice = row.quantity * numeric entryPrice

/-- A close that the row follows: of a BUY that the row still holds, at the average price. If
something remains, the last of the other open trades is not a SELL. -/
def CloseKeeps (existing : Option PortfolioRow) (trade : PaperTrade)
    (others : List PaperTrade) : Prop :=
  match existing with
  | none => trade.quantity = 0
  | some row =>
    (match trade.side with
      | .buy => trade.quantity ≤ row.quantity ∧
          trade.quantity * row.avgEntryPrice = trade.quantity * trade.entryPrice
      | .sell => trade.quantity = 0) ∧
    (trade.quantity < row.quantity → EndsLong others)

/-- Operations that keep the report equal to the ledger. -/
def KeepsPnl (store : Store) : Op → Prop
  | .executeTrade signalId symbol side entryPrice quantity =>
    store.Accepts none (some signalId) →
      TradeKeeps (store.portfolio symbol) side entryPrice quantity
  | .executeSessionTrade sessionId signalId symbol side entryPrice quantity =>
    store.Accepts (some sessionId) signalId →
      TradeKeeps (store.portfolio symbol) side entryPrice quantity
  | .closeTrade tradeId _ =>
    ∀ trade, store.trades[tradeId]? = some trade → trade.status = .opened →
      CloseKeeps (store.portfolio trade.symbol) trade
        (openOf (store.trades.eraseIdx tradeId) trade.symbol)

/-! ### One row -/

/-- A row that is long, as the service reads it. -/
structure LongRow (row : Option PortfolioRow) (trades : List PaperTrade) : Prop where
  nonneg : 0 ≤ rowQuantity row
  endsLong : 0 < rowQuantity row → EndsLong trades
  sells : ∀ trade ∈ trades, trade.side = .sell → 0 ≤ trade.quantity
  agrees : Matches row trades

theorem endsLong_iff (trades : List PaperTrade) :
    EndsLong trades ↔ (trades.getLast?.map PaperTrade.side).getD .buy = .buy := by
  cases hlast : trades.getLast? with
  | none => simp [EndsLong, hlast]
  | some last => simp [EndsLong, hlast]

theorem heldQuantity_eq {row : Option PortfolioRow} {trades : List PaperTrade}
    (hnonneg : 0 ≤ rowQuantity row) (hends : 0 < rowQuantity row → EndsLong trades) :
    heldQuantity row trades = rowQuantity row := by
  rw [heldQuantity]
  split_ifs with hpos
  · rw [(endsLong_iff trades).mp (hends hpos), signed]
  · exact le_antisymm hnonneg (not_lt.mp hpos)

/-- What the open trades of a long row add up to. -/
theorem LongRow.sums {row : Option PortfolioRow} {trades : List PaperTrade}
    (h : LongRow row trades) :
    (trades.map signedQuantity).sum = rowQuantity row ∧
      (trades.map signedCost).sum = rowQuantity row * avgPrice row := by
  have hheld := heldQuantity_eq h.nonneg h.endsLong
  rw [← hheld]
  exact ⟨h.agrees.quantity.symm, h.agrees.cost.symm⟩

theorem numeric_mono {x y : ℚ} (h : x ≤ y) : numeric x ≤ numeric y := storeTo_mono 8 h

theorem numeric_zero : numeric 0 = 0 := by decide +kernel

/-- The quantity of a row does not fall below zero where it should reach it. -/
theorem numeric_add_nonneg {x y : ℚ} (hx : IsDecimal 8 x) (hnonneg : 0 ≤ x)
    (h : x + numeric y = 0) : 0 ≤ numeric (x + y) := by
  by_cases hsum : numeric (x + y) = x + numeric y
  · rw [hsum, h]
  · have hpos : 0 < x + y := by
      by_contra hle
      apply hsum
      refine (storeTo_add_iff hx y).mpr fun _ => iff_of_false hle ?_
      intro hy
      exact hle (by linarith)
    rw [← numeric_zero]
    exact numeric_mono hpos.le

section
variable {row : Option PortfolioRow} {trades : List PaperTrade} {trade : PaperTrade}
  {entryPrice quantity : ℚ}

theorem heldQuantity_append (row : Option PortfolioRow) (trades : List PaperTrade)
    (trade : PaperTrade) :
    heldQuantity row (trades ++ [trade]) = signed trade.side (max 0 (rowQuantity row)) := by
  rw [heldQuantity, List.getLast?_append, List.getLast?_singleton, Option.some_or,
    Option.map_some, Option.getD_some]
  split_ifs with hpos
  · rw [max_eq_right hpos.le]
  · rw [max_eq_left (not_lt.mp hpos)]
    cases trade.side <;> simp [signed]

/-- What a new trade has to find in the row after it. -/
theorem LongRow.matches_append_iff (h : LongRow row trades) (row' : Option PortfolioRow)
    (trade : PaperTrade) :
    Matches row' (trades ++ [trade]) ↔
      signed trade.side (max 0 (rowQuantity row')) =
          rowQuantity row + signed trade.side trade.quantity ∧
        signed trade.side (max 0 (rowQuantity row')) * avgPrice row' =
          rowQuantity row * avgPrice row +
            signed trade.side (trade.quantity * trade.entryPrice) := by
  have hquantity : ((trades ++ [trade]).map signedQuantity).sum =
      rowQuantity row + signed trade.side trade.quantity := by
    rw [List.map_append, List.sum_append, h.sums.1]
    simp [signedQuantity]
  have hcost : ((trades ++ [trade]).map signedCost).sum =
      rowQuantity row * avgPrice row + signed trade.side (trade.quantity * trade.entryPrice) := by
    rw [List.map_append, List.sum_append, h.sums.2]
    simp [signedCost]
  rw [← heldQuantity_append row' trades trade, ← hquantity, ← hcost]
  exact ⟨fun hmatches => ⟨hmatches.quantity, hmatches.cost⟩, fun hsums => ⟨hsums.1, hsums.2⟩⟩

theorem numeric_nonpos {x : ℚ} (h : x ≤ 0) : numeric x ≤ 0 := by
  rw [← numeric_zero]
  exact numeric_mono h

theorem numeric_nonneg {x : ℚ} (h : 0 ≤ x) : 0 ≤ numeric x := by
  rw [← numeric_zero]
  exact numeric_mono h

/-- The average price that a BUY leaves, times what is then held. -/
theorem cost_upsert_buy (row : PortfolioRow) (entryPrice quantity : ℚ) :
    max 0 (rowQuantity (Store.upsertPosition (some row) .buy entryPrice quantity)) *
        avgPrice (Store.upsertPosition (some row) .buy entryPrice quantity) =
      max 0 (numeric (row.quantity + quantity)) *
        numeric ((row.avgEntryPrice * row.quantity + entryPrice * quantity) /
          (row.quantity + quantity)) := by
  simp only [Store.upsertPosition, rowQuantity, avgPrice, Option.map_some, Option.getD_some]
  split_ifs with hpos
  · rfl
  · rw [max_eq_left (numeric_nonpos (not_lt.mp hpos)), zero_mul, zero_mul]

theorem LongRow.matches_buy_iff (h : LongRow row trades) (hside : trade.side = .buy)
    (hquantity : trade.quantity = numeric quantity)
    (hprice : trade.entryPrice = numeric entryPrice) :
    Matches (Store.upsertPosition row .buy entryPrice quantity) (trades ++ [trade]) ↔
      TradeKeeps row .buy entryPrice quantity := by
  rw [h.matches_append_iff, hside, hquantity, hprice]
  simp only [signed]
  cases row with
  | none =>
    simp only [Store.upsertPosition, TradeKeeps, rowQuantity, avgPrice, Option.map_none,
      Option.getD_none, Option.map_some, Option.getD_some, zero_add, zero_mul]
    constructor
    · rintro ⟨hheld, -⟩
      rw [← hheld]
      exact le_max_left _ _
    · intro hnonneg
      rw [max_eq_right hnonneg]
      exact ⟨rfl, rfl⟩
  | some row =>
    rw [cost_upsert_buy]
    simp only [Store.upsertPosition, TradeKeeps, rowQuantity, avgPrice, Option.map_some,
      Option.getD_some]
    refine and_congr_right fun hheld => ?_
    rw [hheld]

/-- A SELL of all that a row holds deletes the row. -/
theorem matches_sell_all_iff {existing : PortfolioRow} (hall : existing.quantity - quantity ≤ 0) :
    (-(0 : ℚ) = existing.quantity + -numeric quantity ∧
        -(0 : ℚ) * avgPrice none = existing.quantity * existing.avgEntryPrice +
          -(numeric quantity * numeric entryPrice)) ↔
      TradeKeeps (some existing) .sell entryPrice quantity := by
  simp only [TradeKeeps, numeric_nonpos hall, true_and, neg_zero, zero_mul]
  constructor
  · rintro ⟨hheld, hcost⟩
    have hsold : numeric quantity = existing.quantity := by linarith
    rw [hsold] at hcost
    exact ⟨hsold, by linarith⟩
  · rintro ⟨hsold, hcost⟩
    rw [hsold, ← hcost]
    constructor <;> ring

/-- A SELL of a part of a row makes the service report the rest short: nothing must be left
after rounding. -/
theorem matches_sell_part_iff {existing : PortfolioRow}
    (hdecimal : IsDecimal 8 existing.quantity) (hpart : quantity < existing.quantity) :
    (-max 0 (numeric (existing.quantity - quantity)) =
          existing.quantity + -numeric quantity ∧
        -max 0 (numeric (existing.quantity - quantity)) * existing.avgEntryPrice =
          existing.quantity * existing.avgEntryPrice +
            -(numeric quantity * numeric entryPrice)) ↔
      TradeKeeps (some existing) .sell entryPrice quantity := by
  -- the row's quantity is stored already, so that rounding does not take a part past it
  have hless : numeric quantity ≤ existing.quantity := calc
    numeric quantity ≤ numeric existing.quantity := numeric_mono hpart.le
    _ = existing.quantity := hdecimal.storeTo_eq
  simp only [TradeKeeps]
  constructor
  · rintro ⟨hheld, hcost⟩
    have hrest : max 0 (numeric (existing.quantity - quantity)) = 0 := by
      apply le_antisymm _ (le_max_left _ _)
      linarith
    rw [hrest] at hheld hcost
    have hsold : numeric quantity = existing.quantity := by linarith
    rw [hsold] at hcost
    exact ⟨max_eq_left_iff.mp hrest, hsold, by linarith⟩
  · rintro ⟨hrest, hsold, hcost⟩
    rw [max_eq_left hrest, hsold, ← hcost]
    constructor <;> ring

theorem LongRow.matches_sell_iff (h : LongRow row trades)
    (hdecimal : ∀ existing, row = some existing → IsDecimal 8 existing.quantity)
    (hside : trade.side = .sell) (hquantity : trade.quantity = numeric quantity)
    (hprice : trade.entryPrice = numeric entryPrice) :
    Matches (Store.upsertPosition row .sell entryPrice quantity) (trades ++ [trade]) ↔
      TradeKeeps row .sell entryPrice quantity := by
  rw [h.matches_append_iff, hside, hquantity, hprice]
  simp only [signed]
  cases row with
  | none =>
    simp only [Store.upsertPosition, TradeKeeps, rowQuantity, avgPrice, Option.map_none,
      Option.getD_none, max_self, neg_zero, zero_add, zero_mul]
    constructor
    · rintro ⟨hzero, -⟩
      linarith
    · intro hzero
      rw [hzero]
      norm_num
  | some existing =>
    have hrow : rowQuantity (some existing) = existing.quantity := rfl
    have havg : avgPrice (some existing) = existing.avgEntryPrice := rfl
    have hnone : rowQuantity none = 0 := rfl
    rw [hrow, havg]
    simp only [Store.upsertPosition]
    -- all is sold, and the row goes, or a part of it
    split_ifs with hall
    · rw [hnone, max_self]
      exact matches_sell_all_iff hall
    · exact matches_sell_part_iff (hdecimal existing rfl) (by linarith)

theorem LongRow.matches_trade_iff (h : LongRow row trades)
    (hdecimal : ∀ existing, row = some existing → IsDecimal 8 existing.quantity)
    (hquantity : trade.quantity = numeric quantity)
    (hprice : trade.entryPrice = numeric entryPrice) :
    Matches (Store.upsertPosition row trade.side entryPrice quantity) (trades ++ [trade]) ↔
      TradeKeeps row trade.side entryPrice quantity := by
  cases hside : trade.side with
  | buy => exact h.matches_buy_iff hside hquantity hprice
  | sell => exact h.matches_sell_iff hdecimal hside hquantity hprice

/-- A trade that the row follows leaves it long. -/
theorem LongRow.append (h : LongRow row trades)
    (hdecimal : ∀ existing, row = some existing → IsDecimal 8 existing.quantity)
    (hquantity : trade.quantity = numeric quantity)
    (hprice : trade.entryPrice = numeric entryPrice)
    (hkeeps : TradeKeeps row trade.side entryPrice quantity) :
    LongRow (Store.upsertPosition row trade.side entryPrice quantity) (trades ++ [trade]) := by
  have hagrees := (h.matches_trade_iff hdecimal hquantity hprice).mpr hkeeps
  have hnonneg := h.nonneg
  cases hside : trade.side with
  | buy =>
    rw [hside] at hagrees hkeeps
    refine ⟨?_, ?_, ?_, hagrees⟩
    · cases row with
      | none => exact hkeeps
      | some row =>
        rcases le_total 0 (numeric (row.quantity + quantity)) with hpos | hneg
        · exact hpos
        · -- a buy of a negative quantity that would take the row below zero
          have hzero := hkeeps.1
          rw [max_eq_left hneg] at hzero
          exact numeric_add_nonneg (hdecimal row rfl) hnonneg hzero.symm
    · intro _ last hlast
      rw [List.getLast?_append, List.getLast?_singleton, Option.some_or] at hlast
      rw [← Option.some.inj hlast, hside]
    · rw [List.forall_mem_append, List.forall_mem_singleton]
      exact ⟨h.sells, fun hsell => by rw [hside] at hsell; cases hsell⟩
  | sell =>
    rw [hside] at hagrees hkeeps
    -- a long row that stays readable after a sale is empty
    have hzero : rowQuantity (Store.upsertPosition row .sell entryPrice quantity) = 0 := by
      cases row with
      | none => rfl
      | some row =>
        simp only [Store.upsertPosition]
        split_ifs with hall
        · rfl
        · exact le_antisymm hkeeps.1 (numeric_nonneg (by linarith))
    refine ⟨hzero.ge, fun hpos => absurd hpos hzero.not_gt, ?_, hagrees⟩
    rw [List.forall_mem_append, List.forall_mem_singleton, hquantity]
    refine ⟨h.sells, fun _ => ?_⟩
    cases row with
    | none => exact hkeeps.ge
    | some row => exact hnonneg.trans_eq hkeeps.2.1.symm

/-- What is left of a long row matches the other open trades when it stands for the
difference. -/
theorem LongRow.matches_others_iff (h : LongRow row trades) {others : List PaperTrade}
    (hperm : trades ~ trade :: others) (left : Option PortfolioRow) :
    Matches left others ↔
      heldQuantity left others = rowQuantity row - signedQuantity trade ∧
        heldQuantity left others * avgPrice left =
          rowQuantity row * avgPrice row - signedCost trade := by
  have hquantity := (hperm.map signedQuantity).sum_eq
  have hcost := (hperm.map signedCost).sum_eq
  rw [List.map_cons, List.sum_cons] at hquantity hcost
  rw [← h.sums.2, ← h.sums.1, hquantity, hcost, add_sub_cancel_left, add_sub_cancel_left]
  exact ⟨fun hmatches => ⟨hmatches.quantity, hmatches.cost⟩, fun hsums => ⟨hsums.1, hsums.2⟩⟩

theorem LongRow.matches_none_iff (h : LongRow row trades) {others : List PaperTrade}
    (hperm : trades ~ trade :: others) :
    Matches none others ↔ rowQuantity row = signedQuantity trade ∧
      rowQuantity row * avgPrice row = signedCost trade := by
  have hheld : heldQuantity none others = 0 := rfl
  rw [h.matches_others_iff hperm none, hheld, zero_mul, eq_comm, sub_eq_zero,
    eq_comm (a := (0 : ℚ)), sub_eq_zero]

/-- A close that takes all of a row. -/
theorem LongRow.matches_close_all_iff {existing : PortfolioRow}
    (h : LongRow (some existing) trades) {others : List PaperTrade}
    (hperm : trades ~ trade :: others) (hall : existing.quantity ≤ trade.quantity) :
    Matches none others ↔ CloseKeeps (some existing) trade others := by
  have hnonneg : 0 ≤ existing.quantity := h.nonneg
  have hrow : rowQuantity (some existing) = existing.quantity := rfl
  have havg : avgPrice (some existing) = existing.avgEntryPrice := rfl
  rw [h.matches_none_iff hperm, hrow, havg]
  simp only [CloseKeeps, hall.not_gt, false_implies, and_true, signedQuantity, signedCost]
  -- the row goes, so that the trade must have been all there was
  cases hside : trade.side with
  | buy =>
    simp only [signed]
    constructor
    · rintro ⟨hq, hc⟩
      rw [hq] at hc
      exact ⟨hq.ge, hc⟩
    · rintro ⟨hle, hc⟩
      have hq : existing.quantity = trade.quantity := le_antisymm hall hle
      exact ⟨hq, by rw [hq, hc]⟩
  | sell =>
    simp only [signed]
    constructor
    · rintro ⟨hq, -⟩
      linarith
    · intro hzero
      have hq : existing.quantity = 0 := by linarith
      rw [hq, hzero]
      constructor <;> ring

/-- A close that leaves a part of a row. -/
theorem LongRow.matches_close_part_iff {existing : PortfolioRow}
    (h : LongRow (some existing) trades) {others : List PaperTrade}
    (hperm : trades ~ trade :: others) (hpart : trade.quantity < existing.quantity) :
    Matches (some { existing with quantity := existing.quantity - trade.quantity }) others ↔
      CloseKeeps (some existing) trade others := by
  have hheld : heldQuantity
      (some { existing with quantity := existing.quantity - trade.quantity }) others =
        signed ((others.getLast?.map PaperTrade.side).getD .buy)
          (existing.quantity - trade.quantity) := if_pos (sub_pos.mpr hpart)
  have hrow : rowQuantity (some existing) = existing.quantity := rfl
  have havg : avgPrice (some existing) = existing.avgEntryPrice := rfl
  have hleft : avgPrice (some { existing with quantity := existing.quantity - trade.quantity }) =
      existing.avgEntryPrice := rfl
  rw [h.matches_others_iff hperm, hheld, hrow, havg, hleft]
  simp only [CloseKeeps, hpart, true_implies, endsLong_iff, signedQuantity, signedCost]
  have hmem : trade ∈ trades := hperm.mem_iff.mpr (by simp)
  cases hlast : (others.getLast?.map PaperTrade.side).getD .buy with
  | buy =>
    simp only [and_true]
    cases hside : trade.side with
    | buy =>
      simp only [signed, true_and, hpart.le]
      constructor
      · intro hc
        linarith
      · intro hc
        linarith
    | sell =>
      simp only [signed]
      constructor
      · rintro ⟨hq, -⟩
        linarith
      · intro hzero
        rw [hzero]
        constructor <;> ring
  | sell =>
    -- what remains would be read as short
    simp only [reduceCtorEq, and_false, iff_false]
    rintro ⟨hq, -⟩
    cases hside : trade.side with
    | buy =>
      simp only [hside, signed] at hq
      linarith
    | sell =>
      have hsold := h.sells trade hmem hside
      simp only [hside, signed] at hq
      linarith

theorem LongRow.matches_close_iff (h : LongRow row trades)
    (hdecimal : ∀ existing, row = some existing → IsDecimal 8 existing.quantity)
    (htrade : IsDecimal 8 trade.quantity) {others : List PaperTrade}
    (hperm : trades ~ trade :: others) :
    Matches (Store.removePosition row trade.quantity) others ↔ CloseKeeps row trade others := by
  cases row with
  | none =>
    have hnone : rowQuantity none = 0 := rfl
    rw [Store.removePosition, Option.bind_none, h.matches_none_iff hperm, hnone, zero_mul]
    simp only [CloseKeeps, signedQuantity, signedCost]
    constructor
    · rintro ⟨hq, -⟩
      exact signed_eq_zero_iff.mp hq.symm
    · intro hzero
      rw [hzero, zero_mul, signed_eq_zero_iff.mpr rfl]
      exact ⟨rfl, rfl⟩
  | some existing =>
    have hrest : numeric (existing.quantity - trade.quantity) =
        existing.quantity - trade.quantity := ((hdecimal existing rfl).sub htrade).storeTo_eq
    simp only [Store.removePosition, Option.bind_some, hrest, sub_nonpos]
    split_ifs with hall
    · exact h.matches_close_all_iff hperm hall
    · exact h.matches_close_part_iff hperm (not_le.mp hall)

/-- A close that the row follows leaves it long. -/
theorem LongRow.close (h : LongRow row trades)
    (hdecimal : ∀ existing, row = some existing → IsDecimal 8 existing.quantity)
    (htrade : IsDecimal 8 trade.quantity) {others : List PaperTrade}
    (hperm : trades ~ trade :: others) (hkeeps : CloseKeeps row trade others) :
    LongRow (Store.removePosition row trade.quantity) others := by
  have hagrees := (h.matches_close_iff hdecimal htrade hperm).mpr hkeeps
  have hsells : ∀ other ∈ others, other.side = .sell → 0 ≤ other.quantity := by
    intro other hother
    exact h.sells other (hperm.mem_iff.mpr (List.mem_cons_of_mem _ hother))
  cases row with
  | none => exact ⟨le_rfl, fun hpos => absurd hpos (lt_irrefl _), hsells, hagrees⟩
  | some existing =>
    have hquantity := rowQuantity_removePosition (hdecimal existing rfl) htrade
    refine ⟨?_, ?_, hsells, hagrees⟩
    · rw [hquantity]
      split_ifs with hall
      · exact le_rfl
      · exact sub_nonneg.mpr (not_le.mp hall).le
    · intro hpos
      rw [hquantity] at hpos
      split_ifs at hpos with hall
      · exact absurd hpos (lt_irrefl _)
      · exact hkeeps.2 (not_le.mp hall)

end

/-! ### The tables -/

/-- Every row has a trade of its symbol. -/
def RowsTraded (store : Store) : Prop :=
  ∀ symbol row, store.portfolio symbol = some row → ∃ trade ∈ store.trades, trade.symbol = symbol

/-- Every row is long, as the service reads it. -/
def Readable (store : Store) : Prop :=
  ∀ symbol, LongRow (store.portfolio symbol) (openOf store.trades symbol)

theorem openOf_append (trades : List PaperTrade) {trade : PaperTrade}
    (hopened : trade.status = .opened) (symbol : String) :
    openOf (trades ++ [trade]) symbol =
      openOf trades symbol ++ if trade.symbol = symbol then [trade] else [] := by
  rw [openOf, List.filter_append, List.filter_singleton]
  split_ifs <;> simp_all [openOf]

theorem openOf_set {trades : List PaperTrade} {i : ℕ} (hi : i < trades.length)
    (trade : PaperTrade) (symbol : String) :
    openOf (trades.set i trade) symbol = openOf (trades.take i) symbol ++
      (if trade.symbol = symbol ∧ trade.status = .opened then [trade] else []) ++
        openOf (trades.drop (i + 1)) symbol := by
  rw [List.set_eq_take_append_cons_drop, if_pos hi, openOf, List.filter_append, List.filter_cons,
    List.append_assoc]
  split_ifs <;> simp_all [openOf]

theorem openOf_eraseIdx (trades : List PaperTrade) (i : ℕ) (symbol : String) :
    openOf (trades.eraseIdx i) symbol =
      openOf (trades.take i) symbol ++ openOf (trades.drop (i + 1)) symbol := by
  rw [List.eraseIdx_eq_take_drop_succ, openOf, List.filter_append]
  rfl

/-- What a trade that is open, and its close, are for the open trades of a symbol. -/
theorem openOf_close {trades : List PaperTrade} {i : ℕ} {trade closed : PaperTrade}
    (htrade : trades[i]? = some trade) (hopened : trade.status = .opened)
    (hclosed : closed.status = .closed) :
    (∀ symbol, openOf (trades.set i closed) symbol = openOf (trades.eraseIdx i) symbol) ∧
      (∀ symbol, trade.symbol ≠ symbol →
        openOf (trades.eraseIdx i) symbol = openOf trades symbol) ∧
      openOf trades trade.symbol ~ trade :: openOf (trades.eraseIdx i) trade.symbol := by
  obtain ⟨hi, hget⟩ := List.getElem?_eq_some_iff.mp htrade
  have hself : trades.set i trade = trades := by rw [← hget, List.set_getElem_self]
  refine ⟨?_, ?_, ?_⟩
  · intro symbol
    rw [openOf_set hi, openOf_eraseIdx]
    simp [hclosed]
  · intro symbol hne
    have hset := openOf_set hi trade symbol
    rw [hself] at hset
    rw [hset, openOf_eraseIdx]
    simp [hne]
  · have hset := openOf_set hi trade trade.symbol
    rw [hself] at hset
    rw [hset, openOf_eraseIdx, if_pos ⟨rfl, hopened⟩, List.append_assoc, List.singleton_append]
    exact List.perm_middle

/-- A step changes the row and the open trades of one symbol. -/
structure Changes (store store' : Store) (symbol : String) (row : Option PortfolioRow) :
    Prop where
  portfolio : store'.portfolio = Function.update store.portfolio symbol row
  others : ∀ other, symbol ≠ other → openOf store'.trades other = openOf store.trades other
  traded : RowsTraded store'

section
variable {store store' : Store} {symbol : String} {row : Option PortfolioRow}

theorem Changes.agrees_iff (h : Changes store store' symbol row) (hreadable : Readable store) :
    Agrees store' ↔ Matches row (openOf store'.trades symbol) := by
  rw [PortfolioState.agrees_iff h.traded]
  constructor
  · intro hmatches
    have hsymbol := hmatches symbol
    rwa [h.portfolio, Function.update_self] at hsymbol
  · intro hrow other
    rw [h.portfolio]
    by_cases heq : symbol = other
    · subst heq
      rwa [Function.update_self]
    · rw [Function.update_of_ne (Ne.symm heq), h.others other heq]
      exact (hreadable other).agrees

theorem Changes.readable (h : Changes store store' symbol row) (hreadable : Readable store)
    (hrow : LongRow row (openOf store'.trades symbol)) : Readable store' := by
  intro other
  rw [h.portfolio]
  by_cases heq : symbol = other
  · subst heq
    rwa [Function.update_self]
  · rw [Function.update_of_ne (Ne.symm heq), h.others other heq]
    exact hreadable other

theorem readable_agrees (hrows : RowsTraded store) (hreadable : Readable store) :
    Agrees store :=
  (agrees_iff hrows).mpr fun symbol => (hreadable symbol).agrees

/-- A new trade, and the row of its symbol after it. -/
structure Opens (store store' : Store) (trade : PaperTrade) (entryPrice quantity : ℚ) :
    Prop where
  portfolio : store'.portfolio = Function.update store.portfolio trade.symbol
    (Store.upsertPosition (store.portfolio trade.symbol) trade.side entryPrice quantity)
  trades : store'.trades = store.trades ++ [trade]
  opened : trade.status = .opened
  quantity_eq : trade.quantity = numeric quantity
  price_eq : trade.entryPrice = numeric entryPrice

variable {trade : PaperTrade} {entryPrice quantity : ℚ}

theorem Opens.traded (h : Opens store store' trade entryPrice quantity)
    (hrows : RowsTraded store) : RowsTraded store' := by
  intro symbol row hrow
  rw [h.portfolio] at hrow
  rw [h.trades]
  by_cases heq : symbol = trade.symbol
  · exact ⟨trade, by simp, heq.symm⟩
  · rw [Function.update_of_ne heq] at hrow
    obtain ⟨earlier, hearlier, hsymbol⟩ := hrows symbol row hrow
    exact ⟨earlier, List.mem_append_left _ hearlier, hsymbol⟩

theorem Opens.changes (h : Opens store store' trade entryPrice quantity)
    (hrows : RowsTraded store) :
    Changes store store' trade.symbol
      (Store.upsertPosition (store.portfolio trade.symbol) trade.side entryPrice quantity) where
  portfolio := h.portfolio
  others := by
    intro other hne
    rw [h.trades, openOf_append _ h.opened, if_neg hne, List.append_nil]
  traded := h.traded hrows

theorem Opens.agrees_iff (h : Opens store store' trade entryPrice quantity)
    (hstored : store.Stored) (hrows : RowsTraded store) (hreadable : Readable store) :
    Agrees store' ↔
      TradeKeeps (store.portfolio trade.symbol) trade.side entryPrice quantity := by
  rw [(h.changes hrows).agrees_iff hreadable, h.trades, openOf_append _ h.opened, if_pos rfl]
  exact (hreadable trade.symbol).matches_trade_iff (hstored.rows trade.symbol) h.quantity_eq
    h.price_eq

theorem Opens.readable (h : Opens store store' trade entryPrice quantity)
    (hstored : store.Stored) (hrows : RowsTraded store) (hreadable : Readable store)
    (hkeeps : TradeKeeps (store.portfolio trade.symbol) trade.side entryPrice quantity) :
    Readable store' := by
  refine (h.changes hrows).readable hreadable ?_
  rw [h.trades, openOf_append _ h.opened, if_pos rfl]
  exact (hreadable trade.symbol).append (hstored.rows trade.symbol) h.quantity_eq h.price_eq
    hkeeps

theorem opens_executeTrade {signalId : String} {side : Side}
    (haccepts : store.Accepts none (some signalId)) :
    Opens store (store.apply (.executeTrade signalId symbol side entryPrice quantity))
      (Store.openedTrade none (some signalId) symbol side entryPrice quantity) entryPrice
      quantity where
  portfolio := ((Store.apply_executeTrade signalId).traded haccepts).portfolio
  trades := by
    simp only [Store.apply, Store.executeTrade, Store.insertTrade_eq haccepts]
    rfl
  opened := rfl
  quantity_eq := rfl
  price_eq := rfl

theorem opens_executeSessionTrade {sessionId : String} {signalId : Option String} {side : Side}
    (haccepts : store.Accepts (some sessionId) signalId) :
    Opens store
      (store.apply (.executeSessionTrade sessionId signalId symbol side entryPrice quantity))
      (Store.openedTrade (some sessionId) signalId symbol side entryPrice quantity) entryPrice
      quantity where
  portfolio := ((Store.apply_executeSessionTrade sessionId signalId).traded haccepts).portfolio
  trades := by
    simp only [Store.apply, Store.executeSessionTrade, Store.insertTrade_eq haccepts]
    rfl
  opened := rfl
  quantity_eq := rfl
  price_eq := rfl

/-- An open trade is closed, and taken out of the row of its symbol. -/
structure Closes (store store' : Store) (tradeId : ℕ) (trade : PaperTrade) : Prop where
  found : store.trades[tradeId]? = some trade
  opened : trade.status = .opened
  portfolio : store'.portfolio = Function.update store.portfolio trade.symbol
    (Store.removePosition (store.portfolio trade.symbol) trade.quantity)
  trades : ∃ closed : PaperTrade, store'.trades = store.trades.set tradeId closed ∧
    closed.status = .closed ∧ closed.symbol = trade.symbol

variable {tradeId : ℕ}

theorem closes_closeTrade (store : Store) (tradeId : ℕ) (exitPrice : ℚ) :
    (∃ trade, Closes store (store.apply (.closeTrade tradeId exitPrice)) tradeId trade) ∨
      (∀ trade, store.trades[tradeId]? = some trade → trade.status ≠ .opened) ∧
        store.apply (.closeTrade tradeId exitPrice) = store := by
  rcases Store.closeTrade_cases store tradeId exitPrice with
    ⟨trade, closed, htrade, hopened, hportfolio, htrades, hstatus, -, hsymbol⟩ | hsame
  · exact .inl ⟨trade, htrade, hopened, hportfolio, closed, htrades, hstatus, hsymbol⟩
  · exact .inr hsame

theorem Closes.traded (h : Closes store store' tradeId trade) (hrows : RowsTraded store) :
    RowsTraded store' := by
  obtain ⟨closed, htrades, -, hsymbol⟩ := h.trades
  have hmem (other : PaperTrade) (hother : other ∈ store.trades) :
      ∃ kept ∈ store'.trades, kept.symbol = other.symbol := by
    obtain ⟨i, hi, rfl⟩ := List.mem_iff_getElem.mp hother
    rw [htrades]
    by_cases heq : tradeId = i
    · -- the closed trade stays in the table, under its symbol
      subst heq
      have hget : store.trades[tradeId] = trade := by
        have hfound := h.found
        rwa [List.getElem?_eq_getElem hi, Option.some.injEq] at hfound
      exact ⟨closed, List.mem_set hi closed, by rw [hget, hsymbol]⟩
    · have hi' : i < (store.trades.set tradeId closed).length := by rwa [List.length_set]
      refine ⟨(store.trades.set tradeId closed)[i], List.getElem_mem hi', ?_⟩
      rw [List.getElem_set_of_ne heq]
  intro symbol row hrow
  rw [h.portfolio] at hrow
  have hbefore : ∃ before, store.portfolio symbol = some before := by
    by_cases heq : symbol = trade.symbol
    · subst heq
      rw [Function.update_self] at hrow
      obtain ⟨before, hbefore, -⟩ := Option.bind_eq_some_iff.mp hrow
      exact ⟨before, hbefore⟩
    · rw [Function.update_of_ne heq] at hrow
      exact ⟨row, hrow⟩
  obtain ⟨before, hbefore⟩ := hbefore
  obtain ⟨other, hother, rfl⟩ := hrows symbol before hbefore
  exact hmem other hother

theorem Closes.changes (h : Closes store store' tradeId trade) (hrows : RowsTraded store) :
    Changes store store' trade.symbol
        (Store.removePosition (store.portfolio trade.symbol) trade.quantity) ∧
      openOf store'.trades trade.symbol =
        openOf (store.trades.eraseIdx tradeId) trade.symbol := by
  obtain ⟨closed, htrades, hclosed, -⟩ := h.trades
  obtain ⟨hset, hother, -⟩ := openOf_close h.found h.opened hclosed
  refine ⟨⟨h.portfolio, ?_, h.traded hrows⟩, ?_⟩
  · intro other hne
    rw [htrades, hset, hother other hne]
  · rw [htrades, hset]

theorem Closes.perm (h : Closes store store' tradeId trade) :
    openOf store.trades trade.symbol ~
      trade :: openOf (store.trades.eraseIdx tradeId) trade.symbol := by
  obtain ⟨closed, -, hclosed, -⟩ := h.trades
  exact (openOf_close h.found h.opened hclosed).2.2

theorem Closes.agrees_iff (h : Closes store store' tradeId trade) (hstored : store.Stored)
    (hrows : RowsTraded store) (hreadable : Readable store) :
    Agrees store' ↔ CloseKeeps (store.portfolio trade.symbol) trade
      (openOf (store.trades.eraseIdx tradeId) trade.symbol) := by
  obtain ⟨hchanges, hothers⟩ := h.changes hrows
  rw [hchanges.agrees_iff hreadable, hothers]
  exact (hreadable trade.symbol).matches_close_iff (hstored.rows trade.symbol)
    (hstored.trades trade (List.mem_of_getElem? h.found)) h.perm

theorem Closes.readable (h : Closes store store' tradeId trade) (hstored : store.Stored)
    (hrows : RowsTraded store) (hreadable : Readable store)
    (hkeeps : CloseKeeps (store.portfolio trade.symbol) trade
      (openOf (store.trades.eraseIdx tradeId) trade.symbol)) : Readable store' := by
  obtain ⟨hchanges, hothers⟩ := h.changes hrows
  refine hchanges.readable hreadable ?_
  rw [hothers]
  exact (hreadable trade.symbol).close (hstored.rows trade.symbol)
    (hstored.trades trade (List.mem_of_getElem? h.found)) h.perm hkeeps

/-! ### One operation -/

/-- What one operation keeps, and what it takes for the report to agree after it. -/
structure Follows (store store' : Store) (keeps : Prop) : Prop where
  traded : RowsTraded store'
  agrees_iff : Readable store → (Agrees store' ↔ keeps)
  readable : Readable store → keeps → Readable store'

theorem Follows.unchanged {keeps : Prop} (hrows : RowsTraded store) (hkeeps : keeps) :
    Follows store store keeps where
  traded := hrows
  agrees_iff := fun hreadable => iff_of_true (readable_agrees hrows hreadable) hkeeps
  readable := fun hreadable _ => hreadable

/-- A transaction of a trade: accepted, or rolled back. -/
theorem follows_trade {accepts : Prop} {keeps : Prop} (hstored : store.Stored)
    (hrows : RowsTraded store)
    (hopens : accepts → Opens store store' trade entryPrice quantity)
    (hrejected : ¬ accepts → store' = store)
    (hkeeps : keeps = TradeKeeps (store.portfolio trade.symbol) trade.side entryPrice quantity) :
    Follows store store' (accepts → keeps) := by
  subst hkeeps
  by_cases haccepts : accepts
  · have hopens := hopens haccepts
    simp only [haccepts, true_implies]
    exact ⟨hopens.traded hrows, hopens.agrees_iff hstored hrows, hopens.readable hstored hrows⟩
  · rw [hrejected haccepts]
    exact .unchanged hrows fun h => absurd h haccepts

theorem follows_apply (hstored : store.Stored) (hrows : RowsTraded store) (op : Op) :
    Follows store (store.apply op) (KeepsPnl store op) := by
  cases op with
  | executeTrade signalId symbol side entryPrice quantity =>
    exact follows_trade hstored hrows (fun h => opens_executeTrade h)
      (Store.apply_executeTrade signalId).rejected rfl
  | executeSessionTrade sessionId signalId symbol side entryPrice quantity =>
    exact follows_trade hstored hrows (fun h => opens_executeSessionTrade h)
      (Store.apply_executeSessionTrade sessionId signalId).rejected rfl
  | closeTrade tradeId exitPrice =>
    rcases closes_closeTrade store tradeId exitPrice with ⟨trade, hcloses⟩ | ⟨hnone, hsame⟩
    · have hkeeps : KeepsPnl store (.closeTrade tradeId exitPrice) ↔
          CloseKeeps (store.portfolio trade.symbol) trade
            (openOf (store.trades.eraseIdx tradeId) trade.symbol) := by
        simp only [KeepsPnl, hcloses.found, Option.some.injEq, forall_eq', hcloses.opened,
          true_implies]
      rw [hkeeps]
      exact ⟨hcloses.traded hrows, hcloses.agrees_iff hstored hrows,
        hcloses.readable hstored hrows⟩
    · rw [hsame]
      exact .unchanged hrows fun trade htrade hopened => absurd hopened (hnone trade htrade)

end

/-- In every state reached the service reports the PnL of the open trades, exactly if the
rows follow every operation of the run. -/
theorem run_agrees_iff (signals : String → Bool) (sessions : String → Option Session)
    (ops : List Op) :
    (∀ reached, reached <+: ops →
        Agrees (reached.foldl Store.apply (.empty signals sessions))) ↔
      ∀ earlier op, earlier ++ [op] <+: ops →
        KeepsPnl (earlier.foldl Store.apply (.empty signals sessions)) op := by
  have hstored : (Store.empty signals sessions).Stored := by
    constructor
    · rintro symbol row ⟨⟩
    · rintro trade ⟨⟩
  have hrows : RowsTraded (.empty signals sessions) := by
    rintro symbol row ⟨⟩
  have hreadable : Readable (.empty signals sessions) := by
    intro symbol
    refine ⟨le_rfl, fun hpos => absurd hpos (lt_irrefl _), ?_, rfl, zero_mul _⟩
    rintro trade ⟨⟩
  -- an empty store is readable, and what is readable agrees
  rw [forall_reached_iff Store.apply (readable_agrees hrows hreadable)]
  refine @forall_prefix_iff _ _ Store.apply (fun store => store.Stored ∧ RowsTraded store)
    Readable (fun store op => Agrees (store.apply op)) KeepsPnl ?_ ?_ ?_ _ ⟨hstored, hrows⟩
    hreadable ops
  · rintro store op ⟨hstored, hrows⟩
    exact ⟨hstored.apply op, (follows_apply hstored hrows op).traded⟩
  · rintro store op ⟨hstored, hrows⟩ hreadable
    exact (follows_apply hstored hrows op).agrees_iff hreadable
  · rintro store op ⟨hstored, hrows⟩ hreadable hagrees
    have hfollows := follows_apply hstored hrows op
    exact hfollows.readable hreadable ((hfollows.agrees_iff hreadable).mp hagrees)

/-- A row that is sold in part is reported short: at 120, a loss of 20 where the open trades
have gained 30. -/
theorem partialSell_not_agrees :
    ¬ Agrees ([Op.executeTrade "signal" "BTC/USD" .buy 100 2,
      .executeTrade "signal" "BTC/USD" .sell 110 1].foldl Store.apply
        (.empty (fun _ => true) fun _ => none)) := by
  intro hagrees
  have hreport := (hagrees (fun _ => some 120) 0 10000).1
  revert hreport
  decide +kernel

end TradeStream.PaperTrading.PortfolioState
