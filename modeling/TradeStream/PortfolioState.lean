import TradeStream.PortfolioBalance

/-! The portfolio state service: positions and balance as it computes them from the rows
of the portfolio and the open trades, and what the open trades themselves come to. Columns
that the computation does not read, and the times, are left out: trades stand in the order
in which they were opened. -/
namespace TradeStream.PaperTrading.PortfolioState
open TradeStream.RoundDecimal

/-- A row of `get_positions`. -/
structure PositionRow where
  symbol : String
  quantity : ℚ
  avgEntryPrice : ℚ

/-- A row of `get_open_trades`. -/
structure OpenTrade where
  tradeId : ℕ
  signalId : Option String
  symbol : String
  side : Side
  entryPrice : ℚ
  quantity : ℚ

inductive Direction where
  | long
  | short
  deriving DecidableEq, Repr

structure Position where
  symbol : String
  side : Direction
  quantity : ℚ
  entryPrice : ℚ
  currentPrice : ℚ
  unrealizedPnl : ℚ
  unrealizedPnlPercent : ℚ
  tradeId : Option ℕ

structure AccountBalance where
  totalEquity : ℚ
  availableCash : ℚ
  buyingPower : ℚ
  marginUsed : ℚ
  marginAvailable : ℚ
  unrealizedPnl : ℚ
  realizedPnlToday : ℚ

/-- The symbols of the ledger. No row of the portfolio has another one. -/
def symbols (store : Store) : List String :=
  (store.trades.map PaperTrade.symbol).dedup.insertionSort (· ≤ ·)

/-- `get_positions`: the rows of a positive quantity, by symbol. -/
def getPositions (store : Store) : List PositionRow :=
  (symbols store).filterMap fun symbol =>
    (store.portfolio symbol).bind fun row =>
      if 0 < row.quantity then some ⟨symbol, row.quantity, row.avgEntryPrice⟩ else none

/-- `get_open_trades`: the latest first. -/
def getOpenTrades (store : Store) : List OpenTrade :=
  ((store.trades.zipIdx.filter fun (trade, _) => trade.status = .opened).map
    fun (trade, i) => ⟨i, trade.signalId, trade.symbol, trade.side, trade.entryPrice,
      trade.quantity⟩).reverse

/-- `get_total_realized_pnl`. -/
def getTotalRealizedPnl (store : Store) : ℚ :=
  ((store.trades.filter fun trade => trade.status = .closed).map
    fun trade => trade.pnl.getD 0).sum

section
variable (rounding : ℕ → ℚ → ℚ)

/-- One position of `compute_positions`, whose side is that of one open trade. -/
def computePosition (openTrades : List OpenTrade) (currentPrices : String → Option ℚ)
    (row : PositionRow) : Position :=
  let currentPrice := (currentPrices row.symbol).getD row.avgEntryPrice
  let tradeInfo := openTrades.find? fun trade => trade.symbol = row.symbol
  let side := (tradeInfo.map OpenTrade.side).getD .buy
  let gain :=
    match side with
    | .buy => currentPrice - row.avgEntryPrice
    | .sell => row.avgEntryPrice - currentPrice
  { symbol := row.symbol
    side := if side = .buy then .long else .short
    quantity := row.quantity
    entryPrice := row.avgEntryPrice
    currentPrice := currentPrice
    unrealizedPnl := rounding 8 (row.quantity * gain)
    unrealizedPnlPercent :=
      rounding 2 (if 0 < row.avgEntryPrice then gain / row.avgEntryPrice * 100 else 0)
    tradeId := tradeInfo.map OpenTrade.tradeId }

/-- `compute_positions`, where `round` is `rounding`. -/
def computePositions (portfolioRows : List PositionRow) (openTrades : List OpenTrade)
    (currentPrices : String → Option ℚ) : List Position :=
  portfolioRows.map (computePosition rounding openTrades currentPrices)

/-- `compute_balance`. -/
def computeBalance (positions : List Position)
    (realizedPnlToday totalRealizedPnl initialCapital : ℚ) : AccountBalance :=
  let totalUnrealized := (positions.map Position.unrealizedPnl).sum
  let marginUsed := (positions.map fun p => p.quantity * p.entryPrice).sum
  let totalEquity := initialCapital + totalRealizedPnl + totalUnrealized
  let availableCash := totalEquity - marginUsed
  { totalEquity := rounding 2 totalEquity
    availableCash := rounding 2 availableCash
    buyingPower := rounding 2 (max 0 availableCash)
    marginUsed := rounding 2 marginUsed
    marginAvailable := rounding 2 (max 0 (totalEquity - marginUsed))
    unrealizedPnl := rounding 2 totalUnrealized
    realizedPnlToday := rounding 2 realizedPnlToday }

/-- The balance that the service computes. -/
def balance (store : Store) (currentPrices : String → Option ℚ)
    (realizedPnlToday initialCapital : ℚ) : AccountBalance :=
  computeBalance rounding
    (computePositions rounding (getPositions store) (getOpenTrades store) currentPrices)
    realizedPnlToday (getTotalRealizedPnl store) initialCapital

end

/-- No rounding: the numbers before it. -/
def exactly : ℕ → ℚ → ℚ := fun _ x => x

/-- What an open trade has gained. Without a price it counts at its entry price, as the
service counts a position. -/
def tradeGain (currentPrices : String → Option ℚ) (trade : PaperTrade) : ℚ :=
  let currentPrice := (currentPrices trade.symbol).getD trade.entryPrice
  match trade.side with
  | .buy => trade.quantity * (currentPrice - trade.entryPrice)
  | .sell => trade.quantity * (trade.entryPrice - currentPrice)

/-- What all the open trades have gained. -/
def openGain (store : Store) (currentPrices : String → Option ℚ) : ℚ :=
  ((store.trades.filter fun trade => trade.status = .opened).map (tradeGain currentPrices)).sum

/-- The service reports, before it rounds, what the ledger says. -/
def Agrees (store : Store) : Prop :=
  ∀ (currentPrices : String → Option ℚ) (realizedPnlToday initialCapital : ℚ),
    let reported := balance exactly store currentPrices realizedPnlToday initialCapital
    reported.unrealizedPnl = openGain store currentPrices ∧
      reported.totalEquity =
        initialCapital + getTotalRealizedPnl store + openGain store currentPrices

/-! ### One symbol -/

/-- The open trades of a symbol. -/
def openOf (trades : List PaperTrade) (symbol : String) : List PaperTrade :=
  trades.filter fun trade => trade.symbol = symbol ∧ trade.status = .opened

def signedQuantity (trade : PaperTrade) : ℚ := signed trade.side trade.quantity

def signedCost (trade : PaperTrade) : ℚ :=
  signed trade.side (trade.quantity * trade.entryPrice)

/-- The quantity that the service takes a row to hold: against the symbol if its last open
trade is a SELL. -/
def heldQuantity (row : Option PortfolioRow) (trades : List PaperTrade) : ℚ :=
  if 0 < rowQuantity row then
    signed ((trades.getLast?.map PaperTrade.side).getD .buy) (rowQuantity row)
  else 0

def avgPrice (row : Option PortfolioRow) : ℚ := (row.map PortfolioRow.avgEntryPrice).getD 0

/-- A row holds the quantity of the open trades, at their cost. -/
structure Matches (row : Option PortfolioRow) (trades : List PaperTrade) : Prop where
  quantity : heldQuantity row trades = (trades.map signedQuantity).sum
  cost : heldQuantity row trades * avgPrice row = (trades.map signedCost).sum

/-- The side that the service finds is that of the last open trade. -/
theorem find_getOpenTrades (store : Store) (symbol : String) :
    ((getOpenTrades store).find? fun trade => trade.symbol = symbol).map OpenTrade.side =
      (openOf store.trades symbol).getLast?.map PaperTrade.side := by
  have hopen : openOf store.trades symbol = ((store.trades.zipIdx.filter fun entry =>
      entry.1.status = .opened).filter fun entry => entry.1.symbol = symbol).map Prod.fst := by
    rw [List.filter_filter]
    conv_lhs => rw [openOf, ← List.zipIdx_map_fst 0 store.trades, List.filter_map]
    simp only [Function.comp_def, Bool.decide_and]
  rw [hopen, ← List.head?_filter, getOpenTrades, List.filter_reverse, List.head?_reverse,
    List.filter_map, List.getLast?_map, List.getLast?_map, Option.map_map, Option.map_map]
  rfl

/-! ### Sums over the symbols -/

theorem sum_map_filterMap {α β : Type*} (f : α → Option β) (g : β → ℚ) (l : List α) :
    ((l.filterMap f).map g).sum = (l.map fun a => ((f a).map g).getD 0).sum := by
  induction l with
  | nil => rfl
  | cons a l ih =>
    rw [List.filterMap_cons]
    cases hf : f a with
    | none => simp [hf, ih]
    | some b => simp [hf, ih]

theorem sum_symbols (store : Store) (f : String → ℚ) :
    ((symbols store).map f).sum = ∑ x ∈ (store.trades.map PaperTrade.symbol).toFinset, f x := by
  have hperm := (List.perm_insertionSort (· ≤ ·)
    (store.trades.map PaperTrade.symbol).dedup).map f
  have hset : (store.trades.map PaperTrade.symbol).toFinset =
      (store.trades.map PaperTrade.symbol).dedup.toFinset := by
    ext x
    simp
  rw [symbols, hperm.sum_eq, hset, List.sum_toFinset f (List.nodup_dedup _)]

/-- The open trades, symbol by symbol. -/
theorem sum_openOf (trades : List PaperTrade) (f : PaperTrade → ℚ) (known : Finset String)
    (hknown : ∀ trade ∈ trades, trade.symbol ∈ known) :
    ((trades.filter fun trade => trade.status = .opened).map f).sum =
      ∑ x ∈ known, ((openOf trades x).map f).sum := by
  induction trades with
  | nil => simp [openOf]
  | cons trade rest ih =>
    obtain ⟨htrade, hrest⟩ := List.forall_mem_cons.mp hknown
    have hcons (x : String) : ((openOf (trade :: rest) x).map f).sum =
        (if trade.symbol = x then if trade.status = .opened then f trade else 0 else 0) +
          ((openOf rest x).map f).sum := by
      rw [openOf, List.filter_cons]
      split_ifs <;> simp_all [openOf]
    simp only [hcons, Finset.sum_add_distrib, Finset.sum_ite_eq, htrade, if_true, ← ih hrest]
    rw [List.filter_cons]
    split_ifs <;> simp_all

/-- What a position contributes, before rounding. -/
theorem unrealized_eq (store : Store) (currentPrices : String → Option ℚ) :
    (balance exactly store currentPrices 0 0).unrealizedPnl =
      ∑ x ∈ (store.trades.map PaperTrade.symbol).toFinset,
        heldQuantity (store.portfolio x) (openOf store.trades x) *
          ((currentPrices x).getD (avgPrice (store.portfolio x)) - avgPrice (store.portfolio x))
    := by
  rw [← sum_symbols, balance, computeBalance, computePositions, getPositions]
  simp only [exactly, List.map_map, sum_map_filterMap]
  congr 1
  -- symbol by symbol; one without a row, or with an empty one, holds nothing
  refine List.map_congr_left fun x _ => ?_
  cases hrow : store.portfolio x with
  | none => simp [heldQuantity, rowQuantity]
  | some row =>
    simp only [Option.bind_some, heldQuantity, rowQuantity, Option.map_some, Option.getD_some,
      avgPrice]
    by_cases hpos : 0 < row.quantity
    · simp only [hpos, ↓reduceIte, Option.map_some, Option.getD_some, Function.comp_def,
        computePosition, find_getOpenTrades, exactly]
      cases ((openOf store.trades x).getLast?.map PaperTrade.side).getD .buy with
      | buy => rfl
      | sell =>
        simp only [signed]
        ring
    · simp [hpos]

/-- What the open trades of a symbol have gained at a price. -/
theorem sum_tradeGain (currentPrices : String → Option ℚ) (trades : List PaperTrade)
    (symbol : String) :
    ((openOf trades symbol).map (tradeGain currentPrices)).sum =
      ((currentPrices symbol).map fun price =>
        ((openOf trades symbol).map signedQuantity).sum * price -
          ((openOf trades symbol).map signedCost).sum).getD 0 := by
  have hgain : ∀ trade ∈ openOf trades symbol, tradeGain currentPrices trade =
      ((currentPrices symbol).map fun price =>
        signedQuantity trade * price - signedCost trade).getD 0 := by
    intro trade htrade
    have hsymbol : trade.symbol = symbol := by
      have hfilter := (List.mem_filter.mp htrade).2
      simp only [decide_eq_true_eq] at hfilter
      exact hfilter.1
    rw [tradeGain, hsymbol]
    cases currentPrices symbol with
    | none => cases trade.side <;> simp
    | some price =>
      cases hside : trade.side with
      | buy =>
        simp only [signedQuantity, signedCost, signed, hside, Option.getD_some, Option.map_some]
        ring
      | sell =>
        simp only [signedQuantity, signedCost, signed, hside, Option.getD_some, Option.map_some]
        ring
  rw [List.map_congr_left hgain]
  -- a symbol without a price has no gain
  cases currentPrices symbol with
  | none => simp
  | some price =>
    simp only [Option.map_some, Option.getD_some]
    induction openOf trades symbol with
    | nil => simp
    | cons trade rest ih =>
      simp only [List.map_cons, List.sum_cons, ih]
      ring

/-- What all the open trades have gained, symbol by symbol. -/
theorem openGain_eq (store : Store) (currentPrices : String → Option ℚ) :
    openGain store currentPrices =
      ∑ x ∈ (store.trades.map PaperTrade.symbol).toFinset,
        ((currentPrices x).map fun price =>
          ((openOf store.trades x).map signedQuantity).sum * price -
            ((openOf store.trades x).map signedCost).sum).getD 0 := by
  rw [openGain, sum_openOf store.trades (tradeGain currentPrices)
    (store.trades.map PaperTrade.symbol).toFinset
    fun trade htrade => List.mem_toFinset.mpr (List.mem_map_of_mem htrade)]
  simp only [sum_tradeGain]

/-- A symbol with trades: the prices 0 and 1, of it alone, show its row. -/
theorem Agrees.matches_of_mem {store : Store} (hagrees : Agrees store) {symbol : String}
    (hknown : symbol ∈ (store.trades.map PaperTrade.symbol).toFinset) :
    Matches (store.portfolio symbol) (openOf store.trades symbol) := by
  have hprice (price : ℚ) : heldQuantity (store.portfolio symbol)
      (openOf store.trades symbol) * (price - avgPrice (store.portfolio symbol)) =
        ((openOf store.trades symbol).map signedQuantity).sum * price -
          ((openOf store.trades symbol).map signedCost).sum := by
    have hreport := (hagrees (fun x => if x = symbol then some price else none) 0 0).1
    rw [unrealized_eq, openGain_eq, Finset.sum_eq_single_of_mem symbol hknown,
      Finset.sum_eq_single_of_mem symbol hknown] at hreport
    · simpa using hreport
    · intro x _ hx
      simp [hx]
    · intro x _ hx
      simp [hx]
  have hzero := hprice 0
  have hone := hprice 1
  constructor
  · linarith
  · linarith

/-- A symbol without trades has no row. -/
theorem matches_of_notMem {store : Store}
    (hrows : ∀ symbol row, store.portfolio symbol = some row →
      ∃ trade ∈ store.trades, trade.symbol = symbol) {symbol : String}
    (hknown : symbol ∉ (store.trades.map PaperTrade.symbol).toFinset) :
    Matches (store.portfolio symbol) (openOf store.trades symbol) := by
  have hne : ∀ trade ∈ store.trades, trade.symbol ≠ symbol := by
    rintro trade htrade rfl
    exact hknown (List.mem_toFinset.mpr (List.mem_map_of_mem htrade))
  have hnone : openOf store.trades symbol = [] := by
    apply List.filter_eq_nil_iff.mpr
    intro trade htrade
    simp [hne trade htrade]
  have hrow : store.portfolio symbol = none := by
    apply Option.eq_none_iff_forall_ne_some.mpr
    intro row hrow
    obtain ⟨trade, htrade, hsymbol⟩ := hrows symbol row hrow
    exact hne trade htrade hsymbol
  rw [hnone, hrow]
  constructor <;> simp [heldQuantity, rowQuantity]

theorem agrees_of_matches {store : Store}
    (hmatches : ∀ symbol, Matches (store.portfolio symbol) (openOf store.trades symbol)) :
    Agrees store := by
  intro currentPrices realizedPnlToday initialCapital
  have hreport : (balance exactly store currentPrices 0 0).unrealizedPnl =
      openGain store currentPrices := by
    rw [unrealized_eq, openGain_eq]
    apply Finset.sum_congr rfl
    intro x _
    cases currentPrices x with
    | none => simp
    | some price =>
      rw [Option.getD_some, Option.map_some, Option.getD_some, mul_sub, (hmatches x).cost,
        (hmatches x).quantity]
  refine ⟨hreport, ?_⟩
  rw [← hreport]
  rfl

/-- The report agrees with the ledger at all prices exactly if each row matches the open
trades of its symbol. -/
theorem agrees_iff {store : Store}
    (hrows : ∀ symbol row, store.portfolio symbol = some row →
      ∃ trade ∈ store.trades, trade.symbol = symbol) :
    Agrees store ↔
      ∀ symbol, Matches (store.portfolio symbol) (openOf store.trades symbol) := by
  refine ⟨?_, agrees_of_matches⟩
  intro hagrees symbol
  by_cases hknown : symbol ∈ (store.trades.map PaperTrade.symbol).toFinset
  · exact hagrees.matches_of_mem hknown
  · exact matches_of_notMem hrows hknown

end TradeStream.PaperTrading.PortfolioState
