import Mathlib

/-! The positions of the portfolio API, trade by trade, against the trades that opened
them. -/
namespace TradeStream.PositionAccounting

inductive TradeSide where
  | buy
  | sell
  deriving DecidableEq

inductive PositionSide where
  | long
  | short
  deriving DecidableEq

/-- The body of a trade event, with what its model asks of the numbers. -/
structure TradeEvent where
  side : TradeSide
  quantity : ℚ
  price : ℚ
  quantity_pos : 0 < quantity
  price_pos : 0 < price

/-- The row of `paper_portfolio` of a symbol. -/
structure PortfolioRow where
  quantity : ℚ
  avgEntryPrice : ℚ
  unrealizedPnl : ℚ
  side : PositionSide
  deriving DecidableEq

def increasesPosition (side : PositionSide) (tradeSide : TradeSide) : Bool :=
  match side, tradeSide with
  | .long, .buy => true
  | .short, .sell => true
  | _, _ => false

def PositionSide.opposite : PositionSide → PositionSide
  | .long => .short
  | .short => .long

def TradeSide.opens : TradeSide → PositionSide
  | .buy => .long
  | .sell => .short

/-- `_update_position_from_trade`. -/
def updatePositionFromTrade (existing : Option PortfolioRow) (event : TradeEvent) : PortfolioRow :=
  match existing with
  | none => ⟨event.quantity, event.price, 0, event.side.opens⟩
  | some row =>
    if increasesPosition row.side event.side then
      let newQty := row.quantity + event.quantity
      { row with
        quantity := newQty
        avgEntryPrice :=
          (row.avgEntryPrice * row.quantity + event.price * event.quantity) / newQty }
    else if event.quantity ≥ row.quantity then
      let remaining := event.quantity - row.quantity
      if remaining > 0 then ⟨remaining, event.price, 0, row.side.opposite⟩
      -- the side and the average of a closed position stay in the row
      else { row with quantity := 0, unrealizedPnl := 0 }
    else { row with quantity := row.quantity - event.quantity }

def handleTradeEvent (existing : Option PortfolioRow) (event : TradeEvent) : Option PortfolioRow :=
  some (updatePositionFromTrade existing event)

/-- The row after a sequence of trades on a symbol with no position. -/
def rowAfter (events : List TradeEvent) : Option PortfolioRow := events.foldl handleTradeEvent none

def TradeSide.sign : TradeSide → ℚ
  | .buy => 1
  | .sell => -1

def PositionSide.sign : PositionSide → ℚ
  | .long => 1
  | .short => -1

def TradeEvent.signed (event : TradeEvent) : ℚ := event.side.sign * event.quantity

def PortfolioRow.signed (row : PortfolioRow) : ℚ := row.side.sign * row.quantity

/-- An opening trade: how much of the position it stands for, and its price. -/
structure Lot where
  quantity : ℚ
  price : ℚ
  deriving DecidableEq

def total (lots : List Lot) : ℚ := (lots.map Lot.quantity).sum

def worth (lots : List Lot) : ℚ := (lots.map fun lot => lot.quantity * lot.price).sum

/-- The mean price of the lots, weighted with their quantities. -/
def averageCost (lots : List Lot) : ℚ := worth lots / total lots

/-- A position, and the trades that have opened it since it was last flat or changed
side. -/
structure Book where
  position : ℚ
  lots : List Lot
  deriving DecidableEq

/-- A book takes a trade. `reduce` says what becomes of a lot when a trade the other way
leaves the given fraction of the position. -/
def Book.take (reduce : ℚ → Lot → Lot) (book : Book) (event : TradeEvent) : Book :=
  let position := book.position + event.signed
  if book.position = 0 then ⟨position, [⟨event.quantity, event.price⟩]⟩
  else if 0 < book.position * event.signed then
    ⟨position, book.lots ++ [⟨event.quantity, event.price⟩]⟩
  else if position = 0 then ⟨0, []⟩
  else if 0 < book.position * position then
    ⟨position, book.lots.map (reduce (position / book.position))⟩
  -- the trade that changes the side opens the remainder at its own price
  else ⟨position, [⟨|position|, event.price⟩]⟩

def reference (reduce : ℚ → Lot → Lot) (events : List TradeEvent) : Book :=
  events.foldl (Book.take reduce) ⟨0, []⟩

/-- A reduction leaves the opening trades as they were. -/
def whole (_ : ℚ) (lot : Lot) : Lot := lot

/-- A reduction takes the same fraction of every opening trade. -/
def proRata (left : ℚ) (lot : Lot) : Lot := { lot with quantity := lot.quantity * left }

/-- The row against the trades, after a sequence of them. -/
structure Accounts (reduce : ℚ → Lot → Lot) (events : List TradeEvent) (row : PortfolioRow) :
    Prop where
  nonneg : 0 ≤ row.quantity
  signed : row.signed = (events.map TradeEvent.signed).sum
  average : row.signed ≠ 0 → row.avgEntryPrice = averageCost (reference reduce events).lots

theorem position_take (reduce : ℚ → Lot → Lot) (book : Book) (event : TradeEvent) :
    (book.take reduce event).position = book.position + event.signed := by
  simp only [Book.take]
  by_cases hzero : book.position + event.signed = 0
  · simp only [hzero, ↓reduceIte]
    split_ifs <;> rfl
  · simp only [hzero, ↓reduceIte]
    split_ifs <;> rfl

theorem position_reference (reduce : ℚ → Lot → Lot) (events : List TradeEvent) :
    (reference reduce events).position = (events.map TradeEvent.signed).sum := by
  induction events using List.reverseRecOn with
  | nil => rfl
  | append_singleton events event ih =>
    rw [reference, List.foldl_append, List.foldl_cons, List.foldl_nil, position_take,
      ← reference, ih, List.map_append, List.sum_append]
    simp

@[simp] theorem total_append (lots lots' : List Lot) :
    total (lots ++ lots') = total lots + total lots' := by
  simp [total]

@[simp] theorem worth_append (lots lots' : List Lot) :
    worth (lots ++ lots') = worth lots + worth lots' := by
  simp [worth]

@[simp] theorem total_singleton (lot : Lot) : total [lot] = lot.quantity := by
  simp [total]

@[simp] theorem worth_singleton (lot : Lot) : worth [lot] = lot.quantity * lot.price := by
  simp [worth]

theorem total_map_proRata (left : ℚ) (lots : List Lot) :
    total (lots.map (proRata left)) = total lots * left := by
  induction lots with
  | nil => simp [total]
  | cons lot lots ih =>
    simp only [total, List.map_cons, List.sum_cons, proRata] at ih ⊢
    rw [ih, add_mul]

theorem worth_map_proRata (left : ℚ) (lots : List Lot) :
    worth (lots.map (proRata left)) = worth lots * left := by
  induction lots with
  | nil => simp [worth]
  | cons lot lots ih =>
    simp only [worth, List.map_cons, List.sum_cons, proRata] at ih ⊢
    rw [ih, add_mul]
    ring

/-- A row and the book that it stands for. -/
structure Matches (row : PortfolioRow) (book : Book) : Prop where
  nonneg : 0 ≤ row.quantity
  signed : row.signed = book.position
  total : book.position ≠ 0 → total book.lots = row.quantity
  worth : book.position ≠ 0 → worth book.lots = row.avgEntryPrice * row.quantity

theorem PositionSide.sign_ne_zero (side : PositionSide) : side.sign ≠ 0 := by
  cases side <;> norm_num [PositionSide.sign]

theorem PositionSide.sign_mul_self (side : PositionSide) : side.sign * side.sign = 1 := by
  cases side <;> norm_num [PositionSide.sign]

theorem PositionSide.sign_opposite (side : PositionSide) : side.opposite.sign = -side.sign := by
  cases side <;> norm_num [PositionSide.sign, PositionSide.opposite]

theorem TradeSide.sign_opens (side : TradeSide) : side.opens.sign = side.sign := by
  cases side <;> rfl

theorem sign_eq_of_increases {side : PositionSide} {tradeSide : TradeSide}
    (h : increasesPosition side tradeSide = true) : tradeSide.sign = side.sign := by
  cases side <;> cases tradeSide <;> first | rfl | cases h

theorem sign_eq_of_not_increases {side : PositionSide} {tradeSide : TradeSide}
    (h : ¬ increasesPosition side tradeSide = true) : tradeSide.sign = -side.sign := by
  cases side <;> cases tradeSide <;>
    first | exact absurd rfl h | norm_num [TradeSide.sign, PositionSide.sign]

theorem signed_eq_zero_iff (row : PortfolioRow) : row.signed = 0 ↔ row.quantity = 0 := by
  rw [PortfolioRow.signed, mul_eq_zero]
  exact or_iff_right row.side.sign_ne_zero

/-- The row of a position that the trade opens, from nothing or from the other side. -/
theorem matches_opened {side : PositionSide} {quantity : ℚ} (price pnl : ℚ) (hpos : 0 < quantity)
    {position : ℚ} (hposition : side.sign * quantity = position) :
    Matches ⟨quantity, price, pnl, side⟩ ⟨position, [⟨quantity, price⟩]⟩ where
  nonneg := hpos.le
  signed := hposition
  total _ := total_singleton _
  worth _ := by rw [worth_singleton, mul_comm]

theorem matches_first (event : TradeEvent) :
    Matches (updatePositionFromTrade none event) (Book.take proRata ⟨0, []⟩ event) := by
  have hsigned : event.side.opens.sign * event.quantity = 0 + event.signed := by
    rw [TradeSide.sign_opens, zero_add, TradeEvent.signed]
  simpa [updatePositionFromTrade, Book.take] using
    matches_opened event.price 0 event.quantity_pos hsigned

section
variable {row : PortfolioRow} {book : Book}

theorem Matches.quantity_eq_zero (h : Matches row book) (hflat : book.position = 0) :
    row.quantity = 0 := by
  rw [← signed_eq_zero_iff, h.signed, hflat]

theorem Matches.quantity_pos (h : Matches row book) (hopen : book.position ≠ 0) :
    0 < row.quantity := by
  have hne : row.quantity ≠ 0 := by
    rw [Ne, ← signed_eq_zero_iff, h.signed]
    exact hopen
  exact lt_of_le_of_ne h.nonneg (Ne.symm hne)

/-- The product of two positions on the row's side is the product of their sizes. -/
theorem PositionSide.mul_signed (side : PositionSide) (quantity quantity' : ℚ) :
    side.sign * quantity * (side.sign * quantity') = quantity * quantity' := by
  calc
    side.sign * quantity * (side.sign * quantity') =
        side.sign * side.sign * (quantity * quantity') := by ring
    _ = quantity * quantity' := by rw [side.sign_mul_self, one_mul]

/-- What a trade against the row leaves, on the row's own side. -/
theorem Matches.position_add (h : Matches row book) {event : TradeEvent}
    (hincreases : ¬ increasesPosition row.side event.side = true) :
    book.position + event.signed = row.side.sign * (row.quantity - event.quantity) := by
  rw [← h.signed, PortfolioRow.signed, TradeEvent.signed, sign_eq_of_not_increases hincreases]
  ring

theorem Matches.mul_position_add (h : Matches row book) {event : TradeEvent}
    (hincreases : ¬ increasesPosition row.side event.side = true) :
    book.position * (book.position + event.signed) =
      row.quantity * (row.quantity - event.quantity) := by
  rw [h.position_add hincreases, ← h.signed, PortfolioRow.signed, PositionSide.mul_signed]

/-- A trade against an open row is against the position of the book. -/
theorem Matches.not_same_side (h : Matches row book) (hopen : book.position ≠ 0)
    {event : TradeEvent} (hincreases : ¬ increasesPosition row.side event.side = true) :
    ¬ 0 < book.position * event.signed := by
  have hneg : book.position * event.signed = -(row.quantity * event.quantity) := by
    rw [← h.signed, PortfolioRow.signed, TradeEvent.signed, sign_eq_of_not_increases hincreases,
      neg_mul, mul_neg, PositionSide.mul_signed]
  rw [hneg, Left.neg_pos_iff]
  exact (mul_pos (h.quantity_pos hopen) event.quantity_pos).not_gt

/-- Taking the same part of every lot leaves that part of the row at the same average. -/
theorem Matches.keeps_part (h : Matches row book) (hopen : book.position ≠ 0)
    {left pnl position : ℚ} (hleft : 0 ≤ left) (hsigned : row.side.sign * left = position) :
    Matches ⟨left, row.avgEntryPrice, pnl, row.side⟩
      ⟨position, book.lots.map (proRata (position / book.position))⟩ := by
  have hfraction : row.quantity * (position / book.position) = left := by
    rw [← hsigned, ← h.signed, PortfolioRow.signed,
      mul_div_mul_left _ _ row.side.sign_ne_zero, mul_div_cancel₀ _ (h.quantity_pos hopen).ne']
  refine ⟨hleft, hsigned, ?_, ?_⟩
  · intro _
    rw [total_map_proRata, h.total hopen, hfraction]
  · intro _
    rw [worth_map_proRata, h.worth hopen, mul_assoc, hfraction]

theorem matches_closed (side : PositionSide) (price pnl : ℚ) :
    Matches ⟨0, price, pnl, side⟩ ⟨0, []⟩ := by
  refine ⟨le_rfl, ?_, ?_, ?_⟩
  · rw [PortfolioRow.signed, mul_zero]
  · intro hne
    exact absurd rfl hne
  · intro hne
    exact absurd rfl hne

theorem matches_increase (h : Matches row book) (event : TradeEvent)
    (hincreases : increasesPosition row.side event.side = true) :
    Matches (updatePositionFromTrade (some row) event) (book.take proRata event) := by
  have hsign := sign_eq_of_increases hincreases
  have hq := event.quantity_pos
  have hnew : 0 < row.quantity + event.quantity := add_pos_of_nonneg_of_pos h.nonneg hq
  have hsigned : row.side.sign * (row.quantity + event.quantity) =
      book.position + event.signed := by
    rw [← h.signed, TradeEvent.signed, PortfolioRow.signed, hsign]
    ring
  simp only [updatePositionFromTrade, hincreases, ↓reduceIte]
  by_cases hflat : book.position = 0
  · -- the closed row has nothing left, so that the old average does not count
    have hzero := h.quantity_eq_zero hflat
    have hopened := matches_opened event.price row.unrealizedPnl hnew hsigned
    have havg : (row.avgEntryPrice * row.quantity + event.price * event.quantity) /
        (row.quantity + event.quantity) = event.price := by
      rw [hzero, mul_zero, zero_add, zero_add, mul_div_assoc, div_self hq.ne', mul_one]
    rw [Book.take, if_pos hflat, havg]
    simpa [hzero] using hopened
  · have hsame : 0 < book.position * event.signed := by
      rw [← h.signed, PortfolioRow.signed, TradeEvent.signed, hsign, PositionSide.mul_signed]
      exact mul_pos (h.quantity_pos hflat) hq
    rw [Book.take, if_neg hflat, if_pos hsame]
    refine ⟨hnew.le, hsigned, ?_, ?_⟩
    · intro _
      rw [total_append, total_singleton, h.total hflat]
    · intro _
      rw [worth_append, worth_singleton, h.worth hflat, div_mul_cancel₀ _ hnew.ne']
      ring

theorem matches_decrease (h : Matches row book) (event : TradeEvent)
    (hincreases : ¬ increasesPosition row.side event.side = true) :
    Matches (updatePositionFromTrade (some row) event) (book.take proRata event) := by
  have hleft := h.position_add hincreases
  have hother : row.side.opposite.sign * (event.quantity - row.quantity) =
      book.position + event.signed := by
    rw [hleft, PositionSide.sign_opposite]
    ring
  simp only [updatePositionFromTrade, hincreases, Bool.false_eq_true, ↓reduceIte, ge_iff_le,
    gt_iff_lt]
  by_cases hflat : book.position = 0
  · -- the closed row opens again on the other side
    have hzero := h.quantity_eq_zero hflat
    have hremaining : 0 < event.quantity - row.quantity := by
      rw [hzero, sub_zero]
      exact event.quantity_pos
    rw [if_pos (by linarith), if_pos hremaining, Book.take, if_pos hflat]
    have hopened := matches_opened event.price 0 hremaining hother
    simpa [hzero] using hopened
  · have hpos := h.quantity_pos hflat
    have hproduct := h.mul_position_add hincreases
    rw [Book.take, if_neg hflat, if_neg (h.not_same_side hflat hincreases)]
    rcases lt_trichotomy event.quantity row.quantity with hlt | heq | hgt
    · -- part of the position stays, and the same part of every lot
      have hstays : 0 < book.position * (book.position + event.signed) := by
        rw [hproduct]
        exact mul_pos hpos (by linarith)
      have hne : book.position + event.signed ≠ 0 := right_ne_zero_of_mul hstays.ne'
      rw [if_neg (by linarith), if_neg hne, if_pos hstays]
      exact h.keeps_part hflat (by linarith) hleft.symm
    · have hzero : book.position + event.signed = 0 := by
        rw [hleft, heq, sub_self, mul_zero]
      rw [if_pos (by linarith), if_neg (by linarith), if_pos hzero]
      exact matches_closed _ _ _
    · -- what is left of the trade opens the other side
      have hremaining : 0 < event.quantity - row.quantity := by linarith
      have hprod := mul_pos hpos hremaining
      have hne : book.position + event.signed ≠ 0 := by
        rw [← hother]
        exact mul_ne_zero row.side.opposite.sign_ne_zero hremaining.ne'
      have hflips : ¬ 0 < book.position * (book.position + event.signed) := by
        rw [hproduct]
        linarith
      have habs : |book.position + event.signed| = event.quantity - row.quantity := by
        rw [← hother, abs_mul, abs_of_pos hremaining]
        cases row.side <;> simp [PositionSide.opposite, PositionSide.sign]
      rw [if_pos hgt.le, if_pos hremaining, if_neg hne, if_neg hflips, habs]
      exact matches_opened _ _ hremaining hother

end

/-- After any trades there is a row, and it matches the book of the trades. -/
theorem matches_rowAfter (events : List TradeEvent) (hne : events ≠ []) :
    ∃ row, rowAfter events = some row ∧ Matches row (reference proRata events) := by
  induction events using List.reverseRecOn with
  | nil => exact absurd rfl hne
  | append_singleton events event ih =>
    rw [rowAfter, List.foldl_append, reference, List.foldl_append]
    refine ⟨_, rfl, ?_⟩
    by_cases hfirst : events = []
    · subst hfirst
      exact matches_first event
    · obtain ⟨row, hrow, hmatches⟩ := ih hfirst
      rw [rowAfter] at hrow
      rw [hrow]
      by_cases hincreases : increasesPosition row.side event.side = true
      · exact matches_increase hmatches event hincreases
      · exact matches_decrease hmatches event hincreases

/-- After every trade of any sequence the row accounts for all of them: its quantity is not
negative, its signed quantity is what was bought less what was sold, and its average is
that of the opening trades, of which every reduction has taken the same fraction. -/
theorem accounts_rowAfter (events : List TradeEvent) (row : PortfolioRow)
    (hrow : rowAfter events = some row) : Accounts proRata events row := by
  have hne : events ≠ [] := by
    rintro rfl
    cases hrow
  obtain ⟨row', hrow', hmatches⟩ := matches_rowAfter events hne
  obtain rfl := Option.some.inj (hrow.symm.trans hrow')
  refine ⟨hmatches.nonneg, ?_, ?_⟩
  · rw [hmatches.signed, position_reference]
  · intro hopen
    have hposition : (reference proRata events).position ≠ 0 := by
      rwa [← hmatches.signed]
    have hqty : row.quantity ≠ 0 := by
      rwa [Ne, ← signed_eq_zero_iff]
    rw [averageCost, hmatches.worth hposition, hmatches.total hposition,
      mul_div_assoc, div_self hqty, mul_one]

theorem one_unit_pos : (0 : ℚ) < 1 := one_pos

theorem two_units_pos : (0 : ℚ) < 2 := two_pos

theorem ten_pos : (0 : ℚ) < 10 := by norm_num

theorem twenty_pos : (0 : ℚ) < 20 := by norm_num

/-- Two are bought at 10, one of them is sold, and one is bought at 20. -/
def reducedTrades : List TradeEvent :=
  [⟨.buy, 2, 10, two_units_pos, ten_pos⟩, ⟨.sell, 1, 10, one_unit_pos, ten_pos⟩,
    ⟨.buy, 1, 20, one_unit_pos, twenty_pos⟩]

theorem rowAfter_reducedTrades : rowAfter reducedTrades = some ⟨2, 15, 0, .long⟩ := by
  decide +kernel

theorem accounts_reducedTrades : Accounts proRata reducedTrades ⟨2, 15, 0, .long⟩ :=
  accounts_rowAfter reducedTrades _ rowAfter_reducedTrades

/-- The mean of the opening trades as they were made is 40 / 3. -/
theorem reducedTrades_not_accounts_whole :
    ∃ row, rowAfter reducedTrades = some row ∧ ¬ Accounts whole reducedTrades row := by
  refine ⟨⟨2, 15, 0, .long⟩, rowAfter_reducedTrades, ?_⟩
  intro h
  have hopen : PortfolioRow.signed ⟨2, 15, 0, .long⟩ ≠ 0 := by decide +kernel
  have hlots : averageCost (reference whole reducedTrades).lots = 40 / 3 := by decide +kernel
  have havg := h.average hopen
  rw [hlots] at havg
  norm_num at havg

end TradeStream.PositionAccounting
