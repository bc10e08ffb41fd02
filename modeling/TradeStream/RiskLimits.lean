import TradeStream.KeyedTable
import TradeStream.PositionAccounting
import TradeStream.RoundDecimal
import TradeStream.RunSteps

/-! `check_trade_risk` before every trade, and the limits on the portfolio that results.
Numbers are exact. -/
namespace TradeStream.RiskManagement
open TradeStream.KeyedTable TradeStream.PositionAccounting TradeStream.RoundDecimal
open TradeStream.RunSteps

/-- What the check reads of the row of `risk_limits`. -/
structure RiskLimits where
  maxPositionSize : ℚ
  maxDailyLoss : ℚ
  maxOpenPositions : ℤ

/-- The body of a check, with what its model asks of the numbers. -/
structure TradeRiskCheck where
  instrument : String
  side : TradeSide
  size : ℚ
  entryPrice : ℚ
  stopPrice : Option ℚ
  size_pos : 0 < size
  entryPrice_pos : 0 < entryPrice

def TradeRiskCheck.value (body : TradeRiskCheck) : ℚ := body.size * body.entryPrice

def TradeRiskCheck.event (body : TradeRiskCheck) : TradeEvent where
  side := body.side
  quantity := body.size
  price := body.entryPrice
  quantity_pos := body.size_pos
  price_pos := body.entryPrice_pos

/-- `paper_portfolio`. No trade leaves a negative quantity. -/
structure Portfolio where
  rows : Table String PortfolioRow
  nonneg : ∀ symbol, ∀ row ∈ rows.lookup symbol, 0 ≤ row.quantity

def isOpen (row : PortfolioRow) : Bool := row.quantity ≠ 0

/-- `SELECT COUNT(*) FROM paper_portfolio WHERE quantity != 0`. -/
def Portfolio.openCount (portfolio : Portfolio) : ℕ := countRows isOpen portfolio.rows

inductive RiskError where
  | maxOpenPositions (max : ℤ)
  | tradeValue (value max : ℚ)
  | dailyLoss (loss max : ℚ)
  | insufficientPosition (instrument : String) (size : ℚ)

/-- A number with some decimals, and as Python writes it. -/
structure FloatFormat where
  fixed : ℕ → ℚ → String
  plain : ℚ → String

def RiskError.text (format : FloatFormat) : RiskError → String
  | .maxOpenPositions max => "Max open positions (" ++ toString max ++ ") reached"
  | .tradeValue value max =>
    "Trade value $" ++ format.fixed 2 value ++ " exceeds max position size $" ++ format.fixed 2 max
  | .dailyLoss loss max =>
    "Daily loss limit reached: $" ++ format.fixed 2 loss ++ " >= $" ++ format.fixed 2 max
  | .insufficientPosition instrument size =>
    "Insufficient position in " ++ instrument ++ " for SELL of " ++ format.plain size

structure RiskCheck where
  approved : Bool
  errors : List String
  warnings : List String
  trade : TradeRiskCheck
  value : ℚ

/-- The losses of the trades that were closed today, as a positive number. -/
def todayLoss (closedToday : List ℚ) : ℚ := |(closedToday.filter (· < 0)).sum|

section
variable (limits : RiskLimits) (portfolio : Portfolio) (closedToday : List ℚ)
  (body : TradeRiskCheck)

def openPositionErrors : List RiskError :=
  if body.side = .buy ∧ limits.maxOpenPositions ≤ portfolio.openCount then
    [.maxOpenPositions limits.maxOpenPositions]
  else []

-- what is compared is the value of the trade, without the position that is there
def positionSizeErrors : List RiskError :=
  if limits.maxPositionSize < body.value then [.tradeValue body.value limits.maxPositionSize]
  else []

def dailyLossErrors : List RiskError :=
  if limits.maxDailyLoss ≤ todayLoss closedToday then
    [.dailyLoss (todayLoss closedToday) limits.maxDailyLoss]
  else []

def covers (row : Option PortfolioRow) (size : ℚ) : Bool := row.any (size ≤ ·.quantity)

def sellErrors : List RiskError :=
  if body.side = .sell ∧ covers (portfolio.rows.lookup body.instrument) body.size = false then
    [.insufficientPosition body.instrument body.size]
  else []

def riskErrors : List RiskError :=
  openPositionErrors limits portfolio body ++ positionSizeErrors limits body ++
    dailyLossErrors limits closedToday ++ sellErrors portfolio body

/-- The warning about a stop-loss does not refuse the trade. -/
def riskWarnings (format : FloatFormat) : List String :=
  match body.stopPrice with
  | none => []
  | some stopPrice =>
    let dollarRisk := |body.entryPrice - stopPrice| * body.size
    let remaining := limits.maxDailyLoss - todayLoss closedToday
    if remaining < dollarRisk then
      ["Trade risk $" ++ format.fixed 2 dollarRisk ++ " exceeds remaining daily budget $" ++
        format.fixed 2 remaining]
    else []

def checkTradeRisk (format : FloatFormat) : RiskCheck where
  approved := (riskErrors limits portfolio closedToday body).isEmpty
  errors := (riskErrors limits portfolio closedToday body).map (RiskError.text format)
  warnings := riskWarnings limits closedToday body format
  trade := body
  value := roundTo 2 body.value

end

theorem updatePositionFromTrade_nonneg {existing : Option PortfolioRow}
    (h : ∀ row ∈ existing, 0 ≤ row.quantity) (event : TradeEvent) :
    0 ≤ (updatePositionFromTrade existing event).quantity := by
  have hq := event.quantity_pos
  cases existing with
  | none => exact hq.le
  | some row =>
    have hrow := h row rfl
    simp only [updatePositionFromTrade]
    split_ifs with hincreases hcloses hreverses
    · exact add_nonneg hrow hq.le
    · exact hreverses.le
    · exact le_rfl
    · exact sub_nonneg.mpr (not_le.mp hcloses).le

/-- The row of a symbol after a trade. -/
def Portfolio.take (portfolio : Portfolio) (symbol : String) (event : TradeEvent) : Portfolio where
  rows := portfolio.rows.insert symbol
    (updatePositionFromTrade (portfolio.rows.lookup symbol) event)
  nonneg := by
    intro other row hrow
    by_cases hother : other = symbol
    · subst hother
      rw [AList.lookup_insert, Option.mem_some_iff] at hrow
      rw [← hrow]
      exact updatePositionFromTrade_nonneg (portfolio.nonneg other) event
    · rw [AList.lookup_insert_ne hother] at hrow
      exact portfolio.nonneg other row hrow

/-- A trade that is proposed, and the results of the trades closed on its day. -/
structure Proposal where
  body : TradeRiskCheck
  closedToday : List ℚ

section
variable (format : FloatFormat) (limits : RiskLimits)

def Approved (portfolio : Portfolio) (proposal : Proposal) : Prop :=
  (checkTradeRisk limits portfolio proposal.closedToday proposal.body format).approved = true

instance (portfolio : Portfolio) (proposal : Proposal) :
    Decidable (Approved format limits portfolio proposal) :=
  inferInstanceAs (Decidable (_ = _))

/-- A trade is executed if it was approved against the portfolio as it stands. -/
def execute (portfolio : Portfolio) (proposal : Proposal) : Portfolio :=
  if Approved format limits portfolio proposal then
    portfolio.take proposal.body.instrument proposal.body.event
  else portfolio

def cost (row : PortfolioRow) : ℚ := row.quantity * row.avgEntryPrice

structure WithinLimits (portfolio : Portfolio) : Prop where
  count : portfolio.openCount ≤ limits.maxOpenPositions
  size : ∀ symbol, ∀ row ∈ portfolio.rows.lookup symbol, cost row ≤ limits.maxPositionSize

/-- A trade that adds to a position leaves it within the limit together with what is
there. -/
def LeavesRoom (portfolio : Portfolio) (proposal : Proposal) : Prop :=
  Approved format limits portfolio proposal →
    ∀ row ∈ portfolio.rows.lookup proposal.body.instrument,
      increasesPosition row.side proposal.body.side = true →
        cost row + proposal.body.value ≤ limits.maxPositionSize

end

/-! ### What an approval says -/

section
variable {format : FloatFormat} {limits : RiskLimits} {portfolio : Portfolio} {proposal : Proposal}

theorem approved_iff : Approved format limits portfolio proposal ↔
    (proposal.body.side = .buy → (portfolio.openCount : ℤ) < limits.maxOpenPositions) ∧
      proposal.body.value ≤ limits.maxPositionSize ∧
      todayLoss proposal.closedToday < limits.maxDailyLoss ∧
      (proposal.body.side = .sell →
        covers (portfolio.rows.lookup proposal.body.instrument) proposal.body.size = true) := by
  simp only [Approved, checkTradeRisk, riskErrors, List.isEmpty_iff, List.append_eq_nil_iff,
    openPositionErrors, positionSizeErrors, dailyLossErrors, sellErrors, ite_eq_right_iff,
    List.cons_ne_nil, imp_false, not_and, not_le, not_lt, Bool.not_eq_false, and_assoc]

theorem covers_iff (row : Option PortfolioRow) (size : ℚ) :
    covers row size = true ↔ ∃ old, row = some old ∧ size ≤ old.quantity := by
  cases row <;> simp [covers]

/-! ### The number of open positions -/

theorem openCount_take (portfolio : Portfolio) (symbol : String) (event : TradeEvent) :
    (portfolio.take symbol event).openCount +
        (portfolio.rows.lookup symbol).toList.countP isOpen =
      portfolio.openCount +
        [updatePositionFromTrade (portfolio.rows.lookup symbol) event].countP isOpen :=
  countRows_insert isOpen portfolio.rows symbol _

/-- No trade that was approved takes the number of open positions beyond its limit. -/
theorem openCount_execute_le (h : (portfolio.openCount : ℤ) ≤ limits.maxOpenPositions) :
    ((execute format limits portfolio proposal).openCount : ℤ) ≤ limits.maxOpenPositions := by
  unfold execute
  split
  next happroved =>
    obtain ⟨hbuy, -, -, hsell⟩ := approved_iff.mp happroved
    have hcount := openCount_take portfolio proposal.body.instrument proposal.body.event
    have hone : [updatePositionFromTrade (portfolio.rows.lookup proposal.body.instrument)
        proposal.body.event].countP isOpen ≤ 1 := List.countP_le_length
    cases hside : proposal.body.side with
    | buy =>
      have hroom := hbuy hside
      omega
    | sell =>
      -- what is sold was open before
      obtain ⟨row, hrow, hsize⟩ := (covers_iff _ _).mp (hsell hside)
      have hopen : isOpen row = true := by
        have hpos := proposal.body.size_pos.trans_le hsize
        simp [isOpen, hpos.ne']
      rw [hrow, Option.toList_some, List.countP_singleton, if_pos hopen] at hcount
      rw [hrow] at hone
      omega
  next => exact h

/-! ### The cost of a position -/

theorem cost_increase {row : PortfolioRow} (hrow : 0 ≤ row.quantity) {event : TradeEvent}
    (hincreases : increasesPosition row.side event.side = true) :
    cost (updatePositionFromTrade (some row) event) = cost row + event.quantity * event.price := by
  have hnew : row.quantity + event.quantity ≠ 0 := by
    have hq := event.quantity_pos
    positivity
  simp only [updatePositionFromTrade, hincreases, if_true, cost]
  field_simp

/-- A trade the other way leaves less of the position, or a part of the trade. -/
theorem cost_decrease_le {row : PortfolioRow} (hrow : 0 ≤ row.quantity) {event : TradeEvent}
    (hincreases : ¬ increasesPosition row.side event.side = true) {bound : ℚ}
    (hcost : cost row ≤ bound) (hvalue : event.quantity * event.price ≤ bound) :
    cost (updatePositionFromTrade (some row) event) ≤ bound := by
  have hq := event.quantity_pos
  have hp := event.price_pos
  have hbound : 0 ≤ bound := (mul_pos hq hp).le.trans hvalue
  simp only [updatePositionFromTrade, if_neg hincreases]
  unfold cost at hcost ⊢
  split_ifs with hcloses hreverses
  -- the position turns to the other side, at the price of the trade
  · have hless : (event.quantity - row.quantity) * event.price ≤ event.quantity * event.price := by
      gcongr
      linarith
    exact hless.trans hvalue
  · simpa using hbound
  -- less of it is left at the same average, which no check has kept positive
  · rcases le_total 0 row.avgEntryPrice with havg | havg
    · have hless : (row.quantity - event.quantity) * row.avgEntryPrice ≤
          row.quantity * row.avgEntryPrice := by
        gcongr
        linarith
      exact hless.trans hcost
    · have hleft : 0 ≤ row.quantity - event.quantity := by linarith [not_le.mp hcloses]
      exact (mul_nonpos_of_nonneg_of_nonpos hleft havg).trans hbound

theorem size_take_iff (h : WithinLimits limits portfolio) (symbol : String) (event : TradeEvent) :
    (∀ other, ∀ row ∈ (portfolio.take symbol event).rows.lookup other,
        cost row ≤ limits.maxPositionSize) ↔
      cost (updatePositionFromTrade (portfolio.rows.lookup symbol) event) ≤
        limits.maxPositionSize := by
  constructor
  · intro hall
    exact hall symbol _ (by rw [Portfolio.take, AList.lookup_insert, Option.mem_some_iff])
  · intro hsize other row hrow
    by_cases hother : other = symbol
    · subst hother
      rw [Portfolio.take, AList.lookup_insert, Option.mem_some_iff] at hrow
      rwa [← hrow]
    · rw [Portfolio.take, AList.lookup_insert_ne hother] at hrow
      exact h.size other row hrow

theorem withinLimits_execute_iff (h : WithinLimits limits portfolio) :
    WithinLimits limits (execute format limits portfolio proposal) ↔
      LeavesRoom format limits portfolio proposal := by
  have hcount : ((execute format limits portfolio proposal).openCount : ℤ) ≤
      limits.maxOpenPositions := openCount_execute_le h.count
  by_cases happroved : Approved format limits portfolio proposal
  · obtain ⟨-, hvalue, -, -⟩ := approved_iff.mp happroved
    have hexecute : execute format limits portfolio proposal =
        portfolio.take proposal.body.instrument proposal.body.event := if_pos happroved
    have hwithin : WithinLimits limits (execute format limits portfolio proposal) ↔
        cost (updatePositionFromTrade (portfolio.rows.lookup proposal.body.instrument)
          proposal.body.event) ≤ limits.maxPositionSize := by
      rw [← size_take_iff h, ← hexecute]
      exact ⟨fun hlimits => hlimits.size, fun hsize => ⟨hcount, hsize⟩⟩
    -- the trade starts the position, adds to it or goes the other way
    rw [hwithin]
    simp only [LeavesRoom, happroved, true_implies]
    cases hrow : portfolio.rows.lookup proposal.body.instrument with
    | none =>
      simp only [Option.not_mem_none, false_implies, implies_true, iff_true]
      exact hvalue
    | some row =>
      have hnonneg := portfolio.nonneg _ row hrow
      simp only [Option.mem_some_iff, forall_eq']
      by_cases hincreases : increasesPosition row.side proposal.body.side = true
      · rw [cost_increase hnonneg hincreases]
        simp only [hincreases, true_implies]
        exact Iff.rfl
      · apply iff_of_true
        · exact @cost_decrease_le row hnonneg proposal.body.event hincreases _ (h.size _ row hrow)
            hvalue
        · exact fun hincreases' => absurd hincreases' hincreases
  · have hexecute : execute format limits portfolio proposal = portfolio := if_neg happroved
    rw [hexecute]
    exact ⟨fun _ happroved' => absurd happroved' happroved, fun _ => h⟩

/-! ### Sequences of trades -/

/-- The number of open positions stays within its limit in every run. -/
theorem openCount_le_of_run (h : (portfolio.openCount : ℤ) ≤ limits.maxOpenPositions)
    (proposals : List Proposal) :
    ((proposals.foldl (execute format limits) portfolio).openCount : ℤ) ≤
      limits.maxOpenPositions := by
  induction proposals generalizing portfolio with
  | nil => exact h
  | cons proposal rest ih => exact ih (openCount_execute_le h)

end

def emptyPortfolio : Portfolio where
  rows := ∅
  nonneg := by simp

theorem eighty_units_pos : (0 : ℚ) < 80 := by norm_num

/-- One unit bought at 80. -/
def buyAtEighty : Proposal where
  body := ⟨"BTC/USD", .buy, 1, 80, none, one_unit_pos, eighty_units_pos⟩
  closedToday := []

def hundredLimits : RiskLimits := ⟨100, 1000, 10⟩

def noFormat : FloatFormat := ⟨fun _ _ => "", fun _ => ""⟩

theorem withinLimits_emptyPortfolio : WithinLimits hundredLimits emptyPortfolio :=
  ⟨by decide, by simp [emptyPortfolio]⟩

end TradeStream.RiskManagement
