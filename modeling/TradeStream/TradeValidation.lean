import TradeStream.PositionAccounting

/-! `validate_trade` of the portfolio API, against the trades that were handled before. -/
namespace TradeStream.PositionAccounting

/-- The body of a validation, with what its model asks of the size. -/
structure TradeValidation where
  instrument : String
  side : TradeSide
  size : ℚ
  size_pos : 0 < size

structure Validation where
  valid : Bool
  errors : List String
  deriving DecidableEq

/-- The rows of `paper_portfolio`, by their symbols. -/
abbrev Portfolio := String → Option PortfolioRow

def handleTrade (portfolio : Portfolio) (trade : String × TradeEvent) : Portfolio :=
  Function.update portfolio trade.1 (handleTradeEvent (portfolio trade.1) trade.2)

def portfolioAfter (trades : List (String × TradeEvent)) : Portfolio :=
  trades.foldl handleTrade fun _ => none

/-- `floatText` is the text of a float in a message. The side of the row is not read. -/
def validateTrade (floatText : ℚ → String) (portfolio : Portfolio) (body : TradeValidation) :
    Validation :=
  let insufficient := "Insufficient position in " ++ body.instrument ++ " for SELL of " ++
    floatText body.size
  let errors :=
    (if body.size ≤ 0 then ["size must be positive"] else []) ++
      if body.side = .sell then
        match portfolio body.instrument with
        | none => [insufficient]
        | some row => if row.quantity < body.size then [insufficient] else []
      else []
  ⟨errors.length = 0, errors⟩

def tradesOf (symbol : String) (trades : List (String × TradeEvent)) : List TradeEvent :=
  (trades.filter (·.1 = symbol)).map Prod.snd

/-- What was bought of a symbol, less what was sold. -/
def netQuantity (symbol : String) (trades : List (String × TradeEvent)) : ℚ :=
  ((tradesOf symbol trades).map TradeEvent.signed).sum

/-- A trade only changes the row of its own symbol. -/
theorem portfolioAfter_apply (trades : List (String × TradeEvent)) (symbol : String) :
    portfolioAfter trades symbol = rowAfter (tradesOf symbol trades) := by
  induction trades using List.reverseRecOn with
  | nil => rfl
  | append_singleton trades trade ih =>
    rw [portfolioAfter, List.foldl_append, ← portfolioAfter, List.foldl_cons, List.foldl_nil,
      handleTrade, tradesOf, List.filter_append, List.map_append, ← tradesOf]
    by_cases hsymbol : trade.1 = symbol
    · subst hsymbol
      rw [Function.update_self, ih, rowAfter, rowAfter, List.foldl_append]
      simp
    · rw [Function.update_of_ne (Ne.symm hsymbol), ih]
      simp [hsymbol]

/-- The row of a symbol that was traded is its net quantity, on the row's side. -/
theorem portfolioAfter_cases (trades : List (String × TradeEvent)) (symbol : String) :
    portfolioAfter trades symbol = none ∧ netQuantity symbol trades = 0 ∨
      ∃ row, portfolioAfter trades symbol = some row ∧ 0 ≤ row.quantity ∧
        netQuantity symbol trades = row.side.sign * row.quantity := by
  rw [portfolioAfter_apply]
  by_cases hnone : tradesOf symbol trades = []
  · left
    rw [netQuantity, hnone]
    exact ⟨rfl, rfl⟩
  · right
    obtain ⟨row, hrow, hmatches⟩ := matches_rowAfter _ hnone
    refine ⟨row, hrow, hmatches.nonneg, ?_⟩
    rw [netQuantity, ← position_reference proRata, ← hmatches.signed]
    rfl

section
variable (floatText : ℚ → String)

/-- A SELL is valid if the quantity of the row covers it, whichever side the row is on. -/
theorem validateTrade_sell (portfolio : Portfolio) {body : TradeValidation}
    (hside : body.side = .sell) :
    (validateTrade floatText portfolio body).valid = true ↔
      ∃ row, portfolio body.instrument = some row ∧ body.size ≤ row.quantity := by
  have hsize : ¬ body.size ≤ 0 := not_le.mpr body.size_pos
  simp only [validateTrade, hside, if_neg hsize, if_true, List.nil_append]
  cases portfolio body.instrument with
  | none => simp
  | some row =>
    by_cases hshort : row.quantity < body.size
    · simp [hshort]
    · simp [hshort, not_lt.mp hshort]

/-- A SELL is valid just if the net quantity covers it, as long as that is not a short position
which is as large itself. -/
theorem validateTrade_sell_iff (trades : List (String × TradeEvent)) (body : TradeValidation)
    (hside : body.side = .sell) :
    ((validateTrade floatText (portfolioAfter trades) body).valid = true ↔
        body.size ≤ netQuantity body.instrument trades) ↔
      -body.size < netQuantity body.instrument trades := by
  have hsize := body.size_pos
  rw [validateTrade_sell floatText _ hside]
  rcases portfolioAfter_cases trades body.instrument with
    ⟨hrow, hnet⟩ | ⟨row, hrow, hnonneg, hnet⟩
  · rw [hrow, hnet]
    simp [hsize]
  · simp only [hrow, Option.some.injEq, exists_eq_left', hnet]
    cases row.side with
    | long =>
      rw [PositionSide.sign, one_mul]
      exact iff_of_true Iff.rfl (by linarith)
    | short =>
      -- a short row covers no SELL, though its quantity may be large enough
      rw [PositionSide.sign, neg_one_mul, neg_lt_neg_iff]
      have hnever : ¬ body.size ≤ -row.quantity := by linarith
      rw [iff_false_right hnever, not_le]

end

def oneSold : TradeEvent := ⟨.sell, 1, 10, one_unit_pos, ten_pos⟩

def sellOne : TradeValidation := ⟨"BTC/USD", .sell, 1, one_unit_pos⟩

theorem sellOne_valid_of_short :
    (validateTrade (fun _ => "1.0") (portfolioAfter [("BTC/USD", oneSold)]) sellOne).valid = true ∧
      netQuantity "BTC/USD" [("BTC/USD", oneSold)] = -1 := by
  decide +kernel

/-- A short position of one makes a SELL of one valid. -/
theorem sellOne_not_iff :
    ¬ ((validateTrade (fun _ => "1.0") (portfolioAfter [("BTC/USD", oneSold)]) sellOne).valid =
        true ↔
      sellOne.size ≤ netQuantity sellOne.instrument [("BTC/USD", oneSold)]) := by
  intro h
  have hnet := h.mp sellOne_valid_of_short.1
  have hneg : netQuantity sellOne.instrument [("BTC/USD", oneSold)] = -1 := sellOne_valid_of_short.2
  rw [hneg] at hnet
  norm_num [sellOne] at hnet

theorem sellOne_iff_of_none :
    ((validateTrade (fun _ => "1.0") (portfolioAfter []) sellOne).valid = true ↔
        sellOne.size ≤ netQuantity sellOne.instrument []) ↔
      -sellOne.size < netQuantity sellOne.instrument [] :=
  validateTrade_sell_iff (fun _ => "1.0") [] sellOne rfl

end TradeStream.PositionAccounting
