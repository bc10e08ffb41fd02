import TradeStream.Fallible
import TradeStream.RoundDecimal

/-! `PostgresClient` of the paper trading service: the tables and the transactions that
write them. Python's numbers are taken as exact, a column keeps 8 decimals, and numbers
are within the range of the columns. -/
namespace TradeStream.PaperTrading
open TradeStream.Fallible TradeStream.RoundDecimal

inductive Side where
  | buy
  | sell
  deriving DecidableEq, Repr

inductive TradeStatus where
  | opened
  | closed
  deriving DecidableEq, Repr

structure PaperTrade where
  sessionId : Option String
  signalId : Option String
  symbol : String
  side : Side
  entryPrice : ℚ
  exitPrice : Option ℚ
  quantity : ℚ
  pnl : Option ℚ
  status : TradeStatus

structure PortfolioRow where
  quantity : ℚ
  avgEntryPrice : ℚ

inductive SessionStatus where
  | active
  | stopped
  deriving DecidableEq, Repr

structure Session where
  startingBalance : ℚ
  currentBalance : ℚ
  status : SessionStatus
  totalTrades : ℕ

/-- The tables. The id of a trade is its place. -/
structure Store where
  signals : String → Bool
  trades : List PaperTrade
  portfolio : String → Option PortfolioRow
  sessions : String → Option Session

/-- A foreign key without its row. -/
inductive StoreError where
  | unknownSignal
  | unknownSession
  deriving DecidableEq, Repr

/-- What a `DECIMAL(20, 8)` column stores. -/
def numeric (x : ℚ) : ℚ := storeTo 8 x

/-- The balance of a session after a trade. -/
def Session.afterTrade (session : Session) (side : Side) (cost : ℚ) : Session :=
  match side with
  | .buy => { session with
      currentBalance := numeric (session.currentBalance - cost)
      totalTrades := session.totalTrades + 1 }
  | .sell => { session with
      currentBalance := numeric (session.currentBalance + cost)
      totalTrades := session.totalTrades + 1 }

namespace Store

def empty (signals : String → Bool) (sessions : String → Option Session) : Store :=
  ⟨signals, [], fun _ => none, sessions⟩

/-- `INSERT INTO paper_trades`. -/
def insertTrade (store : Store) (sessionId signalId : Option String) (symbol : String)
    (side : Side) (entryPrice quantity : ℚ) : Except StoreError Store :=
  if signalId.any fun id => !store.signals id then .error .unknownSignal
  else if sessionId.any fun id => (store.sessions id).isNone then .error .unknownSession
  else .ok { store with trades := store.trades ++ [{
    sessionId := sessionId
    signalId := signalId
    symbol := symbol
    side := side
    entryPrice := numeric entryPrice
    exitPrice := none
    quantity := numeric quantity
    pnl := none
    status := .opened }] }

/-- The row of a symbol after a trade. A SELL without a row makes none. -/
def upsertPosition (existing : Option PortfolioRow) (side : Side) (entryPrice quantity : ℚ) :
    Option PortfolioRow :=
  match existing, side with
  | some row, .buy =>
    let newQty := row.quantity + quantity
    let newAvg :=
      if 0 < newQty then (row.avgEntryPrice * row.quantity + entryPrice * quantity) / newQty
      else 0
    some ⟨numeric newQty, numeric newAvg⟩
  | some row, .sell =>
    let newQty := row.quantity - quantity
    -- sold out, the row is deleted; else it keeps its average price
    if newQty ≤ 0 then none else some { row with quantity := numeric newQty }
  | none, .buy => some ⟨numeric quantity, numeric entryPrice⟩
  | none, .sell => none

def updatePortfolio (store : Store) (symbol : String) (side : Side)
    (entryPrice quantity : ℚ) : Store :=
  { store with
    portfolio := Function.update store.portfolio symbol
      (upsertPosition (store.portfolio symbol) side entryPrice quantity) }

/-- The transaction of `execute_trade`. -/
def executeTrade (store : Store) (signalId symbol : String) (side : Side)
    (entryPrice quantity : ℚ) : Except StoreError Store := do
  let store ← store.insertTrade none (some signalId) symbol side entryPrice quantity
  return store.updatePortfolio symbol side entryPrice quantity

/-- The transaction of `execute_session_trade`. -/
def executeSessionTrade (store : Store) (sessionId : String) (signalId : Option String)
    (symbol : String) (side : Side) (entryPrice quantity : ℚ) : Except StoreError Store := do
  let store ← store.insertTrade (some sessionId) signalId symbol side entryPrice quantity
  let cost := entryPrice * quantity
  let store := { store with
    sessions := Function.update store.sessions sessionId
      ((store.sessions sessionId).map fun session : Session => session.afterTrade side cost) }
  return store.updatePortfolio symbol side entryPrice quantity

/-- What `close_trade` returns. -/
structure ClosedTrade where
  symbol : String
  side : Side
  entryPrice : ℚ
  exitPrice : ℚ
  quantity : ℚ
  pnl : ℚ

/-- The row of a symbol after a trade of the quantity is closed, whatever its side. -/
def removePosition (existing : Option PortfolioRow) (quantity : ℚ) : Option PortfolioRow :=
  existing.bind fun row =>
    -- the DELETE compares what the UPDATE has stored
    let newQty := numeric (row.quantity - quantity)
    if newQty ≤ 0 then none else some { row with quantity := newQty }

/-- `close_trade`. A trade that is not open is left alone. -/
def closeTrade (store : Store) (tradeId : ℕ) (exitPrice : ℚ) : Store × Option ClosedTrade :=
  match store.trades[tradeId]? with
  | none => (store, none)
  | some trade =>
    if trade.status = .opened then
      let pnl :=
        match trade.side with
        | .buy => (exitPrice - trade.entryPrice) * trade.quantity
        | .sell => (trade.entryPrice - exitPrice) * trade.quantity
      let closed := { trade with
        exitPrice := some (numeric exitPrice)
        pnl := some (numeric pnl)
        status := .closed }
      ({ store with
          trades := store.trades.set tradeId closed
          portfolio := Function.update store.portfolio trade.symbol
            (removePosition (store.portfolio trade.symbol) trade.quantity) },
        some ⟨trade.symbol, trade.side, trade.entryPrice, exitPrice, trade.quantity,
          roundTo 8 pnl⟩)
    else (store, none)

end Store

/-- The operations on the store. -/
inductive Op where
  | executeTrade (signalId symbol : String) (side : Side) (entryPrice quantity : ℚ)
  | executeSessionTrade (sessionId : String) (signalId : Option String) (symbol : String)
    (side : Side) (entryPrice quantity : ℚ)
  | closeTrade (tradeId : ℕ) (exitPrice : ℚ)

/-- One operation. A transaction that raises is rolled back. -/
def Store.apply (store : Store) : Op → Store
  | .executeTrade signalId symbol side entryPrice quantity =>
    match store.executeTrade signalId symbol side entryPrice quantity with
    | .ok store' => store'
    | .error _ => store
  | .executeSessionTrade sessionId signalId symbol side entryPrice quantity =>
    match store.executeSessionTrade sessionId signalId symbol side entryPrice quantity with
    | .ok store' => store'
    | .error _ => store
  | .closeTrade tradeId exitPrice => (store.closeTrade tradeId exitPrice).1

end TradeStream.PaperTrading
