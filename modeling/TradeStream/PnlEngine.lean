import Mathlib

/-! The PnL engine: lots, and the three ways a sell is matched against them. Prices and
sizes are exact. -/
namespace TradeStream.Pnl

inductive CostBasisMethod where
  | FIFO
  | LIFO
  | AVERAGE
  deriving DecidableEq, Repr

structure Lot where
  entryPrice : ℚ
  size : ℚ
  timestamp : ℤ
  lotId : Option String
  deriving DecidableEq, Repr, Inhabited

def Lot.cost (lot : Lot) : ℚ := lot.entryPrice * lot.size

structure RealizedPnL where
  lotEntryPrice : ℚ
  exitPrice : ℚ
  size : ℚ
  pnl : ℚ
  lotTimestamp : ℤ
  exitTimestamp : ℤ
  deriving DecidableEq, Repr

structure UnrealizedPnL where
  lotEntryPrice : ℚ
  currentPrice : ℚ
  size : ℚ
  pnl : ℚ
  lotTimestamp : ℤ
  deriving DecidableEq, Repr

structure Position where
  symbol : String
  lots : List Lot
  realized : List RealizedPnL
  deriving DecidableEq, Repr

namespace Position

def totalSize (pos : Position) : ℚ := (pos.lots.map Lot.size).sum

def totalCost (pos : Position) : ℚ := (pos.lots.map Lot.cost).sum

def avgEntryPrice (pos : Position) : ℚ :=
  if pos.totalSize = 0 then 0 else pos.totalCost / pos.totalSize

def totalRealizedPnl (pos : Position) : ℚ := (pos.realized.map RealizedPnL.pnl).sum

def unrealizedPnl (pos : Position) (currentPrice : ℚ) : List UnrealizedPnL :=
  pos.lots.map fun lot =>
    { lotEntryPrice := lot.entryPrice
      currentPrice
      size := lot.size
      pnl := (currentPrice - lot.entryPrice) * lot.size
      lotTimestamp := lot.timestamp }

def totalUnrealizedPnl (pos : Position) (currentPrice : ℚ) : ℚ :=
  ((pos.unrealizedPnl currentPrice).map UnrealizedPnL.pnl).sum

end Position

/-- The `ValueError` of `add_sell`: `Sell size {size} exceeds position size
{total_size} for {symbol}`. -/
structure SellExceedsPosition where
  size : ℚ
  totalSize : ℚ
  symbol : String
  deriving DecidableEq, Repr

/-- A sell while it is matched. `lots` is the list that is worked off, and shares its
lots with `pos.lots`: both lists refer to the objects of `heap`. -/
structure Matching where
  heap : ℕ → Lot
  held : List ℕ
  lots : List ℕ
  remaining : ℚ
  realized : List RealizedPnL

/-- `pos.lots`, as the references now stand. -/
def Matching.posLots (m : Matching) : List Lot := m.held.map m.heap

/-- `_ordered_lots`. Python's `sorted` is stable, with `reverse` too. -/
def orderedLots (method : CostBasisMethod) (heap : ℕ → Lot) (held : List ℕ) : List ℕ :=
  match method with
  | .FIFO => held.insertionSort fun i j => (heap i).timestamp ≤ (heap j).timestamp
  | .LIFO => held.insertionSort fun i j => (heap j).timestamp ≤ (heap i).timestamp
  | .AVERAGE => held

/-- One round of the loop of `add_sell`, on the lot that comes first. -/
def Matching.fill (price : ℚ) (timestamp : ℤ) (m : Matching) (i : ℕ) (rest : List ℕ) :
    Matching :=
  let lot := m.heap i
  let fill := min m.remaining lot.size
  let heap := Function.update m.heap i { lot with size := lot.size - fill }
  -- `remove` looks for the first lot that equals this one, field by field
  let emptied := (heap i).size = 0
  { heap
    held := if emptied then m.held.eraseP fun j => heap j = heap i else m.held
    lots := if emptied then rest else i :: rest
    remaining := m.remaining - fill
    realized := m.realized ++ [{
      lotEntryPrice := lot.entryPrice
      exitPrice := price
      size := fill
      pnl := (price - lot.entryPrice) * fill
      lotTimestamp := lot.timestamp
      exitTimestamp := timestamp }] }

/-- What each round lowers: a lot goes, or nothing remains to be sold. -/
def Matching.roundsLeft (m : Matching) : ℕ :=
  m.lots.length + if 0 < m.remaining then 1 else 0

theorem Matching.roundsLeft_fill_lt (price : ℚ) (timestamp : ℤ) {m : Matching} {i : ℕ}
    {rest : List ℕ} (hlots : m.lots = i :: rest) (hremaining : 0 < m.remaining) :
    (m.fill price timestamp i rest).roundsLeft < m.roundsLeft := by
  have hleft : (m.fill price timestamp i rest).remaining ≤ 0 ∨
      (m.fill price timestamp i rest).lots = rest := by
    rcases le_or_gt m.remaining (m.heap i).size with h | h
    · left
      simp [Matching.fill, min_eq_left h]
    · right
      simp [Matching.fill, min_eq_right h.le]
  have hlength : (m.fill price timestamp i rest).lots.length ≤ rest.length + 1 := by
    simp only [Matching.fill]
    split_ifs <;> simp
  simp only [Matching.roundsLeft, hlots, List.length_cons, if_pos hremaining]
  rcases hleft with h | h
  · rw [if_neg h.not_gt]
    omega
  · rw [h]
    split_ifs <;> omega

/-- `while remaining > 0 and lots`. -/
def matchLots (price : ℚ) (timestamp : ℤ) (m : Matching) : Matching :=
  if hremaining : 0 < m.remaining then
    match hlots : m.lots with
    | [] => m
    | i :: rest =>
      have := Matching.roundsLeft_fill_lt price timestamp hlots hremaining
      matchLots price timestamp (m.fill price timestamp i rest)
  else m
termination_by m.roundsLeft

/-- The lots of a position and what a sell asks for. -/
def startMatching (method : CostBasisMethod) (pos : Position) (size : ℚ) : Matching :=
  let heap := fun i => pos.lots.getD i default
  let held := List.range pos.lots.length
  { heap, held, lots := orderedLots method heap held, remaining := size, realized := [] }

def sellAverage (pos : Position) (price size : ℚ) (timestamp : ℤ) :
    List Lot × List RealizedPnL :=
  let avgCost := pos.avgEntryPrice
  let realized := [{
    lotEntryPrice := avgCost
    exitPrice := price
    size
    pnl := (price - avgCost) * size
    lotTimestamp := (pos.lots.head?.map Lot.timestamp).getD timestamp
    exitTimestamp := timestamp }]
  let total := pos.totalSize
  let ratio := if 0 < total then (total - size) / total else 0
  let lots := pos.lots.map fun lot => { lot with size := lot.size * ratio }
  (lots.filter fun lot => 0 < lot.size, realized)

structure PnLEngine where
  method : CostBasisMethod
  positions : AList fun _ : String => Position

namespace PnLEngine

/-- An engine before its first call. -/
def new (method : CostBasisMethod) : PnLEngine := ⟨method, ∅⟩

def getPosition (engine : PnLEngine) (symbol : String) : Position :=
  (engine.positions.lookup symbol).getD ⟨symbol, [], []⟩

/-- The position of a symbol, as a call that got it leaves it. -/
def setPosition (engine : PnLEngine) (symbol : String) (pos : Position) : PnLEngine :=
  { engine with positions := engine.positions.insert symbol pos }

def addBuy (engine : PnLEngine) (symbol : String) (price size : ℚ) (timestamp : ℤ)
    (lotId : Option String) : PnLEngine × Lot :=
  let lot := { entryPrice := price, size, timestamp, lotId }
  let pos := engine.getPosition symbol
  (engine.setPosition symbol { pos with lots := pos.lots ++ [lot] }, lot)

/-- The position after a sell that the holdings cover, and what it realized. -/
def sellPosition (method : CostBasisMethod) (pos : Position) (price size : ℚ)
    (timestamp : ℤ) : Position × List RealizedPnL :=
  match method with
  | .AVERAGE =>
    let (lots, realized) := sellAverage pos price size timestamp
    ({ pos with lots, realized := pos.realized ++ realized }, realized)
  | method =>
    let m := matchLots price timestamp (startMatching method pos size)
    ({ pos with lots := m.posLots, realized := pos.realized ++ m.realized }, m.realized)

/-- A sell that is rejected leaves an entry for its symbol all the same. -/
def addSell (engine : PnLEngine) (symbol : String) (price size : ℚ) (timestamp : ℤ) :
    PnLEngine × Except SellExceedsPosition (List RealizedPnL) :=
  let pos := engine.getPosition symbol
  if size > pos.totalSize then
    (engine.setPosition symbol pos, .error ⟨size, pos.totalSize, symbol⟩)
  else
    let (pos', realized) := sellPosition engine.method pos price size timestamp
    (engine.setPosition symbol pos', .ok realized)

end PnLEngine

end TradeStream.Pnl
