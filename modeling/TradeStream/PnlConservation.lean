import TradeStream.PnlEngine

/-! What a sell takes from the lots it records as realized, whichever way it is matched:
size and cost are conserved over every run of calls. -/
namespace TradeStream.Pnl

/-- The entry cost of what has been sold. -/
def entryCost (realized : List RealizedPnL) : ℚ :=
  (realized.map fun r => r.lotEntryPrice * r.size).sum

def profit (realized : List RealizedPnL) : ℚ := (realized.map RealizedPnL.pnl).sum

@[simp] theorem entryCost_nil : entryCost [] = 0 := rfl

@[simp] theorem profit_nil : profit [] = 0 := rfl

@[simp] theorem entryCost_append (rs rs' : List RealizedPnL) :
    entryCost (rs ++ rs') = entryCost rs + entryCost rs' := by
  simp [entryCost]

@[simp] theorem profit_append (rs rs' : List RealizedPnL) :
    profit (rs ++ rs') = profit rs + profit rs' := by
  simp [profit]

/-- Every record of a sell is of that sell's price, so all of its profit is in the cost. -/
theorem Position.totalUnrealizedPnl_eq (pos : Position) (currentPrice : ℚ) :
    pos.totalUnrealizedPnl currentPrice = currentPrice * pos.totalSize - pos.totalCost := by
  have hmap : ∀ lots : List Lot,
      (lots.map fun lot => (currentPrice - lot.entryPrice) * lot.size).sum =
        currentPrice * (lots.map Lot.size).sum - (lots.map Lot.cost).sum := by
    intro lots
    induction lots with
    | nil => simp
    | cons lot lots ih =>
      simp only [List.map_cons, List.sum_cons, ih, Lot.cost]
      ring
  rw [Position.totalUnrealizedPnl, Position.unrealizedPnl, List.map_map]
  exact hmap pos.lots

/-- A sell of `size` at `price` that takes `pos` to `pos'`. -/
structure Sale (pos pos' : Position) (price size : ℚ) : Prop where
  totalSize_eq : pos'.totalSize = pos.totalSize - size
  totalCost_eq : pos'.totalCost + entryCost pos'.realized =
    pos.totalCost + entryCost pos.realized
  profit_eq : profit pos'.realized + entryCost pos'.realized =
    profit pos.realized + entryCost pos.realized + price * size
  size_pos : ∀ lot ∈ pos'.lots, 0 < lot.size

/-! ### Lots worked off one after the other -/

/-- The state of a matching of `size` at `price` against the lots of `pos`. -/
structure Matching.Sound (pos : Position) (price size : ℚ) (m : Matching) : Prop where
  perm : m.lots.Perm m.held
  nodup : m.held.Nodup
  size_pos : ∀ i ∈ m.held, 0 < (m.heap i).size
  remaining_nonneg : 0 ≤ m.remaining
  totalSize_eq : (m.posLots.map Lot.size).sum = pos.totalSize - size + m.remaining
  totalCost_eq : (m.posLots.map Lot.cost).sum + entryCost m.realized = pos.totalCost
  profit_eq : profit m.realized + entryCost m.realized = price * (size - m.remaining)

/-- The lot itself goes, though `remove` compares fields: no other lot is empty. -/
theorem eraseP_eq_erase {heap : ℕ → Lot} {held : List ℕ} {i : ℕ} (hempty : (heap i).size = 0)
    (hpos : ∀ j ∈ held, j ≠ i → 0 < (heap j).size) :
    held.eraseP (fun j => heap j = heap i) = held.erase i := by
  induction held with
  | nil => rfl
  | cons j held ih =>
    by_cases hj : j = i
    · subst hj
      simp
    · have hne : heap j ≠ heap i := by
        intro heq
        have := hpos j (by simp) hj
        rw [heq, hempty] at this
        exact lt_irrefl _ this
      rw [List.eraseP_cons_of_neg (by simpa using hne), List.erase_cons_tail (by simpa using hj),
        ih fun k hk => hpos k (by simp [hk])]

theorem map_update_of_notMem (heap : ℕ → Lot) {rest : List ℕ} {i : ℕ} (hi : i ∉ rest)
    (lot : Lot) : rest.map (Function.update heap i lot) = rest.map heap := by
  apply List.map_congr_left
  intro j hj
  have hne : j ≠ i := ne_of_mem_of_not_mem hj hi
  exact Function.update_of_ne hne _ _

namespace Matching.Sound

variable {pos : Position} {price size : ℚ} {m : Matching} {i : ℕ} {rest : List ℕ}

theorem sum_posLots (h : m.lots.Perm m.held) (f : Lot → ℚ) :
    (m.posLots.map f).sum = ((m.lots.map m.heap).map f).sum :=
  (((h.map m.heap).map f).sum_eq).symm

theorem notMem (h : Matching.Sound pos price size m) (hlots : m.lots = i :: rest) :
    i ∉ rest := by
  have hnodup := h.perm.nodup_iff.mpr h.nodup
  rw [hlots] at hnodup
  exact (List.nodup_cons.mp hnodup).1

theorem pos_of_ne (h : Matching.Sound pos price size m) (timestamp : ℤ) {j : ℕ}
    (hj : j ∈ m.held) (hne : j ≠ i) :
    0 < ((m.fill price timestamp i rest).heap j).size := by
  simp only [fill, Function.update_of_ne hne]
  exact h.size_pos j hj

theorem held_fill (h : Matching.Sound pos price size m) (timestamp : ℤ) :
    (m.fill price timestamp i rest).held =
      if ((m.fill price timestamp i rest).heap i).size = 0 then m.held.erase i
      else m.held := by
  by_cases hempty : ((m.fill price timestamp i rest).heap i).size = 0
  · rw [if_pos hempty, ← eraseP_eq_erase hempty fun j hj hne => h.pos_of_ne timestamp hj hne]
    exact if_pos hempty
  · rw [if_neg hempty]
    exact if_neg hempty

theorem perm_fill (h : Matching.Sound pos price size m) (timestamp : ℤ)
    (hlots : m.lots = i :: rest) :
    (m.fill price timestamp i rest).lots.Perm (m.fill price timestamp i rest).held := by
  have hperm : (i :: rest).Perm m.held := hlots ▸ h.perm
  rw [h.held_fill timestamp]
  by_cases hempty : ((m.fill price timestamp i rest).heap i).size = 0
  · rw [if_pos hempty, show (m.fill price timestamp i rest).lots = rest from if_pos hempty]
    simpa using hperm.erase i
  · rw [if_neg hempty, show (m.fill price timestamp i rest).lots = i :: rest from if_neg hempty]
    exact hperm

/-- A sum over the lots changes by what it changes on the lot in turn. -/
theorem sum_fill (h : Matching.Sound pos price size m) (timestamp : ℤ)
    (hlots : m.lots = i :: rest) (f : Lot → ℚ) (hzero : ∀ lot : Lot, lot.size = 0 → f lot = 0) :
    ((m.fill price timestamp i rest).posLots.map f).sum + f (m.heap i) =
      (m.posLots.map f).sum + f ((m.fill price timestamp i rest).heap i) := by
  have hrest : rest.map (m.fill price timestamp i rest).heap = rest.map m.heap :=
    map_update_of_notMem m.heap (h.notMem hlots) _
  rw [sum_posLots (h.perm_fill timestamp hlots), sum_posLots h.perm, hlots]
  by_cases hempty : ((m.fill price timestamp i rest).heap i).size = 0
  · rw [show (m.fill price timestamp i rest).lots = rest from if_pos hempty, hrest,
      hzero _ hempty]
    simp only [List.map_cons, List.sum_cons]
    ring
  · rw [show (m.fill price timestamp i rest).lots = i :: rest from if_neg hempty]
    simp only [List.map_cons, List.sum_cons, hrest]
    ring

theorem fill (h : Matching.Sound pos price size m) (timestamp : ℤ)
    (hlots : m.lots = i :: rest) :
    Matching.Sound pos price size (m.fill price timestamp i rest) := by
  have hheap : (m.fill price timestamp i rest).heap i =
      { m.heap i with size := (m.heap i).size - min m.remaining (m.heap i).size } := by
    simp [Matching.fill]
  have hsize := h.sum_fill timestamp hlots Lot.size fun _ hzero => hzero
  have hcost := h.sum_fill timestamp hlots Lot.cost fun lot hzero => by simp [Lot.cost, hzero]
  rw [hheap] at hsize hcost
  constructor
  · exact h.perm_fill timestamp hlots
  · rw [h.held_fill timestamp]
    split_ifs
    · exact h.nodup.erase i
    · exact h.nodup
  · intro j hj
    have hmem : j ∈ m.held := by
      rw [h.held_fill timestamp] at hj
      split_ifs at hj
      · exact List.mem_of_mem_erase hj
      · exact hj
    by_cases hne : j = i
    · subst hne
      -- a lot that was emptied is no longer there
      have hleft : ((m.fill price timestamp j rest).heap j).size ≠ 0 := by
        intro hempty
        rw [h.held_fill timestamp, if_pos hempty] at hj
        exact h.nodup.not_mem_erase hj
      apply lt_of_le_of_ne _ hleft.symm
      rw [hheap]
      exact sub_nonneg.mpr (min_le_right _ _)
    · exact h.pos_of_ne timestamp hmem hne
  · exact sub_nonneg.mpr (min_le_left _ _)
  · have := h.totalSize_eq
    simp only [Matching.fill] at hsize ⊢
    linarith
  · have := h.totalCost_eq
    simp only [Matching.fill, Lot.cost, entryCost_append] at hcost ⊢
    simp only [entryCost, List.map_cons, List.map_nil, List.sum_cons, List.sum_nil] at this ⊢
    linarith
  · have := h.profit_eq
    simp only [Matching.fill, profit_append, entryCost_append]
    simp only [profit, entryCost, List.map_cons, List.map_nil, List.sum_cons, List.sum_nil]
      at this ⊢
    linarith

theorem matchLots (h : Matching.Sound pos price size m) (timestamp : ℤ) :
    Matching.Sound pos price size (Pnl.matchLots price timestamp m) := by
  fun_induction Pnl.matchLots price timestamp m with
  | case1 m hremaining hlots => exact h
  | case2 m hremaining i rest hlots hless ih => exact ih (h.fill timestamp hlots)
  | case3 m hremaining => exact h

end Matching.Sound

theorem matchLots_done (price : ℚ) (timestamp : ℤ) (m : Matching) :
    (matchLots price timestamp m).remaining ≤ 0 ∨ (matchLots price timestamp m).lots = [] := by
  fun_induction matchLots price timestamp m with
  | case1 m hremaining hlots => exact .inr hlots
  | case2 m hremaining i rest hlots hless ih => exact ih
  | case3 m hremaining => exact .inl (not_lt.mp hremaining)

theorem orderedLots_perm (method : CostBasisMethod) (heap : ℕ → Lot) (held : List ℕ) :
    (orderedLots method heap held).Perm held := by
  cases method with
  | FIFO => exact List.perm_insertionSort _ held
  | LIFO => exact List.perm_insertionSort _ held
  | AVERAGE => exact List.Perm.refl held

theorem startMatching_posLots (method : CostBasisMethod) (pos : Position) (size : ℚ) :
    (startMatching method pos size).posLots = pos.lots := by
  apply List.ext_getElem
  · simp [startMatching, Matching.posLots]
  · intro i hi hi'
    simp [startMatching, Matching.posLots, List.getD, hi']

theorem startMatching_sound (method : CostBasisMethod) {pos : Position} (price : ℚ) {size : ℚ}
    (hpos : ∀ lot ∈ pos.lots, 0 < lot.size) (hsize : 0 ≤ size) :
    Matching.Sound pos price size (startMatching method pos size) := by
  constructor
  · exact orderedLots_perm method _ _
  · exact List.nodup_range
  · intro i hi
    have hi' : i < pos.lots.length := List.mem_range.mp hi
    simpa [startMatching, List.getD, hi'] using hpos _ (List.getElem_mem hi')
  · exact hsize
  · rw [startMatching_posLots, Position.totalSize]
    simp [startMatching]
  · rw [startMatching_posLots, Position.totalCost]
    simp [startMatching]
  · simp [startMatching]

/-- Nothing remains to be sold, since the lots hold enough. -/
theorem Matching.Sound.remaining_eq_zero {pos : Position} {price size : ℚ} {m : Matching}
    (h : Matching.Sound pos price size m) (hdone : m.remaining ≤ 0 ∨ m.lots = [])
    (hsize : size ≤ pos.totalSize) : m.remaining = 0 := by
  apply le_antisymm _ h.remaining_nonneg
  rcases hdone with hdone | hdone
  · exact hdone
  · have hheld : m.held = [] := by
      have := h.perm
      rw [hdone] at this
      exact this.nil_eq.symm
    have htotal := h.totalSize_eq
    rw [Matching.posLots, hheld] at htotal
    simp only [List.map_nil, List.sum_nil] at htotal
    linarith

theorem sale_matchLots (method : CostBasisMethod) {pos : Position} {price size : ℚ}
    (timestamp : ℤ) (hpos : ∀ lot ∈ pos.lots, 0 < lot.size) (hsize : 0 ≤ size)
    (hheld : size ≤ pos.totalSize) :
    Sale pos
      { pos with
        lots := (matchLots price timestamp (startMatching method pos size)).posLots
        realized := pos.realized ++
          (matchLots price timestamp (startMatching method pos size)).realized }
      price size := by
  have h := (startMatching_sound method price hpos hsize).matchLots timestamp
  have hzero := h.remaining_eq_zero (matchLots_done price timestamp _) hheld
  -- from here on only what holds of the matching at its end
  generalize matchLots price timestamp (startMatching method pos size) = m at h hzero
  have hsizes := h.totalSize_eq
  have hcosts := h.totalCost_eq
  have hprofit := h.profit_eq
  rw [hzero] at hsizes hprofit
  constructor
  · rw [Position.totalSize]
    linarith
  · simp only [Position.totalCost, entryCost_append] at hcosts ⊢
    linarith
  · simp only [profit_append, entryCost_append]
    linarith
  · intro lot hlot
    obtain ⟨i, hi, rfl⟩ := List.mem_map.mp hlot
    exact h.size_pos i hi

/-! ### Lots reduced in proportion -/

theorem sum_scaled (f : Lot → ℚ) (ratio : ℚ)
    (hf : ∀ lot : Lot, f { lot with size := lot.size * ratio } = f lot * ratio)
    (lots : List Lot) :
    ((lots.map fun lot => { lot with size := lot.size * ratio }).map f).sum =
      (lots.map f).sum * ratio := by
  induction lots with
  | nil => simp
  | cons lot lots ih =>
    simp only [List.map_cons, List.sum_cons, hf] at ih ⊢
    rw [ih]
    ring

/-- The lots that are filtered out count for nothing. -/
theorem sum_filter_pos (f : Lot → ℚ) (hzero : ∀ lot : Lot, lot.size = 0 → f lot = 0)
    {lots : List Lot} (hlots : ∀ lot ∈ lots, 0 ≤ lot.size) :
    ((lots.filter fun lot => 0 < lot.size).map f).sum = (lots.map f).sum := by
  induction lots with
  | nil => rfl
  | cons lot lots ih =>
    have ih := ih fun lot' hlot' => hlots lot' (List.mem_cons_of_mem _ hlot')
    by_cases hpos : 0 < lot.size
    · rw [List.filter_cons_of_pos (by simpa using hpos), List.map_cons, List.map_cons,
        List.sum_cons, List.sum_cons, ih]
    · have hsize : lot.size = 0 := le_antisymm (not_lt.mp hpos) (hlots lot List.mem_cons_self)
      rw [List.filter_cons_of_neg (by simpa using hpos), List.map_cons, List.sum_cons,
        hzero lot hsize, ih, zero_add]

theorem sale_sellAverage {pos : Position} {price size : ℚ} (timestamp : ℤ)
    (hpos : ∀ lot ∈ pos.lots, 0 < lot.size) (hsize : 0 < size)
    (hheld : size ≤ pos.totalSize) :
    Sale pos
      { pos with
        lots := (sellAverage pos price size timestamp).1
        realized := pos.realized ++ (sellAverage pos price size timestamp).2 }
      price size := by
  have htotal : 0 < pos.totalSize := hsize.trans_le hheld
  have hne : pos.totalSize ≠ 0 := htotal.ne'
  let ratio := (pos.totalSize - size) / pos.totalSize
  have hratio : 0 ≤ ratio := div_nonneg (sub_nonneg.mpr hheld) htotal.le
  let scaled := pos.lots.map fun lot => { lot with size := lot.size * ratio }
  have hscaled : ∀ lot ∈ scaled, 0 ≤ lot.size := by
    intro lot hlot
    obtain ⟨lot', hlot', rfl⟩ := List.mem_map.mp hlot
    exact mul_nonneg (hpos lot' hlot').le hratio
  have hlots : (sellAverage pos price size timestamp).1 =
      scaled.filter fun lot => 0 < lot.size := by
    simp only [sellAverage, if_pos htotal]
    rfl
  have hrealized : (sellAverage pos price size timestamp).2 =
      [{ lotEntryPrice := pos.totalCost / pos.totalSize
         exitPrice := price
         size
         pnl := (price - pos.totalCost / pos.totalSize) * size
         lotTimestamp := (pos.lots.head?.map Lot.timestamp).getD timestamp
         exitTimestamp := timestamp }] := by
    simp only [sellAverage, Position.avgEntryPrice, if_neg hne]
  -- both sums are scaled by the ratio; the average entry price makes the record fit
  have hsizes : ((scaled.filter fun lot => 0 < lot.size).map Lot.size).sum =
      pos.totalSize * ratio := by
    rw [sum_filter_pos Lot.size (fun _ h => h) hscaled, Position.totalSize]
    exact sum_scaled Lot.size ratio (fun _ => rfl) pos.lots
  have hcosts : ((scaled.filter fun lot => 0 < lot.size).map Lot.cost).sum =
      pos.totalCost * ratio := by
    rw [sum_filter_pos Lot.cost (fun _ h => by simp [Lot.cost, h]) hscaled, Position.totalCost]
    exact sum_scaled Lot.cost ratio (fun lot => by simp only [Lot.cost]; ring) pos.lots
  rw [hlots, hrealized]
  constructor
  · rw [Position.totalSize, hsizes]
    simp only [ratio]
    field_simp
  · rw [Position.totalCost, hcosts, entryCost_append]
    simp only [entryCost, List.map_cons, List.map_nil, List.sum_cons, List.sum_nil, ratio]
    field_simp
    ring
  · simp only [profit_append, entryCost_append]
    simp only [profit, entryCost, List.map_cons, List.map_nil, List.sum_cons, List.sum_nil]
    ring
  · intro lot hlot
    simpa using (List.mem_filter.mp hlot).2

theorem sale_sellPosition (method : CostBasisMethod) {pos : Position} {price size : ℚ}
    (timestamp : ℤ) (hpos : ∀ lot ∈ pos.lots, 0 < lot.size) (hsize : 0 < size)
    (hheld : size ≤ pos.totalSize) :
    Sale pos (PnLEngine.sellPosition method pos price size timestamp).1 price size := by
  cases method with
  | FIFO => exact sale_matchLots .FIFO timestamp hpos hsize.le hheld
  | LIFO => exact sale_matchLots .LIFO timestamp hpos hsize.le hheld
  | AVERAGE => exact sale_sellAverage timestamp hpos hsize hheld

/-! ### Runs of calls -/

structure Trade where
  symbol : String
  price : ℚ
  size : ℚ
  timestamp : ℤ
  price_pos : 0 < price
  size_pos : 0 < size

inductive Call where
  | addBuy (trade : Trade) (lotId : Option String)
  | addSell (trade : Trade)

namespace Call

def symbol : Call → String
  | addBuy trade _ => trade.symbol
  | addSell trade => trade.symbol

def bought : Call → ℚ
  | addBuy trade _ => trade.size
  | addSell _ => 0

def sold : Call → ℚ
  | addBuy _ _ => 0
  | addSell trade => trade.size

def spent : Call → ℚ
  | addBuy trade _ => trade.price * trade.size
  | addSell _ => 0

def proceeds : Call → ℚ
  | addBuy _ _ => 0
  | addSell trade => trade.price * trade.size

end Call

/-- The sum of `f` over the calls for one symbol. -/
def total (f : Call → ℚ) (symbol : String) (calls : List Call) : ℚ :=
  ((calls.filter fun c => c.symbol = symbol).map f).sum

namespace PnLEngine

def call (engine : PnLEngine) : Call → PnLEngine
  | .addBuy t lotId => (engine.addBuy t.symbol t.price t.size t.timestamp lotId).1
  | .addSell t => (engine.addSell t.symbol t.price t.size t.timestamp).1

def Accepts (engine : PnLEngine) : Call → Prop
  | .addBuy _ _ => True
  | .addSell t =>
    ∃ realized, (engine.addSell t.symbol t.price t.size t.timestamp).2 = .ok realized

end PnLEngine

/-- The engine after a sequence of calls. -/
def run (method : CostBasisMethod) (calls : List Call) : PnLEngine :=
  calls.foldl PnLEngine.call (PnLEngine.new method)

def AllAccepted (method : CostBasisMethod) (calls : List Call) : Prop :=
  ∀ earlier c, earlier ++ [c] <+: calls → (run method earlier).Accepts c

theorem total_append (f : Call → ℚ) (symbol : String) (calls : List Call) (c : Call) :
    total f symbol (calls ++ [c]) =
      total f symbol calls + if c.symbol = symbol then f c else 0 := by
  by_cases hsymbol : c.symbol = symbol <;> simp [total, hsymbol]

@[simp] theorem getPosition_new (method : CostBasisMethod) (symbol : String) :
    (PnLEngine.new method).getPosition symbol = ⟨symbol, [], []⟩ := rfl

theorem getPosition_setPosition (engine : PnLEngine) (symbol symbol' : String)
    (pos : Position) :
    (engine.setPosition symbol pos).getPosition symbol' =
      if symbol' = symbol then pos else engine.getPosition symbol' := by
  by_cases hsymbol : symbol' = symbol
  · subst hsymbol
    simp [PnLEngine.setPosition, PnLEngine.getPosition]
  · simp [PnLEngine.setPosition, PnLEngine.getPosition, hsymbol]

theorem accepts_addSell_iff (engine : PnLEngine) (trade : Trade) :
    engine.Accepts (.addSell trade) ↔
      trade.size ≤ (engine.getPosition trade.symbol).totalSize := by
  rw [← not_lt]
  by_cases hsize : (engine.getPosition trade.symbol).totalSize < trade.size
  · simp [PnLEngine.Accepts, PnLEngine.addSell, hsize]
  · simp [PnLEngine.Accepts, PnLEngine.addSell, hsize]

theorem addSell_of_accepts {engine : PnLEngine} {trade : Trade}
    (h : engine.Accepts (.addSell trade)) :
    engine.call (.addSell trade) = engine.setPosition trade.symbol
      (PnLEngine.sellPosition engine.method (engine.getPosition trade.symbol) trade.price
        trade.size trade.timestamp).1 := by
  have hsize := (accepts_addSell_iff engine trade).mp h
  simp [PnLEngine.call, PnLEngine.addSell, hsize.not_gt]

/-- A rejected sell changes no position. -/
theorem addSell_of_exceeds {engine : PnLEngine} {symbol : String} (price : ℚ) {size : ℚ}
    (timestamp : ℤ) (h : (engine.getPosition symbol).totalSize < size) :
    (engine.addSell symbol price size timestamp).2 =
        .error ⟨size, (engine.getPosition symbol).totalSize, symbol⟩ ∧
      ∀ symbol', (engine.addSell symbol price size timestamp).1.getPosition symbol' =
        engine.getPosition symbol' := by
  simp only [PnLEngine.addSell, gt_iff_lt, if_pos h, true_and]
  intro symbol'
  rw [getPosition_setPosition]
  split_ifs with hsymbol
  · rw [hsymbol]
  · rfl

/-- The books of one symbol balance after `calls`. -/
structure Balanced (calls : List Call) (symbol : String) (pos : Position) : Prop where
  totalSize_eq : pos.totalSize = total Call.bought symbol calls - total Call.sold symbol calls
  totalCost_eq : pos.totalCost + entryCost pos.realized = total Call.spent symbol calls
  profit_eq : profit pos.realized + entryCost pos.realized = total Call.proceeds symbol calls
  size_pos : ∀ lot ∈ pos.lots, 0 < lot.size

/-- What is realized and what is not add up to a number that no cost basis enters. -/
theorem Balanced.profit_eq_of {calls : List Call} {symbol : String} {pos : Position}
    (h : Balanced calls symbol pos) (currentPrice : ℚ) :
    pos.totalRealizedPnl + pos.totalUnrealizedPnl currentPrice =
      total Call.proceeds symbol calls - total Call.spent symbol calls +
        currentPrice * (total Call.bought symbol calls - total Call.sold symbol calls) := by
  have hprofit := h.profit_eq
  have hcost := h.totalCost_eq
  rw [Position.totalUnrealizedPnl_eq, ← h.totalSize_eq]
  change profit pos.realized + _ = _
  linarith

theorem Balanced.buy {calls : List Call} {pos : Position} {trade : Trade}
    (h : Balanced calls trade.symbol pos) (lotId : Option String) :
    Balanced (calls ++ [.addBuy trade lotId]) trade.symbol
      { pos with lots := pos.lots ++ [⟨trade.price, trade.size, trade.timestamp, lotId⟩] } := by
  have hsize := h.totalSize_eq
  have hcost := h.totalCost_eq
  constructor
  · simp only [Position.totalSize, total_append, Call.symbol, Call.bought, Call.sold,
      List.map_append, List.sum_append, List.map_cons, List.map_nil, List.sum_cons, List.sum_nil,
      if_true] at hsize ⊢
    linarith
  · simp only [Position.totalCost, total_append, Call.symbol, Call.spent, Lot.cost,
      List.map_append, List.sum_append, List.map_cons, List.map_nil, List.sum_cons, List.sum_nil,
      if_true] at hcost ⊢
    linarith
  · simpa [total_append, Call.proceeds] using h.profit_eq
  · intro lot hlot
    rcases List.mem_append.mp hlot with hlot | hlot
    · exact h.size_pos lot hlot
    · obtain rfl := List.mem_singleton.mp hlot
      exact trade.size_pos

theorem Balanced.sell {calls : List Call} {pos pos' : Position} {trade : Trade}
    (h : Balanced calls trade.symbol pos) (hsale : Sale pos pos' trade.price trade.size) :
    Balanced (calls ++ [.addSell trade]) trade.symbol pos' := by
  constructor
  · rw [hsale.totalSize_eq, h.totalSize_eq, total_append, total_append]
    simp only [Call.symbol, Call.bought, Call.sold, if_true]
    ring
  · rw [hsale.totalCost_eq, h.totalCost_eq, total_append]
    simp [Call.spent]
  · rw [hsale.profit_eq, h.profit_eq, total_append]
    simp [Call.symbol, Call.proceeds]
  · exact hsale.size_pos

/-- A call for another symbol. -/
theorem Balanced.other {calls : List Call} {symbol : String} {pos : Position} {c : Call}
    (h : Balanced calls symbol pos) (hsymbol : c.symbol ≠ symbol) :
    Balanced (calls ++ [c]) symbol pos := by
  constructor
  · simpa [total_append, hsymbol] using h.totalSize_eq
  · simpa [total_append, hsymbol] using h.totalCost_eq
  · simpa [total_append, hsymbol] using h.profit_eq
  · exact h.size_pos

theorem Balanced.call {calls : List Call} {engine : PnLEngine}
    (h : ∀ symbol, Balanced calls symbol (engine.getPosition symbol)) {c : Call}
    (hc : engine.Accepts c) (symbol : String) :
    Balanced (calls ++ [c]) symbol ((engine.call c).getPosition symbol) := by
  cases c with
  | addBuy trade lotId =>
    rw [PnLEngine.call, PnLEngine.addBuy, getPosition_setPosition]
    split_ifs with hsymbol
    · subst hsymbol
      exact (h trade.symbol).buy lotId
    · exact (h symbol).other (Ne.symm hsymbol)
  | addSell trade =>
    rw [addSell_of_accepts hc, getPosition_setPosition]
    split_ifs with hsymbol
    · subst hsymbol
      exact (h trade.symbol).sell (sale_sellPosition _ _ (h trade.symbol).size_pos
        trade.size_pos ((accepts_addSell_iff engine trade).mp hc))
    · exact (h symbol).other (Ne.symm hsymbol)

theorem AllAccepted.of_append {method : CostBasisMethod} {calls : List Call} {c : Call}
    (h : AllAccepted method (calls ++ [c])) :
    AllAccepted method calls ∧ (run method calls).Accepts c := by
  constructor
  · intro earlier c' hpre
    exact h earlier c' (hpre.trans (List.prefix_append _ _))
  · exact h calls c (List.prefix_refl _)

theorem AllAccepted.concat {method : CostBasisMethod} {calls : List Call} {c : Call}
    (h : AllAccepted method calls) (hc : (run method calls).Accepts c) :
    AllAccepted method (calls ++ [c]) := by
  intro earlier c' hpre
  rcases List.prefix_concat_iff.mp hpre with heq | hpre
  · obtain ⟨rfl, rfl⟩ := List.append_singleton_inj.mp heq
    exact hc
  · exact h earlier c' hpre

theorem allAccepted_nil (method : CostBasisMethod) : AllAccepted method [] := by
  intro earlier c hpre
  simp at hpre

theorem balanced_run {method : CostBasisMethod} {calls : List Call}
    (h : AllAccepted method calls) (symbol : String) :
    Balanced calls symbol ((run method calls).getPosition symbol) := by
  induction calls using List.reverseRecOn generalizing symbol with
  | nil =>
    refine ⟨(sub_zero 0).symm, add_zero 0, add_zero 0, ?_⟩
    intro _ hlot
    exact absurd hlot List.not_mem_nil
  | append_singleton calls c ih =>
    obtain ⟨hcalls, hc⟩ := h.of_append
    rw [run, List.foldl_append]
    exact Balanced.call (ih hcalls) hc symbol

/-- Whether a sell is accepted does not depend on the method. -/
theorem AllAccepted.of_method {method : CostBasisMethod} {calls : List Call}
    (h : AllAccepted method calls) (method' : CostBasisMethod) : AllAccepted method' calls := by
  induction calls using List.reverseRecOn with
  | nil => exact allAccepted_nil method'
  | append_singleton calls c ih =>
    obtain ⟨hcalls, hc⟩ := h.of_append
    apply (ih hcalls).concat
    -- a sell is judged by the size held, which both methods conserve
    cases c with
    | addBuy trade lotId => exact trivial
    | addSell trade =>
      rw [accepts_addSell_iff] at hc ⊢
      rw [(balanced_run (ih hcalls) trade.symbol).totalSize_eq]
      rwa [(balanced_run hcalls trade.symbol).totalSize_eq] at hc

/-- Size and cost are conserved, and with them the profit, whatever the method. -/
theorem run_conserves :
    (∀ method calls, AllAccepted method calls → ∀ symbol,
      Balanced calls symbol ((run method calls).getPosition symbol) ∧
        ∀ method', AllAccepted method' calls ∧ ∀ currentPrice,
          ((run method' calls).getPosition symbol).totalRealizedPnl +
              ((run method' calls).getPosition symbol).totalUnrealizedPnl currentPrice =
            ((run method calls).getPosition symbol).totalRealizedPnl +
              ((run method calls).getPosition symbol).totalUnrealizedPnl currentPrice) ∧
      ∀ (engine : PnLEngine) symbol price size timestamp,
        (engine.getPosition symbol).totalSize < size →
          (engine.addSell symbol price size timestamp).2 =
              .error ⟨size, (engine.getPosition symbol).totalSize, symbol⟩ ∧
            ∀ symbol', (engine.addSell symbol price size timestamp).1.getPosition symbol' =
              engine.getPosition symbol' := by
  constructor
  · intro method calls haccepted symbol
    have hbalanced := balanced_run haccepted symbol
    refine ⟨hbalanced, ?_⟩
    -- the profit follows from the calls alone, so that it is the same for all methods
    intro method'
    have haccepted' := haccepted.of_method method'
    refine ⟨haccepted', ?_⟩
    intro currentPrice
    rw [(balanced_run haccepted' symbol).profit_eq_of, hbalanced.profit_eq_of]
  · intro engine symbol price size timestamp hexceeds
    exact addSell_of_exceeds price timestamp hexceeds

/-- Ten bought at 100, ten at 200, and 15 sold at 150. -/
def btcCalls : List Call :=
  [.addBuy ⟨"BTC", 100, 10, 1, by norm_num, by norm_num⟩ (some "1"),
   .addBuy ⟨"BTC", 200, 10, 2, by norm_num, by norm_num⟩ (some "2"),
   .addSell ⟨"BTC", 150, 15, 3, by norm_num, by norm_num⟩]

theorem btcCalls_accepted : AllAccepted .FIFO btcCalls := by
  have hbuy : AllAccepted .FIFO (btcCalls.take 1) := (allAccepted_nil .FIFO).concat trivial
  have hbuys : AllAccepted .FIFO (btcCalls.take 2) := hbuy.concat trivial
  apply hbuys.concat
  rw [accepts_addSell_iff]
  decide +kernel

theorem btcCalls_conserve :
    Balanced btcCalls "BTC" ((run .FIFO btcCalls).getPosition "BTC") ∧
      (∀ currentPrice,
        ((run .AVERAGE btcCalls).getPosition "BTC").totalRealizedPnl +
            ((run .AVERAGE btcCalls).getPosition "BTC").totalUnrealizedPnl currentPrice =
          ((run .FIFO btcCalls).getPosition "BTC").totalRealizedPnl +
            ((run .FIFO btcCalls).getPosition "BTC").totalUnrealizedPnl currentPrice) ∧
      ∀ symbol, ((run .FIFO btcCalls).addSell "BTC" 150 6 4).1.getPosition symbol =
        (run .FIFO btcCalls).getPosition symbol := by
  have h := run_conserves.1 .FIFO btcCalls btcCalls_accepted "BTC"
  refine ⟨h.1, (h.2 .AVERAGE).2, ?_⟩
  exact (run_conserves.2 (run .FIFO btcCalls) "BTC" 150 6 4 (by decide +kernel)).2

example : ((run .LIFO btcCalls).getPosition "BTC").lots = [⟨100, 5, 1, some "1"⟩] := by
  decide +kernel

end TradeStream.Pnl
