import TradeStream.PnlConservation

/-! The order in which a sell works off the lots. They are sorted by their timestamps, the
latest first for LIFO, and lots of one timestamp keep the order of the buys either way. -/
namespace TradeStream.Pnl
open scoped List

/-! ### The rounds of a sell -/

/-- `C` holds of every lot that the loop of `add_sell` comes to. -/
def EachLot (price : ℚ) (timestamp : ℤ) (C : Matching → ℕ → Prop) (m : Matching) : Prop :=
  if hremaining : 0 < m.remaining then
    match hlots : m.lots with
    | [] => True
    | i :: rest =>
      have := Matching.roundsLeft_fill_lt price timestamp hlots hremaining
      C m i ∧ EachLot price timestamp C (m.fill price timestamp i rest)
  else True
termination_by m.roundsLeft

/-- Of the lots that `R` puts first, none has size left when this one's turn comes. -/
def NoneLeft (R : ℕ → ℕ → Prop) (m : Matching) (i : ℕ) : Prop :=
  ∀ j ∈ m.held, R i j → ¬ 0 < (m.heap j).size

section
variable {pos : Position} {price size : ℚ} {m : Matching} {R : ℕ → ℕ → Prop}

theorem noneLeft_iff (h : Matching.Sound pos price size m) {i : ℕ} {rest : List ℕ}
    (hlots : m.lots = i :: rest) (hR : ¬ R i i) :
    NoneLeft R m i ↔ ∀ j ∈ rest, ¬ R i j := by
  have hmem : ∀ j, j ∈ m.held ↔ j = i ∨ j ∈ rest := by
    intro j
    rw [← h.perm.mem_iff, hlots, List.mem_cons]
  constructor
  · intro hnone j hj hij
    have hheld := (hmem j).mpr (Or.inr hj)
    exact hnone j hheld hij (h.size_pos j hheld)
  · intro hrest j hj hij
    rcases (hmem j).mp hj with rfl | hj
    · exact absurd hij hR
    · exact absurd hij (hrest j hj)

theorem sum_sizes_nonneg (h : Matching.Sound pos price size m) {l : List ℕ}
    (hl : ∀ k ∈ l, k ∈ m.lots) : 0 ≤ (l.map fun k => (m.heap k).size).sum := by
  apply List.sum_nonneg
  intro x hx
  obtain ⟨k, hk, rfl⟩ := List.mem_map.mp hx
  exact (h.size_pos k (h.perm.mem_iff.mp (hl k hk))).le

/-- A lot that is not larger than what remains is emptied, and the loop goes on. -/
theorem fill_of_le (price : ℚ) (timestamp : ℤ) {i : ℕ} (rest : List ℕ)
    (hle : (m.heap i).size ≤ m.remaining) :
    (m.fill price timestamp i rest).lots = rest ∧
      (m.fill price timestamp i rest).remaining = m.remaining - (m.heap i).size := by
  simp [Matching.fill, min_eq_right hle]

/-- A larger lot covers what remains. -/
theorem fill_of_lt (price : ℚ) (timestamp : ℤ) {i : ℕ} (rest : List ℕ)
    (hlt : m.remaining < (m.heap i).size) :
    (m.fill price timestamp i rest).remaining = 0 := by
  simp [Matching.fill, min_eq_left hlt.le]

theorem fill_heap_of_ne (price : ℚ) (timestamp : ℤ) {i j : ℕ} (rest : List ℕ) (hne : j ≠ i) :
    (m.fill price timestamp i rest).heap j = m.heap j := Function.update_of_ne hne _ _

/-- The places at which a list with a first element is cut. -/
theorem forall_cut_cons_iff {i : ℕ} {rest : List ℕ} {P : List ℕ → ℕ → List ℕ → Prop} :
    (∀ before k after, i :: rest = before ++ k :: after → P before k after) ↔
      P [] i rest ∧
        ∀ before k after, rest = before ++ k :: after → P (i :: before) k after := by
  constructor
  · intro hall
    refine ⟨hall [] i rest rfl, fun before k after heq => hall (i :: before) k after ?_⟩
    rw [heq, List.cons_append]
  · rintro ⟨hfirst, hothers⟩ before k after heq
    cases before with
    | nil =>
      obtain ⟨rfl, rfl⟩ := List.cons.inj heq
      exact hfirst
    | cons b before =>
      obtain ⟨rfl, htail⟩ := List.cons.inj heq
      exact hothers before k after htail

/-- The lots before a later one hold this one's size and, of the others, what they held. -/
theorem fill_sum_lt_iff (h : Matching.Sound pos price size m) (timestamp : ℤ) {i : ℕ}
    {rest : List ℕ} (hlots : m.lots = i :: rest) {before after : List ℕ} {k : ℕ}
    (heq : rest = before ++ k :: after) {remaining : ℚ} :
    (before.map fun k => ((m.fill price timestamp i rest).heap k).size).sum <
        remaining - (m.heap i).size ↔
      ((i :: before).map fun k => (m.heap k).size).sum < remaining := by
  have hsizes : before.map (fun k => ((m.fill price timestamp i rest).heap k).size) =
      before.map fun k => (m.heap k).size := by
    apply List.map_congr_left
    intro j hj
    have hne : j ≠ i := by
      rintro rfl
      exact h.notMem hlots (by simp [heq, hj])
    rw [fill_heap_of_ne price timestamp rest hne]
  rw [hsizes, lt_sub_iff_add_lt', List.map_cons, List.sum_cons]

/-- The loop comes to the lots before which less is held than is to be sold. -/
theorem eachLot_iff (h : Matching.Sound pos price size m) (timestamp : ℤ) (hR : ∀ i, ¬ R i i) :
    EachLot price timestamp (NoneLeft R) m ↔
      ∀ before i after, m.lots = before ++ i :: after →
        (before.map fun k => (m.heap k).size).sum < m.remaining → ∀ j ∈ after, ¬ R i j := by
  fun_induction EachLot price timestamp (NoneLeft R) m with
  | case1 m hremaining hlots =>
    refine iff_of_true trivial ?_
    intro before i after heq
    rw [hlots] at heq
    exact absurd heq (by simp)
  | case2 m hremaining i rest hlots hless ih =>
    rw [noneLeft_iff h hlots (hR i), ih (h.fill timestamp hlots), hlots, forall_cut_cons_iff]
    have hfirst : (([] : List ℕ).map fun k => (m.heap k).size).sum < m.remaining := hremaining
    refine and_congr (imp_iff_right hfirst).symm ?_
    rcases le_or_gt (m.heap i).size m.remaining with hle | hlt
    · -- the lot is emptied: the loop comes to the same lots of the rest
      obtain ⟨hrest, hleft⟩ := fill_of_le price timestamp rest hle
      rw [hrest, hleft]
      refine forall_congr' fun before => forall_congr' fun k => forall_congr' fun after =>
        forall_congr' fun heq => ?_
      rw [fill_sum_lt_iff h timestamp hlots heq]
    · -- nothing remains, and no other lot would be come to
      have hleft := fill_of_lt price timestamp rest hlt
      rw [hleft]
      constructor
      · intro _ before k after heq hsum
        have hnonneg : 0 ≤ (before.map fun k => (m.heap k).size).sum := by
          apply sum_sizes_nonneg h
          intro j hj
          simp [hlots, heq, hj]
        rw [List.map_cons, List.sum_cons] at hsum
        linarith
      · intro _ before k after heq hsum
        have hnonneg := sum_sizes_nonneg (h.fill timestamp hlots) (l := before) fun j hj => by
          simp [heq, hj]
        exact absurd hsum hnonneg.not_gt
  | case3 m hremaining =>
    refine iff_of_true trivial ?_
    intro before i after heq hsum
    have hnonneg := sum_sizes_nonneg h (l := before) fun j hj => by simp [heq, hj]
    exact absurd (hnonneg.trans_lt hsum) hremaining

end

/-! ### Sorting -/

/-- Two entries of a list without repetition stand in one order only. -/
theorem not_sublist_swap {l : List ℕ} (hl : l.Nodup) {i j : ℕ} (hij : [i, j] <+ l) :
    ¬ [j, i] <+ l := by
  intro hji
  obtain ⟨l₁, l₂, heq, hi, hj⟩ := List.cons_sublist_iff.mp hij
  obtain ⟨l₁', l₂', heq', hj', hi'⟩ := List.cons_sublist_iff.mp hji
  rw [List.singleton_sublist] at hj hi'
  have hdisjoint : ∀ x ∈ l₁, x ∉ l₂ := fun x hx hx' =>
    List.disjoint_of_nodup_append (heq ▸ hl) hx hx'
  have hdisjoint' : ∀ x ∈ l₁', x ∉ l₂' := fun x hx hx' =>
    List.disjoint_of_nodup_append (heq' ▸ hl) hx hx'
  rcases List.append_eq_append_iff.mp (heq.symm.trans heq') with ⟨l', rfl, -⟩ | ⟨l', rfl, -⟩
  · exact hdisjoint' i (List.mem_append_left l' hi) hi'
  · exact hdisjoint j (List.mem_append_left l' hj') hj

/-- What is sorted by `r` stays in the order that it was in where `r` does not tell. -/
theorem pairwise_insertionSort_range (r : ℕ → ℕ → Prop) [DecidableRel r] [Std.Total r]
    [IsTrans ℕ r] (n : ℕ) :
    ((List.range n).insertionSort r).Pairwise fun i j => r i j ∧ (r j i → i < j) := by
  have hperm := List.perm_insertionSort r (List.range n)
  have hnodup := hperm.nodup_iff.mpr List.nodup_range
  apply List.pairwise_iff_forall_sublist.mpr
  intro i j hij
  have hrij : r i j :=
    List.pairwise_iff_forall_sublist.mp (List.pairwise_insertionSort r (List.range n)) hij
  refine ⟨hrij, ?_⟩
  intro hji
  by_contra hlt
  have hmem : ∀ k ∈ [i, j], k < n := fun k hk =>
    List.mem_range.mp (hperm.mem_iff.mp (hij.subset hk))
  have hne : i ≠ j := by
    rintro rfl
    exact not_sublist_swap hnodup hij hij
  have hle : j ≤ i := by omega
  -- the sort is stable: it keeps the order in which the range has the two
  have hswap : [j, i] <+ List.range n := by
    apply List.sublist_of_subperm_of_pairwise (r := fun x y => x ≤ y)
    · apply List.subperm_of_subset
      · simpa using hne.symm
      · intro k hk
        exact List.mem_range.mpr (hmem k (by simpa [or_comm] using hk))
    · simpa using hle
    · exact List.pairwise_le_range
  exact not_sublist_swap hnodup hij (List.pair_sublist_insertionSort hji hswap)

/-- The entries of later times than one that comes in the list stand before it. -/
theorem filter_later_eq (before : List ℕ) {after : List ℕ} {k : ℕ} {time : ℕ → ℤ} {t : ℤ}
    (hk : time k ≤ t) (hafter : ∀ b ∈ after, time b ≤ time k) :
    (before ++ k :: after).filter (fun b => t < time b) =
      before.filter fun b => t < time b := by
  have hnone : (k :: after).filter (fun b => t < time b) = [] := by
    apply List.filter_eq_nil_iff.mpr
    intro b hb
    rw [decide_eq_true_eq, not_lt]
    rcases List.mem_cons.mp hb with rfl | hb
    · exact hk
    · exact (hafter b hb).trans hk
  rw [List.filter_append, hnone, List.append_nil]

/-- Entries sorted from the latest time down, those of one time from the first up, divide
at a time of theirs: the later ones come first, and those of the time are the next one and
greater ones behind it. -/
theorem exists_first_not_later {l : List ℕ} {time : ℕ → ℤ}
    (hl : l.Pairwise fun i j => time j ≤ time i ∧ (time i ≤ time j → i < j)) {i : ℕ}
    (hi : i ∈ l) :
    ∃ before k after, l = before ++ k :: after ∧
      l.filter (fun b => time i < time b) = before ∧
        ∀ b ∈ l, time b = time i → b = k ∨ b ∈ after ∧ k < b := by
  obtain ⟨k, hfind⟩ : ∃ k, l.find? (fun b => ¬ time i < time b) = some k :=
    Option.isSome_iff_exists.mp (List.find?_isSome.mpr ⟨i, hi, by simp⟩)
  obtain ⟨hk, before, after, heq, hbefore⟩ := List.find?_eq_some_iff_append.mp hfind
  have hk' : time k ≤ time i := by simpa using hk
  have hpair := heq ▸ hl
  rw [List.pairwise_append, List.pairwise_cons] at hpair
  obtain ⟨-, ⟨hafter, -⟩, -⟩ := hpair
  have hfilter : before.filter (fun b => time i < time b) = before := by
    apply List.filter_eq_self.mpr
    intro b hb
    simpa using hbefore b hb
  refine ⟨before, k, after, heq, ?_, ?_⟩
  · rw [heq, filter_later_eq before hk' fun b hb => (hafter b hb).1, hfilter]
  · intro b hb hbtime
    have hnot : b ∉ before := by
      intro hb'
      have hbt := hbefore b hb'
      simp [hbtime] at hbt
    rw [heq] at hb
    rcases List.mem_cons.mp ((List.mem_append.mp hb).resolve_left hnot) with hbk | hb'
    · exact Or.inl hbk
    · exact Or.inr ⟨hb', (hafter b hb').2 (hbtime ▸ hk')⟩

/-- Such a list is worked off from its greatest entry down as far as no time is shared. -/
theorem latestFirst_iff {l : List ℕ} {time : ℕ → ℤ} {sz : ℕ → ℚ} {size : ℚ}
    (hl : l.Pairwise fun i j => time j ≤ time i ∧ (time i ≤ time j → i < j))
    (hmono : ∀ i ∈ l, ∀ j ∈ l, i < j → time i ≤ time j) (hsz : ∀ i ∈ l, 0 ≤ sz i) :
    (∀ before i after, l = before ++ i :: after → (before.map sz).sum < size →
        ∀ j ∈ after, ¬ i < j) ↔
      ∀ i ∈ l, ∀ j ∈ l, i < j → time i = time j →
        size ≤ ((l.filter fun k => time i < time k).map sz).sum := by
  constructor
  · intro hall i hi j hj hij htime
    by_contra hlt
    rw [not_le] at hlt
    -- the sell gets past all later times, to the first entry of the shared one
    obtain ⟨before, k, after, heq, hfilter, hshared⟩ := exists_first_not_later hl hi
    rw [hfilter] at hlt
    have hlast := hall before k after heq hlt
    -- an entry of the shared time behind the first one was bought after it
    have honly : ∀ b ∈ l, time b = time i → b = k := by
      intro b hb hbtime
      rcases hshared b hb hbtime with hbk | ⟨hbehind, hkb⟩
      · exact hbk
      · exact absurd hkb (hlast b hbehind)
    rw [honly i hi rfl, honly j hj htime.symm] at hij
    exact lt_irrefl k hij
  · intro hcond before i after heq hsum j hj hij
    have hpair := heq ▸ hl
    rw [List.pairwise_append, List.pairwise_cons] at hpair
    obtain ⟨-, ⟨hafter, -⟩, -⟩ := hpair
    have hi : i ∈ l := by simp [heq]
    have hj' : j ∈ l := by simp [heq, hj]
    have htime : time i = time j := le_antisymm (hmono i hi j hj' hij) (hafter j hj).1
    -- all that is later than the shared time stands before the first entry of it
    have hsize := hcond i hi j hj' hij htime
    rw [heq, filter_later_eq before le_rfl fun b hb => (hafter b hb).1] at hsize
    have hle : ((before.filter fun k => time i < time k).map sz).sum ≤ (before.map sz).sum := by
      apply List.Sublist.sum_le_sum (List.filter_sublist.map sz)
      intro x hx
      obtain ⟨b, hb, rfl⟩ := List.mem_map.mp hx
      exact hsz b (by simp [heq, hb])
    exact absurd (hsize.trans hle) hsum.not_ge

/-! ### Runs -/

/-- What a lot keeps of its buy when some of it is sold. -/
def Lot.origin (lot : Lot) : ℚ × ℤ × Option String := (lot.entryPrice, lot.timestamp, lot.lotId)

/-- The buys of a symbol, in the order of the calls. -/
def origins (symbol : String) : List Call → List (ℚ × ℤ × Option String)
  | [] => []
  | .addBuy t lotId :: calls =>
    if t.symbol = symbol then (t.price, t.timestamp, lotId) :: origins symbol calls
    else origins symbol calls
  | .addSell _ :: calls => origins symbol calls

theorem origins_append (symbol : String) (calls calls' : List Call) :
    origins symbol (calls ++ calls') = origins symbol calls ++ origins symbol calls' := by
  induction calls with
  | nil => rfl
  | cons c calls ih =>
    cases c with
    | addBuy t lotId =>
      rw [List.cons_append, origins, origins, ih]
      split_ifs
      · rfl
      · rfl
    | addSell t => exact ih

/-- The lots that are held are those bought, without some, in the order of the buys. -/
structure LotsHeld (symbol : String) (calls : List Call) (pos : Position) : Prop where
  origins : pos.lots.map Lot.origin <+ origins symbol calls
  size_pos : ∀ lot ∈ pos.lots, 0 < lot.size

theorem LotsHeld.append {symbol : String} {calls : List Call} {pos : Position}
    (h : LotsHeld symbol calls pos) (calls' : List Call) :
    LotsHeld symbol (calls ++ calls') pos := by
  refine ⟨h.origins.trans ?_, h.size_pos⟩
  rw [origins_append]
  exact List.sublist_append_left _ _

theorem fill_origins (price : ℚ) (timestamp : ℤ) (m : Matching) (i : ℕ) (rest : List ℕ) :
    (m.fill price timestamp i rest).posLots.map Lot.origin <+ m.posLots.map Lot.origin := by
  have hheap : ∀ j, ((m.fill price timestamp i rest).heap j).origin = (m.heap j).origin := by
    intro j
    by_cases hj : j = i
    · subst hj
      simp [Matching.fill, Lot.origin]
    · rw [fill_heap_of_ne price timestamp rest hj]
  have hheld : (m.fill price timestamp i rest).held <+ m.held := by
    simp only [Matching.fill]
    split_ifs
    · exact List.eraseP_sublist
    · exact List.Sublist.refl _
  have hmap : (m.fill price timestamp i rest).posLots.map Lot.origin =
      (m.fill price timestamp i rest).held.map fun j => (m.heap j).origin := by
    rw [Matching.posLots, List.map_map]
    exact List.map_congr_left fun j _ => hheap j
  rw [hmap, Matching.posLots, List.map_map]
  exact hheld.map _

theorem matchLots_origins (price : ℚ) (timestamp : ℤ) (m : Matching) :
    (matchLots price timestamp m).posLots.map Lot.origin <+ m.posLots.map Lot.origin := by
  fun_induction matchLots price timestamp m with
  | case1 m hremaining hlots => exact List.Sublist.refl _
  | case2 m hremaining i rest hlots hless ih =>
    exact ih.trans (fill_origins price timestamp m i rest)
  | case3 m hremaining => exact List.Sublist.refl _

theorem sellAverage_origins (pos : Position) (price size : ℚ) (timestamp : ℤ) :
    (sellAverage pos price size timestamp).1.map Lot.origin <+ pos.lots.map Lot.origin := by
  unfold sellAverage
  dsimp only
  refine (List.filter_sublist.map Lot.origin).trans ?_
  rw [List.map_map]
  exact List.Sublist.refl _

theorem sellPosition_origins (method : CostBasisMethod) (pos : Position) (price size : ℚ)
    (timestamp : ℤ) :
    (PnLEngine.sellPosition method pos price size timestamp).1.lots.map Lot.origin <+
      pos.lots.map Lot.origin := by
  have hmatched : ∀ method, (matchLots price timestamp
      (startMatching method pos size)).posLots.map Lot.origin <+ pos.lots.map Lot.origin := by
    intro method
    have hsub := matchLots_origins price timestamp (startMatching method pos size)
    rwa [startMatching_posLots] at hsub
  cases method with
  | FIFO => exact hmatched .FIFO
  | LIFO => exact hmatched .LIFO
  | AVERAGE => exact sellAverage_origins pos price size timestamp

theorem lotsHeld_call {calls : List Call} {engine : PnLEngine}
    (h : ∀ symbol, LotsHeld symbol calls (engine.getPosition symbol)) (c : Call)
    (symbol : String) : LotsHeld symbol (calls ++ [c]) ((engine.call c).getPosition symbol) := by
  cases c with
  | addBuy trade lotId =>
    rw [PnLEngine.call, PnLEngine.addBuy, getPosition_setPosition]
    split_ifs with hsymbol
    · subst hsymbol
      have hheld := h trade.symbol
      constructor
      · simp only [List.map_append, origins_append, origins, if_true]
        exact hheld.origins.append (List.Sublist.refl _)
      · intro lot hlot
        rcases List.mem_append.mp hlot with hlot | hlot
        · exact hheld.size_pos lot hlot
        · obtain rfl := List.mem_singleton.mp hlot
          exact trade.size_pos
    · exact (h symbol).append _
  | addSell trade =>
    by_cases haccepts : engine.Accepts (.addSell trade)
    · rw [addSell_of_accepts haccepts, getPosition_setPosition]
      split_ifs with hsymbol
      · subst hsymbol
        have hheld := h trade.symbol
        have hsale : Sale _ _ trade.price trade.size :=
          sale_sellPosition engine.method trade.timestamp hheld.size_pos trade.size_pos
            ((accepts_addSell_iff engine trade).mp haccepts)
        refine LotsHeld.append ⟨?_, hsale.size_pos⟩ _
        exact (sellPosition_origins _ _ _ _ _).trans hheld.origins
      · exact (h symbol).append _
    · -- a rejected sell changes no position
      rw [accepts_addSell_iff, not_le] at haccepts
      have hsame := (addSell_of_exceeds trade.price trade.timestamp haccepts).2 symbol
      rw [PnLEngine.call, hsame]
      exact (h symbol).append _

theorem lotsHeld_run (method : CostBasisMethod) (calls : List Call) (symbol : String) :
    LotsHeld symbol calls ((run method calls).getPosition symbol) := by
  induction calls using List.reverseRecOn generalizing symbol with
  | nil => exact ⟨List.Sublist.refl _, fun _ hlot => absurd hlot List.not_mem_nil⟩
  | append_singleton calls c ih =>
    rw [run, List.foldl_append]
    exact lotsHeld_call ih c symbol

/-- The buys of the symbol come with timestamps that do not decrease. -/
def BuysInOrder (symbol : String) (calls : List Call) : Prop :=
  (origins symbol calls).Pairwise fun a b => a.2.1 ≤ b.2.1

theorem LotsHeld.timestamps {symbol : String} {calls : List Call} {pos : Position}
    (h : LotsHeld symbol calls pos) (htimes : BuysInOrder symbol calls) :
    pos.lots.Pairwise fun a b => a.timestamp ≤ b.timestamp := by
  have hsub : (pos.lots.map Lot.origin).Pairwise fun a b => a.2.1 ≤ b.2.1 :=
    List.Pairwise.sublist h.origins htimes
  rwa [List.pairwise_map] at hsub

/-- The lots are consumed in the order of the method: none while one is left that goes
before it, which is one bought later for LIFO and one bought earlier for FIFO. -/
def ConsumesInOrder (method : CostBasisMethod) (pos : Position) (trade : Trade) : Prop :=
  match method with
  | .FIFO => EachLot trade.price trade.timestamp (NoneLeft fun i j => j < i)
      (startMatching .FIFO pos trade.size)
  | .LIFO => EachLot trade.price trade.timestamp (NoneLeft fun i j => i < j)
      (startMatching .LIFO pos trade.size)
  | .AVERAGE => True

/-- What is held of the lots that were bought after a time. -/
def Position.sizeAfter (pos : Position) (time : ℤ) : ℚ :=
  ((pos.lots.filter fun lot => time < lot.timestamp).map Lot.size).sum

/-- The sell does not get down to a timestamp that two lots share. -/
def SharedOutOfReach (pos : Position) (size : ℚ) : Prop :=
  ∀ (i j : ℕ) (lot lot' : Lot), i < j → pos.lots[i]? = some lot → pos.lots[j]? = some lot' →
    lot.timestamp = lot'.timestamp → size ≤ pos.sizeAfter lot.timestamp

section
variable {pos : Position}

/-- The lot of an index, as the sell starts. -/
def lotAt (pos : Position) (i : ℕ) : Lot := pos.lots.getD i default

theorem getElem?_eq_lotAt {i : ℕ} (hi : i < pos.lots.length) :
    pos.lots[i]? = some (lotAt pos i) := by
  simp [lotAt, List.getD, hi]

theorem lotAt_timestamp_le (hpos : pos.lots.Pairwise fun a b => a.timestamp ≤ b.timestamp)
    {i j : ℕ} (hij : i < j) (hj : j < pos.lots.length) :
    (lotAt pos i).timestamp ≤ (lotAt pos j).timestamp := by
  have hi : i < pos.lots.length := by omega
  have hle := List.pairwise_iff_getElem.mp hpos i j hi hj hij
  simpa [lotAt, List.getD, hi, hj] using hle

theorem sum_later_eq_sizeAfter {l : List ℕ} (hl : l ~ List.range pos.lots.length) (t : ℤ) :
    ((l.filter fun k => t < (lotAt pos k).timestamp).map fun k => (lotAt pos k).size).sum =
      pos.sizeAfter t := by
  have hlots : (List.range pos.lots.length).map (lotAt pos) = pos.lots := by
    apply List.ext_getElem
    · simp
    · intro i hi hi'
      simp [lotAt, List.getD, hi']
  have hperm := ((hl.filter fun k => decide (t < (lotAt pos k).timestamp)).map fun k =>
    (lotAt pos k).size).sum_eq
  rw [hperm, Position.sizeAfter]
  conv_rhs => rw [← hlots]
  rw [List.filter_map, List.map_map]
  rfl

/-- Sorted by their timestamps from the first on, the lots are in the order of the buys. -/
theorem consumes_FIFO {trade : Trade} (hpos : ∀ lot ∈ pos.lots, 0 < lot.size)
    (htimes : pos.lots.Pairwise fun a b => a.timestamp ≤ b.timestamp) :
    ConsumesInOrder .FIFO pos trade := by
  have hsound := startMatching_sound .FIFO trade.price hpos trade.size_pos.le
  have hperm : (startMatching .FIFO pos trade.size).lots ~ List.range pos.lots.length := hsound.perm
  have hsorted : (startMatching .FIFO pos trade.size).lots.Pairwise _ :=
    pairwise_insertionSort_range
      (fun i j => (lotAt pos i).timestamp ≤ (lotAt pos j).timestamp) pos.lots.length
  refine (eachLot_iff hsound trade.timestamp ?_).mpr ?_
  · exact fun i => lt_irrefl i
  · intro before i after heq _ j hj hji
    rw [heq, List.pairwise_append, List.pairwise_cons] at hsorted
    have hi : i < pos.lots.length := List.mem_range.mp (hperm.mem_iff.mp (by simp [heq]))
    -- a lot sorted behind this one is of a later time, or of the same time and bought later
    have hij := (hsorted.2.1.1 j hj).2 (lotAt_timestamp_le htimes hji hi)
    exact lt_asymm hij hji

theorem consumes_LIFO_iff {trade : Trade} (hpos : ∀ lot ∈ pos.lots, 0 < lot.size)
    (htimes : pos.lots.Pairwise fun a b => a.timestamp ≤ b.timestamp) :
    ConsumesInOrder .LIFO pos trade ↔ SharedOutOfReach pos trade.size := by
  have hsound := startMatching_sound .LIFO trade.price hpos trade.size_pos.le
  have hperm : (startMatching .LIFO pos trade.size).lots ~ List.range pos.lots.length := hsound.perm
  have hmem : ∀ i, i ∈ (startMatching .LIFO pos trade.size).lots ↔ i < pos.lots.length := by
    intro i
    rw [hperm.mem_iff, List.mem_range]
  have hsorted : (startMatching .LIFO pos trade.size).lots.Pairwise _ :=
    pairwise_insertionSort_range
      (fun i j => (lotAt pos j).timestamp ≤ (lotAt pos i).timestamp) pos.lots.length
  have hlatest := @latestFirst_iff _ _ _ trade.size hsorted
    (fun i _ j hj hij => lotAt_timestamp_le htimes hij ((hmem j).mp hj))
    (fun i hi => (hsound.size_pos i (hsound.perm.mem_iff.mp hi)).le)
  refine ((eachLot_iff hsound trade.timestamp ?_).trans hlatest).trans ?_
  · exact fun i => lt_irrefl i
  · constructor
    · intro h i j lot lot' hij hi hj htime
      obtain ⟨hjlen, -⟩ := List.getElem?_eq_some_iff.mp hj
      have hilen : i < pos.lots.length := by omega
      obtain rfl : lotAt pos i = lot := Option.some.inj ((getElem?_eq_lotAt hilen).symm.trans hi)
      obtain rfl : lotAt pos j = lot' := Option.some.inj ((getElem?_eq_lotAt hjlen).symm.trans hj)
      rw [← sum_later_eq_sizeAfter hperm]
      exact h i ((hmem i).mpr hilen) j ((hmem j).mpr hjlen) hij htime
    · intro h i hi j hj hij htime
      have hsize := h i j _ _ hij (getElem?_eq_lotAt ((hmem i).mp hi))
        (getElem?_eq_lotAt ((hmem j).mp hj)) htime
      rwa [← sum_later_eq_sizeAfter hperm] at hsize

end

/-- Every sell that is accepted after a run of calls: FIFO consumes the lots in the order
of their buys, LIFO in the reverse order just when it does not get down to a timestamp
that two lots share. -/
theorem run_consumesInOrder_iff (method : CostBasisMethod) (calls : List Call) (trade : Trade)
    (htimes : BuysInOrder trade.symbol calls) :
    ConsumesInOrder method ((run method calls).getPosition trade.symbol) trade ↔
      (method = .LIFO →
        SharedOutOfReach ((run method calls).getPosition trade.symbol) trade.size) := by
  have hheld := lotsHeld_run method calls trade.symbol
  have hordered := hheld.timestamps htimes
  cases method with
  | FIFO => exact iff_of_true (consumes_FIFO hheld.size_pos hordered) fun h => by cases h
  | LIFO =>
    rw [consumes_LIFO_iff hheld.size_pos hordered]
    exact ⟨fun h _ => h, fun h => h rfl⟩
  | AVERAGE => exact iff_of_true trivial fun h => by cases h

theorem btcCalls_consumesInOrder_iff :
    ConsumesInOrder .LIFO ((run .LIFO btcCalls).getPosition "BTC")
        ⟨"BTC", 150, 1, 4, by norm_num, by norm_num⟩ ↔
      (CostBasisMethod.LIFO = .LIFO →
        SharedOutOfReach ((run .LIFO btcCalls).getPosition "BTC") 1) :=
  run_consumesInOrder_iff .LIFO btcCalls ⟨"BTC", 150, 1, 4, by norm_num, by norm_num⟩ (by
    change List.Pairwise _ [(100, 1, some "1"), (200, 2, some "2")]
    simp)

theorem hundred_pos : (0 : ℚ) < 100 := by norm_num

theorem twoHundred_pos : (0 : ℚ) < 200 := by norm_num

theorem hundredFifty_pos : (0 : ℚ) < 150 := by norm_num

/-- Five at 100 and then five at 200, both at one time. -/
def tiedCalls : List Call :=
  [.addBuy ⟨"ETH", 100, 5, 1, hundred_pos, by norm_num⟩ none,
   .addBuy ⟨"ETH", 200, 5, 1, twoHundred_pos, by norm_num⟩ none]

def sellSeven : Trade := ⟨"ETH", 150, 7, 3, hundredFifty_pos, by norm_num⟩

/-- Under LIFO the lot that was bought first is consumed first. -/
theorem tiedCalls_not_consumesInOrder :
    ((run .LIFO tiedCalls).addSell "ETH" 150 7 3).2.toOption.map
        (fun realized => realized.map fun r => (r.lotEntryPrice, r.size)) =
        some [(100, 5), (200, 2)] ∧
      ¬ ConsumesInOrder .LIFO ((run .LIFO tiedCalls).getPosition "ETH") sellSeven := by
  refine ⟨by decide +kernel, ?_⟩
  rw [consumes_LIFO_iff]
  · intro hreach
    have hsize := hreach 0 1 ⟨100, 5, 1, none⟩ ⟨200, 5, 1, none⟩ (by norm_num) rfl rfl rfl
    revert hsize
    decide +kernel
  · decide +kernel
  · decide +kernel

end TradeStream.Pnl
