import Mathlib

/-! The running maximum of a list, and how far its elements, or their sums, are below it. -/
namespace TradeStream.RunningMaximum

variable {α : Type*} [LinearOrder α]

/-- The maximum of the elements up to each place. -/
def runningMax : List α → List α
  | [] => []
  | x :: xs => xs.scanl max x

@[simp] theorem length_runningMax (xs : List α) : (runningMax xs).length = xs.length := by
  cases xs with
  | nil => rfl
  | cons x xs => rw [runningMax, List.length_scanl, List.length_cons]

theorem isGreatest_foldl_max (x : α) (xs : List α) :
    IsGreatest {y | y ∈ x :: xs} (xs.foldl max x) := by
  have hmax : (x :: xs).max? = some (xs.foldl max x) := List.max?_cons'
  obtain ⟨hmem, hle⟩ := List.max?_eq_some_iff.mp hmax
  exact ⟨hmem, fun y hy => hle y hy⟩

theorem isGreatest_runningMax (xs : List α) {i : ℕ} (hi : i < (runningMax xs).length) :
    IsGreatest {y | y ∈ xs.take (i + 1)} (runningMax xs)[i] := by
  cases xs with
  | nil => simp [runningMax] at hi
  | cons x xs =>
    have hget : (runningMax (x :: xs))[i] = (xs.take i).foldl max x := List.getElem_scanl hi
    rw [hget, List.take_succ_cons]
    exact isGreatest_foldl_max x _

theorem runningMax_concat (x : α) (xs : List α) (y : α) :
    runningMax (x :: xs ++ [y]) = runningMax (x :: xs) ++ [max (xs.foldl max x) y] := by
  rw [List.cons_append, runningMax, runningMax, List.scanl_append]
  rfl

/-! ### Losses against the maximum -/

section
variable {K : Type*} [Field K] [LinearOrder K]

/-- How far each element is below the maximum so far, as a part of that. -/
def drawdowns (xs : List K) : List K :=
  List.zipWith (fun peak x => (peak - x) / peak) (runningMax xs) xs

/-- What is lost from one place to a later one, or the same. -/
def relativeLosses (xs : List K) : Set K :=
  {loss | ∃ (i j : ℕ) (hij : i ≤ j) (hj : j < xs.length),
    loss = 1 - xs[j] / (xs.get ⟨i, hij.trans_lt hj⟩)}

theorem drawdowns_concat (x : K) (xs : List K) (y : K) :
    drawdowns (x :: xs ++ [y]) =
      drawdowns (x :: xs) ++ [(max (xs.foldl max x) y - y) / max (xs.foldl max x) y] := by
  rw [drawdowns, drawdowns, runningMax_concat, List.zipWith_append (by simp)]
  rfl

theorem drawdowns_cons (x : K) (xs : List K) :
    drawdowns (x :: xs) = 0 :: (drawdowns (x :: xs)).tail := by
  cases xs <;> simp [drawdowns, runningMax]

variable {xs : List K}

theorem mem_drawdowns_iff {loss : K} :
    loss ∈ drawdowns xs ↔ ∃ (j : ℕ) (hj : j < xs.length),
      loss = ((runningMax xs).get ⟨j, by simpa using hj⟩ - xs[j]) /
        (runningMax xs).get ⟨j, by simpa using hj⟩ := by
  rw [drawdowns, List.mem_iff_getElem]
  constructor
  · rintro ⟨j, hj, rfl⟩
    have hj' : j < xs.length := by simpa using hj
    exact ⟨j, hj', by simp⟩
  · rintro ⟨j, hj, rfl⟩
    exact ⟨j, by simpa using hj, by simp⟩

/-- The largest loss is one against the maximum. -/
theorem isGreatest_relativeLosses [IsStrictOrderedRing K] (hpos : ∀ x ∈ xs, 0 < x) {loss : K}
    (h : IsGreatest {d | d ∈ drawdowns xs} loss) : IsGreatest (relativeLosses xs) loss := by
  have hpeak : ∀ (j : ℕ) (hj : j < xs.length), IsGreatest {y | y ∈ xs.take (j + 1)}
      ((runningMax xs).get ⟨j, by simpa using hj⟩) :=
    fun j hj => isGreatest_runningMax xs (by simpa using hj)
  have hpositive : ∀ (j : ℕ) (hj : j < xs.length),
      0 < (runningMax xs).get ⟨j, by simpa using hj⟩ :=
    fun j hj => hpos _ (List.mem_of_mem_take (hpeak j hj).1)
  constructor
  · -- the maximum so far is one of the values so far
    obtain ⟨j, hj, rfl⟩ := mem_drawdowns_iff.mp h.1
    obtain ⟨i, hi, hmax⟩ := List.mem_iff_getElem.mp (hpeak j hj).1
    rw [List.length_take] at hi
    have hij : i ≤ j := by omega
    refine ⟨i, j, hij, hj, ?_⟩
    rw [sub_div, div_self (hpositive j hj).ne', ← hmax]
    simp
  · rintro _ ⟨i, j, hij, hj, rfl⟩
    have hle : xs.get ⟨i, hij.trans_lt hj⟩ ≤ (runningMax xs).get ⟨j, by simpa using hj⟩ := by
      apply (hpeak j hj).2
      have hi : i < (xs.take (j + 1)).length := by
        rw [List.length_take]
        omega
      have hmem := List.getElem_mem hi
      rwa [List.getElem_take] at hmem
    have hloss := h.2 (mem_drawdowns_iff.mpr ⟨j, hj, rfl⟩)
    have hi := hpos _ (List.get_mem xs ⟨i, hij.trans_lt hj⟩)
    have hj' := hpos _ (List.getElem_mem hj)
    rw [sub_div, div_self (hpositive j hj).ne'] at hloss
    have hratio := div_le_div_of_nonneg_left hj'.le hi hle
    linarith

end

/-! ### Losses along sums -/

section
variable {G : Type*} [AddCommGroup G]

/-- The sums of the first elements, zero being that of none. -/
def prefixSums (xs : List G) : Set G := {y | ∃ first, first <+: xs ∧ y = first.sum}

/-- What the last elements lose. -/
def suffixLosses (xs : List G) : Set G := {loss | ∃ last, last <:+ xs ∧ loss = -last.sum}

/-- What consecutive elements lose. -/
def runLosses (xs : List G) : Set G := {loss | ∃ run, run <:+: xs ∧ loss = -run.sum}

variable {xs : List G}

theorem prefixSums_concat (xs : List G) (x : G) :
    prefixSums (xs ++ [x]) = insert (xs ++ [x]).sum (prefixSums xs) := by
  ext y
  constructor
  · rintro ⟨first, hfirst, rfl⟩
    rcases List.prefix_concat_iff.mp hfirst with rfl | hbefore
    · exact Set.mem_insert _ _
    · exact Set.mem_insert_of_mem _ ⟨first, hbefore, rfl⟩
  · rintro (rfl | ⟨first, hfirst, rfl⟩)
    · exact ⟨xs ++ [x], List.prefix_rfl, rfl⟩
    · exact ⟨first, hfirst.trans (List.prefix_append xs [x]), rfl⟩

/-- A run of the longer list ends with its last element, or was there before. -/
theorem runLosses_concat (xs : List G) (x : G) :
    runLosses (xs ++ [x]) = suffixLosses (xs ++ [x]) ∪ runLosses xs := by
  ext loss
  constructor
  · rintro ⟨run, hrun, rfl⟩
    rcases List.infix_concat_iff.mp hrun with hlast | hbefore
    · exact Or.inl ⟨run, hlast, rfl⟩
    · exact Or.inr ⟨run, hbefore, rfl⟩
  · rintro (⟨run, hlast, rfl⟩ | ⟨run, hbefore, rfl⟩)
    · exact ⟨run, hlast.isInfix, rfl⟩
    · exact ⟨run, hbefore.trans (List.infix_append' [] xs [x]), rfl⟩

theorem runLosses_append_subset (xs ys : List G) : runLosses xs ⊆ runLosses (xs ++ ys) := by
  rintro loss ⟨run, hrun, rfl⟩
  exact ⟨run, hrun.trans (List.infix_append' [] xs ys), rfl⟩

/-- What the last elements lose most is what the sum is below its maximum so far. -/
theorem isGreatest_suffixLosses [LinearOrder G] [IsOrderedAddMonoid G] {peak : G}
    (h : IsGreatest (prefixSums xs) peak) : IsGreatest (suffixLosses xs) (peak - xs.sum) := by
  constructor
  · obtain ⟨first, ⟨last, rfl⟩, rfl⟩ := h.1
    refine ⟨last, List.suffix_append first last, ?_⟩
    rw [List.sum_append]
    abel
  · rintro loss ⟨last, ⟨first, rfl⟩, rfl⟩
    have hle : first.sum ≤ peak := h.2 ⟨first, List.prefix_append first last, rfl⟩
    have hloss : -last.sum = first.sum - (first ++ last).sum := by
      rw [List.sum_append]
      abel
    rw [hloss]
    exact sub_le_sub_right hle _

end

end TradeStream.RunningMaximum
