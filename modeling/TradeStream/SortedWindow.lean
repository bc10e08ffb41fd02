import Mathlib

/-! A sorted list of bounded length that makes room by dropping its least element. It holds
the largest elements of what was inserted, not the latest. -/
namespace TradeStream.SortedWindow
open scoped List

variable {α : Type*} [LinearOrder α]

/-- Insert, and drop the least element of a list that is then too long. -/
def insertBounded (k : ℕ) (l : List α) (a : α) : List α :=
  let l := l.orderedInsert (· ≤ ·) a
  if k < l.length then l.tail else l

theorem drop_orderedInsert_succ {l : List α} (hl : l.Pairwise (· ≤ ·)) (a : α) (d : ℕ) :
    (l.orderedInsert (· ≤ ·) a).drop (d + 1) = ((l.drop d).orderedInsert (· ≤ ·) a).tail := by
  induction l generalizing d with
  | nil => simp
  | cons b l ih =>
    obtain ⟨hb, hl⟩ := List.pairwise_cons.mp hl
    cases d with
    | zero => simp
    | succ d =>
      rw [List.drop_succ_cons, ← ih hl, List.orderedInsert_cons]
      split_ifs with hab
      · -- the new element comes first in the whole list and in its tail
        have hfirst : l.orderedInsert (· ≤ ·) a = a :: l := by
          cases l with
          | nil => rfl
          | cons c l => exact List.orderedInsert_cons_of_le _ l (hab.trans (hb c (by simp)))
        rw [hfirst, List.drop_succ_cons, List.drop_succ_cons, List.drop_succ_cons]
      · rw [List.drop_succ_cons]

theorem insertionSort_concat (l : List α) (a : α) :
    (l ++ [a]).insertionSort (· ≤ ·) =
      (l.insertionSort (· ≤ ·)).orderedInsert (· ≤ ·) a := by
  have hperm : (l ++ [a]).insertionSort (· ≤ ·) ~
      (l.insertionSort (· ≤ ·)).orderedInsert (· ≤ ·) a := calc
    (l ++ [a]).insertionSort (· ≤ ·) ~ l ++ [a] := List.perm_insertionSort _ _
    _ ~ a :: l := List.perm_append_singleton a l
    _ ~ a :: l.insertionSort (· ≤ ·) := (List.perm_insertionSort _ l).symm.cons a
    _ ~ (l.insertionSort (· ≤ ·)).orderedInsert (· ≤ ·) a :=
      (List.perm_orderedInsert _ a _).symm
  exact hperm.eq_of_pairwise' (List.pairwise_insertionSort _ _)
    ((List.pairwise_insertionSort _ l).orderedInsert a _)

/-- The list holds the `k` largest of what was inserted. -/
theorem foldl_insertBounded (k : ℕ) (l : List α) :
    l.foldl (insertBounded k) [] = (l.insertionSort (· ≤ ·)).drop (l.length - k) := by
  induction l using List.reverseRecOn with
  | nil => simp
  | append_singleton l a ih =>
    have hsorted := List.pairwise_insertionSort (· ≤ ·) l
    rw [List.foldl_append, ih, insertionSort_concat, List.length_append, List.length_singleton]
    simp only [List.foldl_cons, List.foldl_nil, insertBounded, List.orderedInsert_length,
      List.length_drop, List.length_insertionSort]
    split_ifs with hfull
    · rw [← drop_orderedInsert_succ hsorted]
      congr 1
      omega
    · have hroom : l.length + 1 - k = 0 := by omega
      have hroom' : l.length - k = 0 := by omega
      rw [hroom, hroom', List.drop_zero, List.drop_zero]

/-- The same from a list that is already held. -/
theorem foldl_insertBounded_of_pairwise {k : ℕ} {held : List α} (hheld : held.Pairwise (· ≤ ·))
    (hk : held.length ≤ k) (l : List α) :
    l.foldl (insertBounded k) held =
      ((held ++ l).insertionSort (· ≤ ·)).drop (held.length + l.length - k) := by
  have hfirst : held.foldl (insertBounded k) [] = held := by
    rw [foldl_insertBounded, hheld.insertionSort_eq, Nat.sub_eq_zero_of_le hk, List.drop_zero]
  calc
    l.foldl (insertBounded k) held = (held ++ l).foldl (insertBounded k) [] := by
      rw [List.foldl_append, hfirst]
    _ = _ := by rw [foldl_insertBounded, List.length_append]

/-- A place of a sorted list is above a bound exactly if so many of its elements are. -/
theorem lt_getElem_iff {l : List α} (hl : l.Pairwise (· ≤ ·)) (a : α) {i : ℕ}
    (hi : i < l.length) : a < l[i] ↔ l.length - i ≤ l.countP (a < ·) := by
  constructor
  · -- everything from that place on is above
    intro ha
    have hall : ∀ b ∈ l.drop i, a < b := by
      intro b hb
      obtain ⟨j, hj, rfl⟩ := List.mem_iff_getElem.mp hb
      rw [List.getElem_drop]
      exact ha.trans_le (hl.rel_get_of_le (a := ⟨i, hi⟩) (b := ⟨i + j, _⟩) (by simp))
    calc
      l.length - i = (l.drop i).length := List.length_drop.symm
      _ = (l.drop i).countP (a < ·) := by
        rw [eq_comm, List.countP_eq_length]
        simpa using hall
      _ ≤ l.countP (a < ·) := (List.drop_sublist i l).countP_le
  · -- otherwise nothing up to that place is, and too few are left
    intro hcount
    by_contra ha
    have hnone : (l.take (i + 1)).countP (a < ·) = 0 := by
      rw [List.countP_eq_zero]
      intro b hb
      obtain ⟨j, hj, rfl⟩ := List.mem_iff_getElem.mp hb
      rw [List.getElem_take]
      have hji : j ≤ i := by
        rw [List.length_take] at hj
        omega
      have hjl : j < l.length := hji.trans_lt hi
      have hle : l[j] ≤ l[i] := hl.rel_get_of_le (a := ⟨j, hjl⟩) (b := ⟨i, hi⟩) hji
      simpa using hle.trans (not_lt.mp ha)
    have hsplit : l.countP (a < ·) = (l.drop (i + 1)).countP (a < ·) := by
      conv_lhs => rw [← List.take_append_drop (i + 1) l, List.countP_append, hnone, zero_add]
    have hle : (l.drop (i + 1)).countP (a < ·) ≤ (l.drop (i + 1)).length := List.countP_le_length
    rw [List.length_drop] at hle
    omega

/-- What is dropped of a sorted list is a part of it, sorted, exactly if all the rest is
at most as large. -/
theorem drop_insertionSort_append_iff (old recent : List α) :
    ((old ++ recent).insertionSort (· ≤ ·)).drop old.length = recent.insertionSort (· ≤ ·) ↔
      ∀ x ∈ old, ∀ y ∈ recent, x ≤ y := by
  have hsorted := List.pairwise_insertionSort (· ≤ ·) (old ++ recent)
  constructor
  · -- what is dropped is then the old part, and stands before the recent one
    intro h x hx y hy
    have hsplit := List.take_append_drop old.length ((old ++ recent).insertionSort (· ≤ ·))
    rw [h] at hsplit
    have hperm : ((old ++ recent).insertionSort (· ≤ ·)).take old.length ~ old := by
      apply (List.perm_append_right_iff recent).mp
      calc
        _ ~ ((old ++ recent).insertionSort (· ≤ ·)).take old.length ++
            recent.insertionSort (· ≤ ·) :=
          ((List.perm_insertionSort _ recent).append_left _).symm
        _ = (old ++ recent).insertionSort (· ≤ ·) := hsplit
        _ ~ old ++ recent := List.perm_insertionSort _ _
    rw [← hsplit] at hsorted
    exact (List.pairwise_append.mp hsorted).2.2 x (hperm.mem_iff.mpr hx) y
      ((List.mem_insertionSort _).mpr hy)
  · -- the two parts sorted one after the other are sorted, and there is one such list
    intro h
    have hperm : (old ++ recent).insertionSort (· ≤ ·) ~
        old.insertionSort (· ≤ ·) ++ recent.insertionSort (· ≤ ·) := calc
      _ ~ old ++ recent := List.perm_insertionSort _ _
      _ ~ _ := ((List.perm_insertionSort _ old).symm.append (List.perm_insertionSort _ recent).symm)
    have hparts : (old.insertionSort (· ≤ ·) ++ recent.insertionSort (· ≤ ·)).Pairwise
        (· ≤ ·) := by
      refine List.pairwise_append.mpr ⟨List.pairwise_insertionSort _ _,
        List.pairwise_insertionSort _ _, ?_⟩
      intro x hx y hy
      exact h x ((List.mem_insertionSort _).mp hx) y ((List.mem_insertionSort _).mp hy)
    rw [hperm.eq_of_pairwise' hsorted hparts]
    exact List.drop_left' (List.length_insertionSort _ old)

/-- The end of a sorted list is, place by place, at least as large as any of its sublists. -/
theorem forall₂_le_drop_of_sublist {w l : List α} (h : w <+ l) (hl : l.Pairwise (· ≤ ·)) :
    List.Forall₂ (· ≤ ·) w (l.drop (l.length - w.length)) := by
  induction h with
  | slnil => exact .nil
  | @cons w l a h ih =>
    have hlen := h.length_le
    have hdrop : (a :: l).length - w.length = l.length - w.length + 1 := by
      rw [List.length_cons]
      omega
    rw [hdrop, List.drop_succ_cons]
    exact ih (List.pairwise_cons.mp hl).2
  | @cons_cons w l a h ih =>
    obtain ⟨ha, hl⟩ := List.pairwise_cons.mp hl
    have hlen := h.length_le
    -- if nothing is missing from the tail, nothing is dropped
    rcases hlen.eq_or_lt with heq | hlt
    · rw [h.eq_of_length heq]
      simp [List.forall₂_same]
    · obtain ⟨d, hd⟩ : ∃ d, l.length - w.length = d + 1 := ⟨l.length - w.length - 1, by omega⟩
      have hbound : d < l.length := by omega
      have ih := ih hl
      rw [hd] at ih
      rw [List.length_cons, List.length_cons, Nat.add_sub_add_right, hd, List.drop_succ_cons,
        List.drop_eq_getElem_cons hbound]
      exact .cons (ha _ (List.getElem_mem hbound)) ih

/-- The first `n` of an ascending list are those with fewer than `n` below them. -/
theorem mem_take_iff {β : Type*} {f : β → α} {l : List β}
    (hl : l.Pairwise fun a b => f a < f b) (b : β) (n : ℕ) :
    b ∈ l.take n ↔ b ∈ l ∧ l.countP (fun a => f a < f b) < n := by
  induction l generalizing n with
  | nil => simp
  | cons a l ih =>
    obtain ⟨ha, hl⟩ := List.pairwise_cons.mp hl
    cases n with
    | zero => simp
    | succ n =>
      rw [List.take_succ_cons, List.mem_cons, List.mem_cons, ih hl, List.countP_cons]
      by_cases hb : b ∈ l
      · have hne : b ≠ a := by
          rintro rfl
          exact (ha b hb).false
        simp [hb, hne, ha b hb]
      · simp only [hb, false_and, or_false]
        refine (and_iff_left_of_imp ?_).symm
        rintro rfl
        have hnone : l.countP (fun c => f c < f b) = 0 := by
          refine List.countP_eq_zero.mpr fun c hc => ?_
          simpa using (ha c hc).le
        simp [hnone]

end TradeStream.SortedWindow
