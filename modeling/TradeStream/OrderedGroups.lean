import Mathlib

/-! Lists ordered by a key, cut into the groups of equal key. -/
namespace TradeStream.OrderedGroups

variable {α ι : Type*} [LinearOrder ι] (f : α → ι)

theorem flatMap_filter_cons (ms : List ι) (hms : ms.Pairwise (· < ·)) (a : α) (l : List α)
    (ha : f a ∈ ms) (hl : ∀ b ∈ l, f a ≤ f b) :
    (ms.flatMap fun m => (a :: l).filter fun b => f b = m) =
      a :: ms.flatMap fun m => l.filter fun b => f b = m := by
  induction ms with
  | nil => simp at ha
  | cons m ms ih =>
    obtain ⟨hm, hms⟩ := List.pairwise_cons.mp hms
    rw [List.flatMap_cons, List.flatMap_cons]
    by_cases he : f a = m
    · have hrest : (ms.flatMap fun m => (a :: l).filter fun b => f b = m) =
          ms.flatMap fun m => l.filter fun b => f b = m := by
        apply List.flatMap_congr
        intro k hk
        exact List.filter_cons_of_neg (by simpa [he] using (hm k hk).ne)
      rw [hrest, List.filter_cons_of_pos (by simpa using he), List.cons_append]
    · have hk : f a ∈ ms := (List.mem_cons.mp ha).resolve_left he
      -- The keys of `l` start at `f a`, beyond the group of `m`.
      have hnil : l.filter (fun b => f b = m) = [] := by
        apply List.filter_eq_nil_iff.mpr
        intro b hb
        simpa using ((hm _ hk).trans_le (hl b hb)).ne'
      rw [List.filter_cons_of_neg (by simpa using he), hnil, ih hms hk, List.nil_append,
        List.nil_append]

/-- The groups of an ordered list, put one after another in the order of their
keys, give the list back. -/
theorem flatMap_filter_eq (l : List α) (hl : l.Pairwise fun a b => f a ≤ f b) (ms : List ι)
    (hms : ms.Pairwise (· < ·)) (hcover : ∀ a ∈ l, f a ∈ ms) :
    (ms.flatMap fun m => l.filter fun b => f b = m) = l := by
  induction l with
  | nil => simp
  | cons a l ih =>
    obtain ⟨ha, hl⟩ := List.pairwise_cons.mp hl
    rw [flatMap_filter_cons f ms hms a l (hcover a List.mem_cons_self) ha,
      ih hl fun b hb => hcover b (List.mem_cons_of_mem _ hb)]

end TradeStream.OrderedGroups
