import Mathlib

/-! Lists whose elements are of two kinds in turn, and their pairs. -/
namespace TradeStream.AlternatingLists

variable {α : Type*} {first second : α → Prop} {l : List α}

variable (first second) in
/-- The elements are of the first kind at even positions, and of the second at odd ones. -/
def Alternates (l : List α) : Prop :=
  ∀ i a, l[i]? = some a → if i % 2 = 0 then first a else second a

theorem alternates_nil : Alternates first second [] := by
  intro i a h
  simp at h

theorem alternates_concat (a : α) :
    Alternates first second (l ++ [a]) ↔
      Alternates first second l ∧ if l.length % 2 = 0 then first a else second a := by
  constructor
  · intro h
    constructor
    · intro i b hi
      refine h i b ?_
      rw [List.getElem?_append_left (List.getElem?_eq_some_iff.mp hi).1]
      exact hi
    · exact h l.length a (by simp)
  · rintro ⟨hl, ha⟩ i b hi
    rcases lt_or_ge i l.length with hlt | hge
    · rw [List.getElem?_append_left hlt] at hi
      exact hl i b hi
    · rw [List.getElem?_append_right hge] at hi
      obtain ⟨hzero, rfl⟩ : i - l.length = 0 ∧ a = b := by
        simpa [List.getElem?_singleton] using hi
      obtain rfl : i = l.length := by omega
      exact ha

section Count
variable [DecidablePred first] [DecidablePred second]

/-- The first kind comes as often as the second, or once more at an odd length. -/
theorem Alternates.countP_eq (h : Alternates first second l)
    (hdisjoint : ∀ a, first a → ¬ second a) :
    l.countP (fun a => first a) = (l.length + 1) / 2 ∧
      l.countP (fun a => second a) = l.length / 2 := by
  induction l using List.reverseRecOn with
  | nil => simp
  | append_singleton l a ih =>
    obtain ⟨hl, ha⟩ := (alternates_concat a).mp h
    obtain ⟨hfirst, hsecond⟩ := ih hl
    simp only [List.countP_append, hfirst, hsecond, List.countP_singleton, List.length_append,
      List.length_singleton, decide_eq_true_eq]
    split_ifs at ha with heven
    · simp only [ha, hdisjoint a ha, if_true, if_false]
      omega
    · have hnot : ¬ first a := fun hfirst => hdisjoint a hfirst ha
      simp only [ha, hnot, if_true, if_false]
      omega

end Count

/-- The elements two by two; a last one without a partner is left out. -/
def pairs : List α → List (α × α)
  | a :: b :: rest => (a, b) :: pairs rest
  | _ => []

theorem pairs_append_of_even (h : l.length % 2 = 0) (l' : List α) :
    pairs (l ++ l') = pairs l ++ pairs l' := by
  induction l using pairs.induct with
  | case1 a b rest ih =>
    have hrest : rest.length % 2 = 0 := by
      simp only [List.length_cons] at h
      omega
    simp only [List.cons_append, pairs, ih hrest]
  | case2 l hl =>
    match l with
    | [] => rfl
    | [a] => simp at h
    | a :: b :: rest => exact absurd rfl (hl a b rest)

theorem pairs_concat_of_even (h : l.length % 2 = 0) (a : α) : pairs (l ++ [a]) = pairs l := by
  rw [pairs_append_of_even h]
  exact List.append_nil _

theorem pairs_concat_concat (h : l.length % 2 = 0) (a b : α) :
    pairs (l ++ [a] ++ [b]) = pairs l ++ [(a, b)] := by
  rw [List.append_assoc, pairs_append_of_even h]
  rfl

end TradeStream.AlternatingLists
