import Mathlib

/-! Weighted means of lists: between which bounds they lie, and what they owe to one element. -/
namespace TradeStream.WeightedMean

variable {α K : Type*} [Field K] {l : List α} {value weight : α → K} {lo hi : K}

/-- The sum with one element replaced. -/
theorem sum_map_set {i : ℕ} {a : α} (h : l[i]? = some a) (f : α → K) (b : α) :
    ((l.set i b).map f).sum = (l.map f).sum + (f b - f a) := by
  obtain ⟨hlt, rfl⟩ := List.getElem?_eq_some_iff.mp h
  rw [List.map_set, List.sum_set', dif_pos (by rwa [List.length_map]), List.getElem_map,
    neg_add_eq_sub]

/-- An element of the same weight moves the mean by its part of the difference. -/
theorem weighted_average_set (value weight : α → K) {i : ℕ} {a : α} (h : l[i]? = some a) (b : α)
    (hweight : weight b = weight a) :
    ((l.set i b).map fun a => value a * weight a).sum / ((l.set i b).map weight).sum =
      (l.map fun a => value a * weight a).sum / (l.map weight).sum +
        (value b - value a) * weight a / (l.map weight).sum := by
  rw [sum_map_set h, sum_map_set h, hweight, sub_self, add_zero, ← sub_mul, add_div]

variable [LinearOrder K] [IsStrictOrderedRing K]

/-- A weighted sum lies between two bounds of what it weighs, each times the weight. -/
theorem weighted_sum_bounds (hweight : ∀ a ∈ l, 0 ≤ weight a) (hlo : ∀ a ∈ l, lo ≤ value a)
    (hhi : ∀ a ∈ l, value a ≤ hi) :
    lo * (l.map weight).sum ≤ (l.map fun a => value a * weight a).sum ∧
      (l.map fun a => value a * weight a).sum ≤ hi * (l.map weight).sum := by
  rw [← List.sum_map_mul_left, ← List.sum_map_mul_left]
  constructor
  · apply List.sum_le_sum
    intro a ha
    exact mul_le_mul_of_nonneg_right (hlo a ha) (hweight a ha)
  · apply List.sum_le_sum
    intro a ha
    exact mul_le_mul_of_nonneg_right (hhi a ha) (hweight a ha)

/-- So does the weighted average, and the simple one with every weight one. -/
theorem weighted_average_bounds (hweight : ∀ a ∈ l, 0 ≤ weight a)
    (htotal : 0 < (l.map weight).sum) (hlo : ∀ a ∈ l, lo ≤ value a)
    (hhi : ∀ a ∈ l, value a ≤ hi) :
    lo ≤ (l.map fun a => value a * weight a).sum / (l.map weight).sum ∧
      (l.map fun a => value a * weight a).sum / (l.map weight).sum ≤ hi := by
  rw [le_div_iff₀ htotal, div_le_iff₀ htotal]
  exact weighted_sum_bounds hweight hlo hhi

theorem simple_average_bounds (hne : l ≠ []) (hlo : ∀ a ∈ l, lo ≤ value a)
    (hhi : ∀ a ∈ l, value a ≤ hi) :
    lo ≤ (l.map value).sum / l.length ∧ (l.map value).sum / l.length ≤ hi := by
  have hcount : (l.map fun _ => (1 : K)).sum = l.length := by simp
  have hpos : (0 : K) < l.length := by
    exact_mod_cast List.length_pos_iff.mpr hne
  have hweight : ∀ a ∈ l, (0 : K) ≤ (fun _ => 1) a := fun _ _ => zero_le_one
  have hbounds := weighted_average_bounds hweight (by rw [hcount]; exact hpos) hlo hhi
  simpa only [mul_one, hcount] using hbounds

end TradeStream.WeightedMean
