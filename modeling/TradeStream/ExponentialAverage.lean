import Mathlib.Algebra.BigOperators.Group.Finset.Basic
import Mathlib.Algebra.BigOperators.Ring.Finset
import Mathlib.Algebra.Order.Field.Basic
import Mathlib.Tactic.Linarith
import Mathlib.Tactic.Ring

/-! Exponential averages of sequences, some of whose terms may be missing. -/
namespace TradeStream.ExponentialAverage

section
variable {K : Type*} [Field K]

/-- The average with one more term. -/
def blend (α : K) : Option K → Option K → Option K
  | none, x => x
  | some y, none => some y
  | some y, some x => some ((1 - α) * y + α * x)

/-- The average of the terms up to `t`. -/
def average (α : K) (f : ℕ → Option K) : ℕ → Option K
  | 0 => f 0
  | t + 1 => blend α (average α f t) (f (t + 1))

/-- The average of a sequence with all of its terms. -/
def smooth (α : K) (x : ℕ → K) : ℕ → K
  | 0 => x 0
  | t + 1 => (1 - α) * smooth α x t + α * x (t + 1)

/-- What the terms up to `t` weigh there. -/
def weighted (α : K) (x : ℕ → K) (t : ℕ) : K :=
  ∑ j ∈ Finset.range (t + 1), (1 - α) ^ (t - j) * x j

theorem average_some (α : K) (x : ℕ → K) (t : ℕ) :
    average α (fun i => some (x i)) t = some (smooth α x t) := by
  induction t with
  | zero => rfl
  | succ t ih =>
    rw [average, ih]
    rfl

theorem smooth_add (α : K) (x y : ℕ → K) (t : ℕ) :
    smooth α (fun i => x i + y i) t = smooth α x t + smooth α y t := by
  induction t with
  | zero => rfl
  | succ t ih =>
    rw [smooth, smooth, smooth, ih]
    ring

theorem weighted_succ (α : K) (x : ℕ → K) (t : ℕ) :
    weighted α x (t + 1) = (1 - α) * weighted α x t + x (t + 1) := by
  rw [weighted, Finset.sum_range_succ, Nat.sub_self, pow_zero, one_mul, weighted, Finset.mul_sum]
  congr 1
  apply Finset.sum_congr rfl
  intro j hj
  have hle : j ≤ t := Nat.le_of_lt_succ (Finset.mem_range.mp hj)
  rw [Nat.succ_sub hle, pow_succ]
  ring

/-- For a sequence that begins with zero. -/
theorem smooth_eq_weighted (α : K) {x : ℕ → K} (hzero : x 0 = 0) (t : ℕ) :
    smooth α x t = α * weighted α x t := by
  induction t with
  | zero => simp [smooth, weighted, hzero]
  | succ t ih =>
    rw [smooth, ih, weighted_succ]
    ring

theorem average_eq_none_iff (α : K) (f : ℕ → Option K) (t : ℕ) :
    average α f t = none ↔ ∀ j ≤ t, f j = none := by
  induction t with
  | zero => simp [average]
  | succ t ih =>
    have hblend : ∀ y x : Option K, blend α y x = none ↔ y = none ∧ x = none := by
      intro y x
      cases y <;> cases x <;> simp [blend]
    rw [average, hblend, ih]
    constructor
    · rintro ⟨hbefore, hlast⟩ j hj
      rcases Nat.le_succ_iff.mp hj with hle | rfl
      · exact hbefore j hle
      · exact hlast
    · intro h
      exact ⟨fun j hj => h j (hj.trans t.le_succ), h (t + 1) le_rfl⟩

theorem average_congr (α : K) {f g : ℕ → Option K} {t : ℕ} (h : ∀ j ≤ t, f j = g j) :
    average α f t = average α g t := by
  induction t with
  | zero => exact h 0 le_rfl
  | succ t ih =>
    rw [average, average, ih fun j hj => h j (hj.trans t.le_succ), h (t + 1) le_rfl]

/-- The last term can be read off the averages. -/
theorem blend_inj {α : K} (hα : α ≠ 0) {y x x' : Option K} (hx : x ≠ none) (hx' : x' ≠ none)
    (h : blend α y x = blend α y x') : x = x' := by
  obtain ⟨a, rfl⟩ := Option.ne_none_iff_exists'.mp hx
  obtain ⟨b, rfl⟩ := Option.ne_none_iff_exists'.mp hx'
  cases y with
  | none => exact h
  | some y =>
    have heq : (1 - α) * y + α * a = (1 - α) * y + α * b := Option.some.inj h
    rw [mul_left_cancel₀ hα (add_left_cancel heq)]

/-- From a first term on, neither sequence has one missing. -/
def KnownSince (f g : ℕ → Option K) (t : ℕ) : Prop :=
  ∃ first ≤ t, (∀ j < first, f j = none ∧ g j = none) ∧
    ∀ j, first ≤ j → j ≤ t → f j ≠ none ∧ g j ≠ none

/-- The averages are the same just where the terms are. -/
theorem average_eq_iff {α : K} (hα : α ≠ 0) (f g : ℕ → Option K) (n : ℕ) :
    (∀ t < n, KnownSince f g t → average α f t = average α g t) ↔
      ∀ t < n, KnownSince f g t → f t = g t := by
  constructor
  · rintro h t ht ⟨first, hfirst, hbefore, hsince⟩
    have heq := h t ht ⟨first, hfirst, hbefore, hsince⟩
    obtain ⟨hf, hg⟩ := hsince t hfirst le_rfl
    cases t with
    | zero => exact heq
    | succ t =>
      rcases Nat.le_succ_iff.mp hfirst with hle | rfl
      · have hlast := h t (Nat.lt_of_succ_lt ht) ⟨first, hle, hbefore,
          fun j hj hjt => hsince j hj (hjt.trans t.le_succ)⟩
        rw [average, average, hlast] at heq
        exact blend_inj hα hf hg heq
      · -- the first term is its own average
        have hnone := (average_eq_none_iff α f t).mpr fun j hj =>
          (hbefore j (Nat.lt_succ_of_le hj)).1
        have hnone' := (average_eq_none_iff α g t).mpr fun j hj =>
          (hbefore j (Nat.lt_succ_of_le hj)).2
        rw [average, average, hnone, hnone'] at heq
        exact heq
  · rintro h t ht ⟨first, hfirst, hbefore, hsince⟩
    apply average_congr
    intro j hj
    rcases Nat.lt_or_ge j first with hlt | hge
    · rw [(hbefore j hlt).1, (hbefore j hlt).2]
    · exact h j (hj.trans_lt ht) ⟨first, hge, hbefore, fun i hi hij => hsince i hi (hij.trans hj)⟩

end

section
variable {K : Type*} [Field K] [LinearOrder K] [IsStrictOrderedRing K] {α : K}

theorem average_between (hα : 0 ≤ α) (hα' : α ≤ 1) {f : ℕ → Option K} {lo hi : K}
    (h : ∀ t, ∀ x ∈ f t, lo ≤ x ∧ x ≤ hi) (t : ℕ) : ∀ x ∈ average α f t, lo ≤ x ∧ x ≤ hi := by
  induction t with
  | zero => exact h 0
  | succ t ih =>
    intro x hx
    rw [average] at hx
    cases hlast : average α f t with
    | none =>
      rw [hlast] at hx
      exact h (t + 1) x hx
    | some y =>
      obtain ⟨hlo, hhi⟩ := ih y hlast
      have hrest : 0 ≤ 1 - α := sub_nonneg.mpr hα'
      cases hterm : f (t + 1) with
      | none =>
        rw [hlast, hterm] at hx
        obtain rfl := Option.some.inj hx
        exact ⟨hlo, hhi⟩
      | some z =>
        obtain ⟨hlo', hhi'⟩ := h (t + 1) z hterm
        rw [hlast, hterm] at hx
        obtain rfl : (1 - α) * y + α * z = x := Option.some.inj hx
        have hleft := mul_le_mul_of_nonneg_left hlo hrest
        have hright := mul_le_mul_of_nonneg_left hlo' hα
        have hleft' := mul_le_mul_of_nonneg_left hhi hrest
        have hright' := mul_le_mul_of_nonneg_left hhi' hα
        constructor <;> linarith

theorem smooth_le (hα : 0 ≤ α) (hα' : α ≤ 1) {x y : ℕ → K} (h : ∀ t, x t ≤ y t) (t : ℕ) :
    smooth α x t ≤ smooth α y t := by
  induction t with
  | zero => exact h 0
  | succ t ih =>
    have hleft := mul_le_mul_of_nonneg_left ih (sub_nonneg.mpr hα')
    have hright := mul_le_mul_of_nonneg_left (h (t + 1)) hα
    exact add_le_add hleft hright

theorem smooth_nonneg (hα : 0 ≤ α) (hα' : α ≤ 1) {x : ℕ → K} (h : ∀ t, 0 ≤ x t) (t : ℕ) :
    0 ≤ smooth α x t := by
  induction t with
  | zero => exact h 0
  | succ t ih =>
    exact add_nonneg (mul_nonneg (sub_nonneg.mpr hα') ih) (mul_nonneg hα (h (t + 1)))

/-- Averages are zero up to a place just where the terms are. -/
theorem smooth_eq_zero_iff (hα : 0 < α) {x : ℕ → K} (n : ℕ) :
    (∀ t < n, smooth α x t = 0) ↔ ∀ t < n, x t = 0 := by
  constructor
  · intro h t ht
    have hsmooth := h t ht
    cases t with
    | zero => exact hsmooth
    | succ t =>
      rw [smooth, h t (Nat.lt_of_succ_lt ht), mul_zero, zero_add] at hsmooth
      exact (mul_eq_zero.mp hsmooth).resolve_left hα.ne'
  · intro h t ht
    induction t with
    | zero => exact h 0 ht
    | succ t ih =>
      rw [smooth, ih (Nat.lt_of_succ_lt ht), h (t + 1) ht, mul_zero, mul_zero, add_zero]

end

end TradeStream.ExponentialAverage
