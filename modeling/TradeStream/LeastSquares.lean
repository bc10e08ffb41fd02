import Mathlib

/-! Sums of squares and of products about the means of finitely many values, the line that
they give, and the sign of one such sum from two others. -/
namespace TradeStream.LeastSquares

variable {ι α : Type*} [Field α] [LinearOrder α] [IsStrictOrderedRing α]
variable (s : Finset ι) (x y w : ι → α)

def mean : α := (∑ i ∈ s, x i) / s.card

/-- The sum of the products of the distances from the means. -/
def coSum : α := ∑ i ∈ s, (x i - mean s x) * (y i - mean s y)

/-- The squared error of a line. -/
def residual (a b : α) : α := ∑ i ∈ s, (y i - (a + b * x i)) ^ 2

/-- The line that least squares chooses: any other one fits worse. -/
def IsRegressionLine (a b : α) : Prop :=
  ∀ a' b', (a', b') ≠ (a, b) → residual s x y a b < residual s x y a' b'

variable {s x y w}

theorem coSum_self_nonneg : 0 ≤ coSum s x x :=
  Finset.sum_nonneg fun _ _ => mul_self_nonneg _

theorem sum_sub_mean (hs : s.Nonempty) : ∑ i ∈ s, (x i - mean s x) = 0 := by
  have hcard : (s.card : α) ≠ 0 := by exact_mod_cast hs.card_pos.ne'
  rw [Finset.sum_sub_distrib, Finset.sum_const, nsmul_eq_mul, mean, mul_div_cancel₀ _ hcard,
    sub_self]

/-- Against the values themselves the mean of the other side does not matter. -/
theorem coSum_eq (hs : s.Nonempty) : coSum s x y = ∑ i ∈ s, (x i - mean s x) * y i := by
  have hsplit : ∀ i ∈ s, (x i - mean s x) * (y i - mean s y) =
      (x i - mean s x) * y i - (x i - mean s x) * mean s y := by
    intro i _
    ring
  rw [coSum, Finset.sum_congr rfl hsplit, Finset.sum_sub_distrib, ← Finset.sum_mul,
    sum_sub_mean hs, zero_mul, sub_zero]

theorem coSum_eq_sub (hs : s.Nonempty) :
    coSum s x y = ∑ i ∈ s, x i * y i - mean s x * ∑ i ∈ s, y i := by
  rw [coSum_eq hs, Finset.mul_sum, ← Finset.sum_sub_distrib]
  exact Finset.sum_congr rfl fun i _ => by ring

/-- The error of a line by its slope and by how far it passes from the means. -/
theorem residual_eq (hs : s.Nonempty) (a b : α) :
    residual s x y a b = coSum s y y - 2 * b * coSum s x y + b ^ 2 * coSum s x x +
      s.card * (a + b * mean s x - mean s y) ^ 2 := by
  let c := a + b * mean s x - mean s y
  have hexpand : ∀ i ∈ s, (y i - (a + b * x i)) ^ 2 =
      (y i - mean s y) * (y i - mean s y) -
        2 * b * ((x i - mean s x) * (y i - mean s y)) +
        b ^ 2 * ((x i - mean s x) * (x i - mean s x)) +
        (2 * b * c * (x i - mean s x) - 2 * c * (y i - mean s y) + c ^ 2) := by
    intro i _
    simp only [c]
    ring
  have hcross : ∑ i ∈ s, (2 * b * c * (x i - mean s x) - 2 * c * (y i - mean s y) + c ^ 2) =
      s.card * c ^ 2 := by
    rw [Finset.sum_add_distrib, Finset.sum_sub_distrib, ← Finset.mul_sum, ← Finset.mul_sum,
      sum_sub_mean hs, sum_sub_mean hs, Finset.sum_const, nsmul_eq_mul]
    ring
  rw [residual, Finset.sum_congr rfl hexpand, Finset.sum_add_distrib, hcross,
    Finset.sum_add_distrib, Finset.sum_sub_distrib, ← Finset.mul_sum, ← Finset.mul_sum]
  rfl

/-- Where `x` varies there is one such line. It passes through the means. -/
theorem isRegressionLine (hs : s.Nonempty) (hx : 0 < coSum s x x) :
    IsRegressionLine s x y (mean s y - coSum s x y / coSum s x x * mean s x)
      (coSum s x y / coSum s x x) := by
  intro a b hne
  have hcard : (0 : α) < s.card := by exact_mod_cast hs.card_pos
  have hline := residual_eq (x := x) (y := y) hs
  have hslope : ∀ b, coSum s y y - 2 * b * coSum s x y + b ^ 2 * coSum s x x =
      coSum s y y - coSum s x y ^ 2 / coSum s x x +
        coSum s x x * (b - coSum s x y / coSum s x x) ^ 2 := by
    intro b
    field_simp
    ring
  rw [hline, hline, hslope, hslope, sub_self, sub_add_cancel, sub_self]
  have hmore : 0 < coSum s x x * (b - coSum s x y / coSum s x x) ^ 2 +
      s.card * (a + b * mean s x - mean s y) ^ 2 := by
    by_cases hb : b = coSum s x y / coSum s x x
    · -- the same slope, so that the line passes the means by
      have ha : a + b * mean s x - mean s y ≠ 0 := by
        intro hzero
        apply hne
        rw [hb] at hzero
        rw [Prod.mk.injEq]
        exact ⟨by linear_combination hzero, hb⟩
      have hoff : 0 < s.card * (a + b * mean s x - mean s y) ^ 2 := by positivity
      have hsteep : 0 ≤ coSum s x x * (b - coSum s x y / coSum s x x) ^ 2 := by positivity
      exact add_pos_of_nonneg_of_pos hsteep hoff
    · have hsteep : 0 < coSum s x x * (b - coSum s x y / coSum s x x) ^ 2 :=
        mul_pos hx (by have hoff := sub_ne_zero.mpr hb; positivity)
      have hoff : 0 ≤ s.card * (a + b * mean s x - mean s y) ^ 2 := by positivity
      exact add_pos_of_pos_of_nonneg hsteep hoff
  linarith

omit [LinearOrder α] [IsStrictOrderedRing α] in
/-- What is left of two series when their part along `x` is taken out of each. -/
theorem sum_rest_mul_rest :
    ∑ i ∈ s, (coSum s x x * (y i - mean s y) - coSum s x y * (x i - mean s x)) *
        (coSum s x x * (w i - mean s w) - coSum s x w * (x i - mean s x)) =
      coSum s x x * (coSum s x x * coSum s y w - coSum s x y * coSum s x w) := by
  have hexpand : ∀ i ∈ s,
      (coSum s x x * (y i - mean s y) - coSum s x y * (x i - mean s x)) *
          (coSum s x x * (w i - mean s w) - coSum s x w * (x i - mean s x)) =
        coSum s x x ^ 2 * ((y i - mean s y) * (w i - mean s w)) -
          coSum s x x * coSum s x w * ((x i - mean s x) * (y i - mean s y)) -
          coSum s x x * coSum s x y * ((x i - mean s x) * (w i - mean s w)) +
          coSum s x y * coSum s x w * ((x i - mean s x) * (x i - mean s x)) := by
    intro i _
    ring
  rw [Finset.sum_congr rfl hexpand, Finset.sum_add_distrib, Finset.sum_sub_distrib,
    Finset.sum_sub_distrib, ← Finset.mul_sum, ← Finset.mul_sum, ← Finset.mul_sum,
    ← Finset.mul_sum]
  simp only [coSum]
  ring

theorem sq_coSum_sub_le (hx : 0 < coSum s x x) :
    (coSum s x x * coSum s y w - coSum s x y * coSum s x w) ^ 2 ≤
      (coSum s x x * coSum s y y - coSum s x y ^ 2) *
        (coSum s x x * coSum s w w - coSum s x w ^ 2) := by
  let restY := fun i => coSum s x x * (y i - mean s y) - coSum s x y * (x i - mean s x)
  let restW := fun i => coSum s x x * (w i - mean s w) - coSum s x w * (x i - mean s x)
  have hcauchy : (∑ i ∈ s, restY i * restW i) ^ 2 ≤
      (∑ i ∈ s, restY i ^ 2) * ∑ i ∈ s, restW i ^ 2 :=
    Finset.sum_mul_sq_le_sq_mul_sq s restY restW
  simp only [pow_two (restY _), pow_two (restW _), restY, restW, sum_rest_mul_rest] at hcauchy
  have hsq : 0 < coSum s x x ^ 2 := by positivity
  apply le_of_mul_le_mul_left _ hsq
  calc
    _ = (coSum s x x * (coSum s x x * coSum s y w - coSum s x y * coSum s x w)) ^ 2 := by ring
    _ ≤ _ := hcauchy
    _ = _ := by ring

/-- Two series that follow `x` well enough, both the same way or both against it, follow
each other: their shares of `x` leave no room for anything else to turn the sign. -/
theorem coSum_mul_pos (hx : 0 < coSum s x x)
    (hshare : coSum s x x * (coSum s y y * coSum s w w) <
      coSum s x y ^ 2 * coSum s w w + coSum s x w ^ 2 * coSum s y y) :
    0 < coSum s y w * (coSum s x y * coSum s x w) := by
  let t := coSum s x y * coSum s x w
  let u := coSum s x x * coSum s y w
  have hgram : (u - t) ^ 2 ≤ (coSum s x x * coSum s y y - coSum s x y ^ 2) *
      (coSum s x x * coSum s w w - coSum s x w ^ 2) := sq_coSum_sub_le hx
  have hless : (coSum s x x * coSum s y y - coSum s x y ^ 2) *
      (coSum s x x * coSum s w w - coSum s x w ^ 2) < t ^ 2 := by
    have hscaled := mul_lt_mul_of_pos_left hshare hx
    simp only [t]
    linarith
  have hut : 0 < u * t := by
    have hsquare := sq_nonneg u
    have hclose : (u - t) ^ 2 < t ^ 2 := hgram.trans_lt hless
    have hexpand : (u - t) ^ 2 = u ^ 2 - 2 * (u * t) + t ^ 2 := by ring
    linarith
  have hfactor : u * t = coSum s x x * (coSum s y w * t) := mul_assoc _ _ _
  rw [hfactor] at hut
  exact pos_of_mul_pos_right hut hx.le

section Index
open Finset (range)

variable (α) in
/-- Zero before an index, one from there on. -/
def later (m i : ℕ) : α := if i < m then 0 else 1

omit [LinearOrder α] [IsStrictOrderedRing α] in
theorem sum_mul_later {m n : ℕ} (h : m ≤ n) (f : ℕ → α) :
    ∑ i ∈ range n, f i * later α m i = ∑ i ∈ range n, f i - ∑ i ∈ range m, f i := by
  have hsplit := Finset.sum_range_add_sum_Ico f h
  have hbefore : ∑ i ∈ range m, f i * later α m i = 0 := by
    apply Finset.sum_eq_zero
    intro i hi
    rw [later, if_pos (Finset.mem_range.mp hi), mul_zero]
  have hafter : ∑ i ∈ Finset.Ico m n, f i * later α m i = ∑ i ∈ Finset.Ico m n, f i := by
    apply Finset.sum_congr rfl
    intro i hi
    rw [later, if_neg (Finset.mem_Ico.mp hi).1.not_gt, mul_one]
  rw [← Finset.sum_range_add_sum_Ico _ h, hbefore, hafter, ← hsplit]
  ring

omit [LinearOrder α] [IsStrictOrderedRing α] in
theorem sum_later {m n : ℕ} (h : m ≤ n) : ∑ i ∈ range n, later α m i = n - m := by
  have hone := sum_mul_later h fun _ => (1 : α)
  simpa using hone

theorem sum_index (n : ℕ) : ∑ i ∈ range n, (i : α) = n * (n - 1) / 2 := by
  induction n with
  | zero => simp
  | succ n ih =>
    rw [Finset.sum_range_succ, ih]
    push_cast
    ring

theorem sum_sq_index (n : ℕ) :
    ∑ i ∈ range n, (i : α) * i = n * (n - 1) * (2 * n - 1) / 6 := by
  induction n with
  | zero => simp
  | succ n ih =>
    rw [Finset.sum_range_succ, ih]
    push_cast
    ring

theorem mean_index {n : ℕ} (hn : 0 < n) :
    mean (range n) (fun i => (i : α)) = (n - 1) / 2 := by
  have hcast : (n : α) ≠ 0 := by exact_mod_cast hn.ne'
  rw [mean, sum_index, Finset.card_range]
  field_simp

theorem coSum_index {n : ℕ} (hn : 0 < n) :
    coSum (range n) (fun i => (i : α)) (fun i => (i : α)) = n * (n ^ 2 - 1) / 12 := by
  rw [coSum_eq_sub (Finset.nonempty_range_iff.mpr hn.ne'), mean_index hn, sum_sq_index, sum_index]
  ring

theorem coSum_later {m n : ℕ} (hn : 0 < n) (h : m ≤ n) (y : ℕ → α) :
    coSum (range n) y (later α m) =
      (m * ∑ i ∈ range n, y i - n * ∑ i ∈ range m, y i) / n := by
  have hcast : (n : α) ≠ 0 := by exact_mod_cast hn.ne'
  rw [coSum_eq_sub (Finset.nonempty_range_iff.mpr hn.ne'), sum_mul_later h, sum_later h, mean,
    Finset.card_range]
  field_simp
  ring

theorem coSum_index_later {m n : ℕ} (hn : 0 < n) (h : m ≤ n) :
    coSum (range n) (fun i => (i : α)) (later α m) = m * (n - m) / 2 := by
  have hcast : (n : α) ≠ 0 := by exact_mod_cast hn.ne'
  rw [coSum_later hn h, sum_index, sum_index]
  field_simp
  ring

theorem coSum_later_later {m n : ℕ} (hn : 0 < n) (h : m ≤ n) :
    coSum (range n) (later α m) (later α m) = m * (n - m) / n := by
  rw [coSum_later hn h, sum_later h, sum_later le_rfl]
  ring

/-- The later half follows the index: three quarters of it at least. -/
theorem later_half_share {n : ℕ} (hn : 0 < n) :
    3 * (coSum (range n) (fun i => (i : α)) (fun i => (i : α)) *
        coSum (range n) (later α (n / 2)) (later α (n / 2))) ≤
      4 * coSum (range n) (fun i => (i : α)) (later α (n / 2)) ^ 2 := by
  have hcast : (0 : α) < n := by exact_mod_cast hn
  have hle : n / 2 ≤ n := Nat.div_le_self n 2
  rw [coSum_index hn, coSum_later_later hn hle, coSum_index_later hn hle]
  let area : α := (n / 2 : ℕ) * (n - (n / 2 : ℕ))
  have hsub : (0 : α) ≤ n - (n / 2 : ℕ) := sub_nonneg.mpr (by exact_mod_cast hle)
  have harea : 0 ≤ area := mul_nonneg (Nat.cast_nonneg _) hsub
  -- the halves differ by one index at most
  have hhalves : (n : α) ^ 2 - 1 ≤ 4 * area := by
    rcases Nat.even_or_odd' n with ⟨k, heq | heq⟩
    · have hhalf : n / 2 = k := by omega
      simp only [area]
      rw [hhalf, heq]
      push_cast
      linarith
    · have hhalf : n / 2 = k := by omega
      simp only [area]
      rw [hhalf, heq]
      push_cast
      linarith
  calc
    3 * (n * (n ^ 2 - 1) / 12 * (area / n)) = (n ^ 2 - 1) / 4 * area := by field_simp; ring
    _ ≤ area * area := by
      apply mul_le_mul_of_nonneg_right _ harea
      linarith
    _ = 4 * (area / 2) ^ 2 := by ring

end Index

end TradeStream.LeastSquares
