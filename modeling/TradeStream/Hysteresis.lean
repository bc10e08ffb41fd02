import Mathlib

/-! A level that follows a value in whole steps of one size, once the value is a step away. -/
namespace TradeStream.Hysteresis

variable {K : Type*} [Field K] [LinearOrder K] [FloorRing K]

/-- The level is moved towards the value by as many whole steps as there are between them. -/
def settle (size level value : K) : K :=
  if level + size ≤ value then level + size * ⌊(value - level) / size⌋
  else if value ≤ level - size then level - size * ⌊(level - value) / size⌋
  else level

section
variable [IsStrictOrderedRing K] {size : K} (hsize : 0 < size) (level value : K)
include hsize

/-- The steps that fit into a distance of one step or more. -/
theorem floor_steps {distance : K} (h : size ≤ distance) :
    size ≤ size * ⌊distance / size⌋ ∧ size * ⌊distance / size⌋ ≤ distance ∧
      distance < size * ⌊distance / size⌋ + size := by
  have hcancel : size * (distance / size) = distance := mul_div_cancel₀ distance hsize.ne'
  have hone : (1 : K) ≤ ⌊distance / size⌋ := by
    exact_mod_cast Int.le_floor.mpr (by simpa using (one_le_div hsize).mpr h)
  refine ⟨le_mul_of_one_le_right hsize.le hone, ?_, ?_⟩
  · calc size * ⌊distance / size⌋ ≤ size * (distance / size) :=
          mul_le_mul_of_nonneg_left (Int.floor_le _) hsize.le
      _ = distance := hcancel
  · calc distance = size * (distance / size) := hcancel.symm
      _ < size * (⌊distance / size⌋ + 1) :=
          mul_lt_mul_of_pos_left (Int.lt_floor_add_one _) hsize
      _ = size * ⌊distance / size⌋ + size := by ring

theorem settle_cases :
    (level + size ≤ value ∧ level + size ≤ settle size level value ∧
        settle size level value ≤ value ∧ value < settle size level value + size) ∨
      (value ≤ level - size ∧ settle size level value ≤ level - size ∧
        value ≤ settle size level value ∧ settle size level value - size < value) ∨
      (level - size < value ∧ value < level + size ∧ settle size level value = level) := by
  unfold settle
  split_ifs with hup hdown
  · obtain ⟨hfirst, hle, hlt⟩ := floor_steps hsize (le_sub_iff_add_le'.mpr hup)
    exact .inl ⟨hup, by linarith, by linarith, by linarith⟩
  · have hdistance : size ≤ level - value := by linarith
    obtain ⟨hfirst, hle, hlt⟩ := floor_steps hsize hdistance
    exact .inr (.inl ⟨hdown, by linarith, by linarith, by linarith⟩)
  · exact .inr (.inr ⟨not_le.mp hdown, not_le.mp hup, rfl⟩)

theorem abs_sub_settle_lt : |value - settle size level value| < size := by
  rw [abs_lt]
  obtain ⟨-, -, hle, hlt⟩ | ⟨-, -, hle, hlt⟩ | ⟨hlow, hhigh, hsame⟩ :=
    settle_cases hsize level value
  · constructor <;> linarith
  · constructor <;> linarith
  · rw [hsame]
    constructor <;> linarith

theorem lt_settle_iff : level < settle size level value ↔ level + size ≤ value := by
  obtain ⟨hup, hle, -⟩ | ⟨hdown, hle, -⟩ | ⟨-, hhigh, hsame⟩ := settle_cases hsize level value
  · exact iff_of_true (by linarith) hup
  · exact iff_of_false (by linarith) (by linarith)
  · rw [hsame]
    exact iff_of_false (lt_irrefl _) (by linarith)

theorem settle_lt_iff : settle size level value < level ↔ value ≤ level - size := by
  obtain ⟨hup, hle, -⟩ | ⟨hdown, hle, -⟩ | ⟨hlow, -, hsame⟩ := settle_cases hsize level value
  · exact iff_of_false (by linarith) (by linarith)
  · exact iff_of_true (by linarith) hdown
  · rw [hsame]
    exact iff_of_false (lt_irrefl _) (by linarith)

/-- The level stays between where it was and the value. -/
theorem abs_settle_sub_add : |settle size level value - level| +
    |value - settle size level value| = |value - level| := by
  obtain ⟨hup, hle, hvalue, -⟩ | ⟨hdown, hle, hvalue, -⟩ | ⟨-, -, hsame⟩ :=
    settle_cases hsize level value
  · rw [abs_of_nonneg (by linarith), abs_of_nonneg (by linarith), abs_of_nonneg (by linarith)]
    ring
  · rw [abs_of_nonpos (by linarith), abs_of_nonpos (by linarith), abs_of_nonpos (by linarith)]
    ring
  · rw [hsame, sub_self, abs_zero, zero_add]

theorem size_le_abs_of_ne (h : settle size level value ≠ level) :
    size ≤ |settle size level value - level| := by
  obtain ⟨-, hle, -⟩ | ⟨-, hle, -⟩ | ⟨-, -, hsame⟩ := settle_cases hsize level value
  · exact le_abs.mpr (.inl (by linarith))
  · exact le_abs.mpr (.inr (by linarith))
  · exact absurd hsame h

end

theorem exists_settle_eq (size level value : K) :
    ∃ n : ℤ, settle size level value = level + n * size := by
  unfold settle
  split_ifs
  · exact ⟨⌊(value - level) / size⌋, by ring⟩
  · exact ⟨-⌊(level - value) / size⌋, by push_cast; ring⟩
  · exact ⟨0, by simp⟩

/-! ### A sequence of values -/

/-- The level after each value, from the first value on. -/
def levels (size : K) (value : ℕ → K) : ℕ → K
  | 0 => value 0
  | i + 1 => settle size (levels size value i) (value (i + 1))

section
variable {size : K} {value : ℕ → K}

theorem exists_levels_eq (size : K) (value : ℕ → K) (i : ℕ) :
    ∃ n : ℤ, levels size value i = value 0 + n * size := by
  induction i with
  | zero => exact ⟨0, by simp [levels]⟩
  | succ i ih =>
    obtain ⟨n, hn⟩ := ih
    obtain ⟨m, hm⟩ := exists_settle_eq size (levels size value i) (value (i + 1))
    refine ⟨n + m, ?_⟩
    rw [levels, hm, hn]
    push_cast
    ring

variable [IsStrictOrderedRing K]

theorem abs_sub_levels_lt (hsize : 0 < size) (i : ℕ) : |value i - levels size value i| < size := by
  cases i with
  | zero => simpa [levels] using hsize
  | succ i => exact abs_sub_settle_lt hsize _ _

/-- How far the level has moved, and is from the value, is no more than the value has moved. -/
theorem variation_levels_le (hsize : 0 < size) (n : ℕ) :
    ∑ i ∈ Finset.range n, |levels size value (i + 1) - levels size value i| +
        |value n - levels size value n| ≤
      ∑ i ∈ Finset.range n, |value (i + 1) - value i| := by
  induction n with
  | zero => simp [levels]
  | succ n ih =>
    have hmove := abs_settle_sub_add hsize (levels size value n) (value (n + 1))
    have htriangle := abs_add_le (value (n + 1) - value n) (value n - levels size value n)
    rw [sub_add_sub_cancel] at htriangle
    rw [Finset.sum_range_succ, Finset.sum_range_succ, levels]
    linarith

/-- The level moves no more often than the value has moved a whole step. -/
theorem card_moves_mul_le (hsize : 0 < size) (n : ℕ) :
    ((Finset.range n).filter fun i =>
        levels size value (i + 1) ≠ levels size value i).card * size ≤
      ∑ i ∈ Finset.range n, |value (i + 1) - value i| := by
  calc ((Finset.range n).filter fun i =>
          levels size value (i + 1) ≠ levels size value i).card * size
      ≤ ∑ i ∈ (Finset.range n).filter fun i => levels size value (i + 1) ≠ levels size value i,
          |levels size value (i + 1) - levels size value i| := by
        rw [← nsmul_eq_mul]
        apply Finset.card_nsmul_le_sum
        intro i hi
        exact size_le_abs_of_ne hsize _ _ (Finset.mem_filter.mp hi).2
    _ ≤ ∑ i ∈ Finset.range n, |levels size value (i + 1) - levels size value i| :=
        Finset.sum_le_sum_of_subset_of_nonneg (Finset.filter_subset _ _)
          fun i _ _ => abs_nonneg _
    _ ≤ ∑ i ∈ Finset.range n, |value (i + 1) - value i| := by
        refine le_trans ?_ (variation_levels_le hsize n)
        exact le_add_of_nonneg_right (abs_nonneg _)

end

end TradeStream.Hysteresis
