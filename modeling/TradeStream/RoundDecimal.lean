import TradeStream.IsoText

/-! Rounding to a number of decimal places, ties to the even neighbour or away from zero. -/
namespace TradeStream.RoundDecimal
open TradeStream.IsoText (padded)

variable {α : Type*} [Field α] [LinearOrder α] [IsStrictOrderedRing α] [FloorRing α]

def roundHalfEven (x : α) : ℤ :=
  if Int.fract x < 1 / 2 then ⌊x⌋
  else if 1 / 2 < Int.fract x then ⌊x⌋ + 1
  else if Even ⌊x⌋ then ⌊x⌋ else ⌊x⌋ + 1

/-- `round(x, digits)`. -/
def roundTo (digits : ℕ) (x : α) : α := roundHalfEven (x * 10 ^ digits) / 10 ^ digits

/-- A number to some decimals, as `round` rounds. -/
def fixedText (round : α → ℤ) (digits : ℕ) (x : α) : String :=
  let n := (round (x * 10 ^ digits)).natAbs
  (if x < 0 then "-" else "") ++ toString (n / 10 ^ digits) ++
    if digits = 0 then "" else "." ++ String.ofList (padded digits (n % 10 ^ digits))

theorem abs_floor_sub_le {x : α} (h : Int.fract x ≤ 1 / 2) : |(⌊x⌋ : α) - x| ≤ 1 / 2 := by
  rwa [abs_sub_comm, Int.self_sub_floor, abs_of_nonneg (Int.fract_nonneg x)]

theorem abs_floor_add_one_sub_le {x : α} (h : 1 / 2 ≤ Int.fract x) :
    |((⌊x⌋ + 1 : ℤ) : α) - x| ≤ 1 / 2 := by
  have hone : ((⌊x⌋ + 1 : ℤ) : α) - x = 1 - Int.fract x := by
    rw [Int.cast_add, Int.cast_one, ← Int.self_sub_floor]
    ring
  rw [hone, abs_of_pos (sub_pos.mpr (Int.fract_lt_one x)), sub_le_comm, sub_half]
  exact h

theorem abs_roundHalfEven_sub_le (x : α) : |(roundHalfEven x : α) - x| ≤ 1 / 2 := by
  rw [roundHalfEven]
  split_ifs with hlow hhigh heven
  · exact abs_floor_sub_le hlow.le
  · exact abs_floor_add_one_sub_le hhigh.le
  · exact abs_floor_sub_le (not_lt.mp hhigh)
  · exact abs_floor_add_one_sub_le (not_lt.mp hlow)

/-- Two results in the wrong order are an integer apart, and so are their arguments. -/
theorem monotone_of_abs_sub_le {f : α → ℤ} (hf : ∀ x, |(f x : α) - x| ≤ 1 / 2) :
    Monotone f := by
  intro x y h
  by_contra hlt
  have hsucc : (f y : α) + 1 ≤ f x := by
    have hlt' : f y + 1 ≤ f x := by omega
    exact_mod_cast hlt'
  have hx := (abs_le.mp (hf x)).2
  have hy := (abs_le.mp (hf y)).1
  have heq : x = y := by linarith only [h, hsucc, hx, hy]
  rw [heq] at hlt
  exact hlt le_rfl

theorem roundHalfEven_mono : Monotone (roundHalfEven : α → ℤ) :=
  monotone_of_abs_sub_le abs_roundHalfEven_sub_le

variable (α) in
theorem floor_half : ⌊(1 / 2 : α)⌋ = 0 := by
  apply Int.floor_eq_zero_iff.mpr
  constructor <;> norm_num

variable (α) in
theorem fract_half : Int.fract (1 / 2 : α) = 1 / 2 := by
  apply Int.fract_eq_self.mpr
  constructor <;> norm_num

/-- Only what lies beyond one half is rounded away from zero. -/
theorem roundHalfEven_pos_iff (x : α) : 0 < roundHalfEven x ↔ 1 / 2 < x := by
  constructor
  · intro hpos
    by_contra hle
    have hhalf : roundHalfEven (1 / 2 : α) = 0 := by
      simp only [roundHalfEven, fract_half, floor_half, lt_irrefl, Even.zero, if_true, if_false]
    have hmono := roundHalfEven_mono (not_lt.mp hle)
    omega
  · intro hlt
    have hlow := (abs_le.mp (abs_roundHalfEven_sub_le x)).1
    have hpos : (0 : α) < roundHalfEven x := by linarith
    exact_mod_cast hpos

theorem abs_roundTo_sub_le (digits : ℕ) (x : α) :
    |roundTo digits x - x| ≤ 1 / 2 / 10 ^ digits := by
  have hd : (0 : α) < 10 ^ digits := by positivity
  have h := abs_roundHalfEven_sub_le (x * 10 ^ digits)
  have he : roundTo digits x - x =
      ((roundHalfEven (x * 10 ^ digits) : α) - x * 10 ^ digits) / 10 ^ digits := by
    rw [roundTo]
    field_simp
  rw [he, abs_div, abs_of_pos hd]
  exact div_le_div_of_nonneg_right h hd.le

theorem roundTo_pos_iff (digits : ℕ) (x : α) :
    0 < roundTo digits x ↔ 1 / 2 / 10 ^ digits < x := by
  have hd : (0 : α) < 10 ^ digits := by positivity
  rw [roundTo, div_lt_iff₀ hd, ← roundHalfEven_pos_iff, ← Int.cast_pos (R := α)]
  constructor
  · intro h
    by_contra hn
    exact absurd (div_nonpos_of_nonpos_of_nonneg (not_lt.mp hn) hd.le) (not_le.mpr h)
  · intro h
    exact div_pos h hd

@[simp] theorem roundHalfEven_intCast (n : ℤ) : roundHalfEven (n : α) = n := by
  have hlow : Int.fract (n : α) < 1 / 2 := by
    rw [Int.fract_intCast]
    positivity
  rw [roundHalfEven, if_pos hlow, Int.floor_intCast]

/-- Adding an integer commutes with rounding, but for an odd one at a tie. -/
theorem roundHalfEven_intCast_add_iff (n : ℤ) (x : α) :
    roundHalfEven (n + x) = n + roundHalfEven x ↔ (Int.fract x = 1 / 2 → Even n) := by
  simp only [roundHalfEven, Int.fract_intCast_add, Int.floor_intCast_add]
  split_ifs with hlow hhigh hsum heven heven
  · exact iff_of_true rfl fun h => absurd h hlow.ne
  · exact iff_of_true (by ring) fun h => absurd h hhigh.ne'
  all_goals
    have htie : Int.fract x = 1 / 2 := le_antisymm (not_lt.mp hhigh) (not_lt.mp hlow)
    have hparity := Int.even_add (m := n) (n := ⌊x⌋)
    simp only [htie, true_implies]
  · exact iff_of_true trivial (by tauto)
  · exact iff_of_false (by omega) (by tauto)
  · exact iff_of_false (by omega) (by tauto)
  · exact iff_of_true (by ring) (by tauto)

/-- A number with no more decimals than `digits`. -/
def IsDecimal (digits : ℕ) (x : α) : Prop := ∃ n : ℤ, x * 10 ^ digits = n

theorem isDecimal_roundTo (digits : ℕ) (x : α) : IsDecimal digits (roundTo digits x) := by
  refine ⟨roundHalfEven (x * 10 ^ digits), ?_⟩
  rw [roundTo]
  field_simp

theorem IsDecimal.roundTo_eq {digits : ℕ} {x : α} (h : IsDecimal digits x) :
    roundTo digits x = x := by
  obtain ⟨n, hn⟩ := h
  rw [roundTo, hn, roundHalfEven_intCast, ← hn]
  field_simp

theorem roundTo_mono (digits : ℕ) {x y : α} (h : x ≤ y) : roundTo digits x ≤ roundTo digits y := by
  have hd : (0 : α) < 10 ^ digits := by positivity
  apply div_le_div_of_nonneg_right _ hd.le
  exact_mod_cast roundHalfEven_mono (mul_le_mul_of_nonneg_right h hd.le)

theorem roundTo_nonneg (digits : ℕ) {x : α} (hx : 0 ≤ x) : 0 ≤ roundTo digits x := by
  have hzero : IsDecimal digits (0 : α) := ⟨0, by simp⟩
  rw [← hzero.roundTo_eq]
  exact roundTo_mono digits hx

theorem roundTo_mem (digits : ℕ) {x : α} (h : 0 ≤ x ∧ x ≤ 1) :
    0 ≤ roundTo digits x ∧ roundTo digits x ≤ 1 := by
  have hone : IsDecimal digits (1 : α) := ⟨10 ^ digits, by push_cast; ring⟩
  refine ⟨roundTo_nonneg digits h.1, ?_⟩
  rw [← hone.roundTo_eq]
  exact roundTo_mono digits h.2

omit [LinearOrder α] [IsStrictOrderedRing α] [FloorRing α] in
theorem IsDecimal.neg {digits : ℕ} {x : α} (h : IsDecimal digits x) :
    IsDecimal digits (-x) := by
  obtain ⟨n, hn⟩ := h
  exact ⟨-n, by rw [neg_mul, hn, Int.cast_neg]⟩

omit [LinearOrder α] [IsStrictOrderedRing α] [FloorRing α] in
theorem IsDecimal.sub {digits : ℕ} {x y : α} (hx : IsDecimal digits x)
    (hy : IsDecimal digits y) : IsDecimal digits (x - y) := by
  obtain ⟨m, hm⟩ := hx
  obtain ⟨n, hn⟩ := hy
  exact ⟨m - n, by rw [sub_mul, hm, hn, Int.cast_sub]⟩

/-- Decimals that differ are a unit of the last digit apart. -/
theorem IsDecimal.add_unit_le {digits : ℕ} {x y : α} (hx : IsDecimal digits x)
    (hy : IsDecimal digits y) (h : x < y) : x + 1 / 10 ^ digits ≤ y := by
  have hd : (0 : α) < 10 ^ digits := by positivity
  obtain ⟨m, hm⟩ := hx
  obtain ⟨n, hn⟩ := hy
  have hlt : (m : α) < n := by
    rw [← hm, ← hn]
    exact mul_lt_mul_of_pos_right h hd
  have hle : (m : α) + 1 ≤ n := by
    have : m + 1 ≤ n := by
      have : m < n := by exact_mod_cast hlt
      omega
    exact_mod_cast this
  rw [← hm, ← hn] at hle
  calc x + 1 / 10 ^ digits = (x * 10 ^ digits + 1) / 10 ^ digits := by field_simp
    _ ≤ y * 10 ^ digits / 10 ^ digits := div_le_div_of_nonneg_right hle hd.le
    _ = y := by field_simp

/-- A decimal moves out of a rounded sum unless it is odd and the rest is a tie. -/
theorem roundTo_add_iff (digits : ℕ) {x : α} {n : ℤ} (hn : x * 10 ^ digits = n) (y : α) :
    roundTo digits (x + y) = x + roundTo digits y ↔
      (Int.fract (y * 10 ^ digits) = 1 / 2 → Even n) := by
  have hd : (0 : α) < 10 ^ digits := by positivity
  have hx : x = n / 10 ^ digits := by
    rw [← hn]
    field_simp
  rw [← roundHalfEven_intCast_add_iff, roundTo, roundTo, add_mul, hn]
  rw [hx, ← add_div, div_left_inj' hd.ne']
  exact_mod_cast Iff.rfl

omit [IsStrictOrderedRing α] in
theorem floor_le_roundHalfEven (x : α) : ⌊x⌋ ≤ roundHalfEven x := by
  rw [roundHalfEven]
  split_ifs <;> omega

omit [IsStrictOrderedRing α] in
theorem roundHalfEven_le_floor_add_one (x : α) : roundHalfEven x ≤ ⌊x⌋ + 1 := by
  rw [roundHalfEven]
  split_ifs <;> omega

omit [IsStrictOrderedRing α] in
theorem roundHalfEven_le_floor_iff (x : α) :
    roundHalfEven x ≤ ⌊x⌋ ↔ Int.fract x < 1 / 2 ∨ Int.fract x = 1 / 2 ∧ Even ⌊x⌋ := by
  rw [roundHalfEven]
  split_ifs with hlow hhigh heven
  · exact iff_of_true le_rfl (Or.inl hlow)
  · refine iff_of_false (by omega) ?_
    rintro (hlt | ⟨htie, -⟩)
    · exact hlow hlt
    · exact hhigh.ne' htie
  · have htie : Int.fract x = 1 / 2 := le_antisymm (not_lt.mp hhigh) (not_lt.mp hlow)
    exact iff_of_true le_rfl (Or.inr ⟨htie, heven⟩)
  · refine iff_of_false (by omega) ?_
    rintro (hlt | ⟨-, hfloor⟩)
    · exact hlow hlt
    · exact heven hfloor

/-- What rounds to at most `n`: all below its half, and the half if `n` is even. -/
theorem roundHalfEven_le_iff (x : α) (n : ℤ) :
    roundHalfEven x ≤ n ↔ x < n + 1 / 2 ∨ x = n + 1 / 2 ∧ Even n := by
  rcases lt_trichotomy ⌊x⌋ n with hlt | rfl | hgt
  · have hround := roundHalfEven_le_floor_add_one x
    have hx : x < n := Int.floor_lt.mp hlt
    refine iff_of_true (by omega) (Or.inl ?_)
    linarith
  · have hx : (⌊x⌋ : α) + Int.fract x = x := Int.floor_add_fract x
    have hbelow : x < ⌊x⌋ + 1 / 2 ↔ Int.fract x < 1 / 2 := by
      rw [Int.fract, sub_lt_iff_lt_add']
    have htie : x = ⌊x⌋ + 1 / 2 ↔ Int.fract x = 1 / 2 := by
      rw [Int.fract, sub_eq_iff_eq_add']
    rw [roundHalfEven_le_floor_iff, hbelow, htie]
  · have hround := floor_le_roundHalfEven x
    have hx : (n : α) + 1 ≤ x := by
      have hfloor : n + 1 ≤ ⌊x⌋ := hgt
      exact_mod_cast Int.le_floor.mp hfloor
    refine iff_of_false (by omega) ?_
    rintro (hlt | ⟨heq, -⟩)
    · linarith
    · linarith

/-- What rounds to at least `n`: all above the half below it, and that half if `n` is even. -/
theorem le_roundHalfEven_iff (x : α) (n : ℤ) :
    n ≤ roundHalfEven x ↔ n - 1 / 2 < x ∨ x = n - 1 / 2 ∧ Even n := by
  have hbelow := roundHalfEven_le_iff x (n - 1)
  have hhalf : ((n - 1 : ℤ) : α) + 1 / 2 = n - 1 / 2 := by
    push_cast
    ring
  rw [hhalf, Int.even_sub_one] at hbelow
  rw [← Int.sub_one_lt_iff, ← not_le, hbelow, not_or, not_lt, not_and_not_right,
    le_iff_lt_or_eq]
  constructor
  · rintro ⟨hlt | heq, heven⟩
    · exact Or.inl hlt
    · exact Or.inr ⟨heq.symm, heven heq.symm⟩
  · rintro (hlt | ⟨heq, heven⟩)
    · exact ⟨Or.inl hlt, fun h => absurd h hlt.ne'⟩
    · exact ⟨Or.inr heq.symm, fun _ => heven⟩

/-- What rounds to `n`: all that is less than a half away, and the halves if `n` is even. -/
theorem roundHalfEven_eq_iff (x : α) (n : ℤ) :
    roundHalfEven x = n ↔ |x - n| < 1 / 2 ∨ |x - n| = 1 / 2 ∧ Even n := by
  have htie : |x - n| = 1 / 2 ↔ x = n + 1 / 2 ∨ x = n - 1 / 2 := by
    rw [abs_eq (by norm_num), sub_eq_iff_eq_add', sub_eq_iff_eq_add', ← sub_eq_add_neg]
  have hnearest : |x - n| < 1 / 2 ↔ x < n + 1 / 2 ∧ (n : α) - 1 / 2 < x := by
    rw [abs_sub_lt_iff, sub_lt_iff_lt_add', sub_lt_comm]
  rw [le_antisymm_iff, le_roundHalfEven_iff, roundHalfEven_le_iff, htie, hnearest]
  have hnear : (n : α) - 1 / 2 < n + 1 / 2 := by linarith
  constructor
  · rintro ⟨hlt | ⟨heq, heven⟩, hgt | ⟨heq', heven'⟩⟩
    · exact Or.inl ⟨hlt, hgt⟩
    · exact Or.inr ⟨Or.inr heq', heven'⟩
    · exact Or.inr ⟨Or.inl heq, heven⟩
    · exact absurd (heq'.symm.trans heq) hnear.ne
  · rintro (⟨hlt, hgt⟩ | ⟨heq | heq, heven⟩)
    · exact ⟨Or.inl hlt, Or.inl hgt⟩
    · exact ⟨Or.inr ⟨heq, heven⟩, Or.inl (by rwa [heq])⟩
    · exact ⟨Or.inl (by rwa [heq]), Or.inr ⟨heq, heven⟩⟩

/-- What rounds to at most `y`, said of `y` cut off after its last digit. -/
theorem roundTo_le_iff (digits : ℕ) (x y : α) :
    roundTo digits x ≤ y ↔
      x * 10 ^ digits < ⌊y * 10 ^ digits⌋ + 1 / 2 ∨
        x * 10 ^ digits = ⌊y * 10 ^ digits⌋ + 1 / 2 ∧ Even ⌊y * 10 ^ digits⌋ := by
  have hd : (0 : α) < 10 ^ digits := by positivity
  rw [roundTo, div_le_iff₀ hd, ← Int.le_floor, roundHalfEven_le_iff]

/-- What rounds to at least `y`, said of the next number of so many digits. -/
theorem le_roundTo_iff (digits : ℕ) (x y : α) :
    y ≤ roundTo digits x ↔
      ⌈y * 10 ^ digits⌉ - 1 / 2 < x * 10 ^ digits ∨
        x * 10 ^ digits = ⌈y * 10 ^ digits⌉ - 1 / 2 ∧ Even ⌈y * 10 ^ digits⌉ := by
  have hd : (0 : α) < 10 ^ digits := by positivity
  rw [roundTo, le_div_iff₀ hd, ← Int.ceil_le, le_roundHalfEven_iff]

/-! ### Ties away from zero -/

def roundHalfAway (x : α) : ℤ :=
  if Int.fract x < 1 / 2 then ⌊x⌋
  else if 1 / 2 < Int.fract x then ⌊x⌋ + 1
  else if 0 < x then ⌊x⌋ + 1 else ⌊x⌋

/-- What a column of `digits` decimals stores of a number. -/
def storeTo (digits : ℕ) (x : α) : α := roundHalfAway (x * 10 ^ digits) / 10 ^ digits

theorem roundHalfAway_intCast (n : ℤ) : roundHalfAway (n : α) = n := by
  rw [roundHalfAway, if_pos (by rw [Int.fract_intCast]; norm_num), Int.floor_intCast]

/-- Adding an integer commutes with rounding, but at a tie that it takes across zero. -/
theorem roundHalfAway_intCast_add_iff (n : ℤ) (x : α) :
    roundHalfAway (n + x) = n + roundHalfAway x ↔
      (Int.fract x = 1 / 2 → (0 < n + x ↔ 0 < x)) := by
  simp only [roundHalfAway, Int.fract_intCast_add, Int.floor_intCast_add]
  split_ifs with hlow hhigh hsum hpos hpos
  · exact iff_of_true rfl fun h => absurd h hlow.ne
  · exact iff_of_true (by ring) fun h => absurd h hhigh.ne'
  all_goals
    have htie : Int.fract x = 1 / 2 := le_antisymm (not_lt.mp hhigh) (not_lt.mp hlow)
    simp only [htie, true_implies]
  · exact iff_of_true (by ring) (iff_of_true hsum hpos)
  · exact iff_of_false (by omega) (by tauto)
  · exact iff_of_false (by omega) (by tauto)
  · exact iff_of_true trivial (iff_of_false hsum hpos)

omit [FloorRing α] in
theorem one_sub_lt_half_iff (x : α) : 1 - x < 1 / 2 ↔ 1 / 2 < x := by
  rw [sub_lt_comm, sub_half]

omit [FloorRing α] in
theorem half_lt_one_sub_iff (x : α) : 1 / 2 < 1 - x ↔ x < 1 / 2 := by
  rw [lt_sub_comm, sub_half]

theorem floor_neg_eq {x : α} (h : Int.fract x ≠ 0) : ⌊-x⌋ = -⌊x⌋ - 1 := by
  have hceil : ⌈x⌉ = ⌊x⌋ + 1 :=
    (Int.ceil_eq_floor_add_one_iff_notMem x).mpr (Int.fract_ne_zero_iff.mp h)
  rw [Int.floor_neg, hceil]
  ring

/-- Ties to the even neighbour are mirrored, since the neighbours' parities differ. -/
theorem roundHalfEven_neg (x : α) : roundHalfEven (-x) = -roundHalfEven x := by
  rcases eq_or_ne (Int.fract x) 0 with hzero | hne
  · obtain ⟨n, rfl⟩ := Int.fract_eq_zero_iff.mp hzero
    rw [roundHalfEven_intCast, ← Int.cast_neg, roundHalfEven_intCast]
  have hfract : Int.fract (-x) = 1 - Int.fract x := Int.fract_neg hne
  have hfloor : ⌊-x⌋ = -⌊x⌋ - 1 := floor_neg_eq hne
  have heven : Even (-⌊x⌋ - 1) ↔ ¬ Even ⌊x⌋ := by
    rw [Int.even_sub_one, even_neg]
  simp only [roundHalfEven, hfract, hfloor, one_sub_lt_half_iff, half_lt_one_sub_iff]
  rcases lt_trichotomy (Int.fract x) (1 / 2) with hlow | htie | hhigh
  · rw [if_neg hlow.not_gt, if_pos hlow, if_pos hlow]
    ring
  · simp only [htie, lt_irrefl, if_false, heven]
    split_ifs <;> ring
  · rw [if_pos hhigh, if_neg hhigh.not_gt, if_pos hhigh]
    ring

theorem roundTo_neg (digits : ℕ) (x : α) : roundTo digits (-x) = -roundTo digits x := by
  rw [roundTo, roundTo, neg_mul, roundHalfEven_neg, Int.cast_neg, neg_div]

theorem roundHalfAway_neg (x : α) : roundHalfAway (-x) = -roundHalfAway x := by
  rcases eq_or_ne (Int.fract x) 0 with hzero | hne
  · obtain ⟨n, rfl⟩ := Int.fract_eq_zero_iff.mp hzero
    rw [roundHalfAway_intCast, ← Int.cast_neg, roundHalfAway_intCast]
  -- off the integers the fraction is mirrored: below a half on one side, above on the other
  have hfract : Int.fract (-x) = 1 - Int.fract x := Int.fract_neg hne
  have hfloor : ⌊-x⌋ = -⌊x⌋ - 1 := floor_neg_eq hne
  simp only [roundHalfAway, hfract, hfloor, one_sub_lt_half_iff, half_lt_one_sub_iff]
  rcases lt_trichotomy (Int.fract x) (1 / 2) with hlow | htie | hhigh
  · rw [if_neg hlow.not_gt, if_pos hlow, if_pos hlow]
    ring
  · -- a tie is not at zero
    have hxne : x ≠ 0 := by
      rintro rfl
      exact hne Int.fract_zero
    simp only [htie, lt_irrefl, if_false]
    rcases lt_or_gt_of_ne hxne with hneg | hpos
    · rw [if_pos (neg_pos.mpr hneg), if_neg hneg.not_gt]
      ring
    · rw [if_neg (neg_pos.not.mpr hpos.not_gt), if_pos hpos]
      ring
  · rw [if_pos hhigh, if_neg hhigh.not_gt, if_pos hhigh]
    ring

theorem abs_roundHalfAway_sub_le (x : α) : |(roundHalfAway x : α) - x| ≤ 1 / 2 := by
  rw [roundHalfAway]
  split_ifs with hlow hhigh hpos
  · exact abs_floor_sub_le hlow.le
  · exact abs_floor_add_one_sub_le hhigh.le
  · exact abs_floor_add_one_sub_le (not_lt.mp hlow)
  · exact abs_floor_sub_le (not_lt.mp hhigh)

theorem roundHalfAway_mono : Monotone (roundHalfAway : α → ℤ) :=
  monotone_of_abs_sub_le abs_roundHalfAway_sub_le

variable (α) in
theorem roundHalfAway_half : roundHalfAway (1 / 2 : α) = 1 := by
  simp only [roundHalfAway, fract_half, floor_half, lt_irrefl, half_pos one_pos, if_true,
    if_false, zero_add]

/-- One half below zero is rounded away from it. -/
theorem roundHalfAway_nonneg_iff (x : α) : 0 ≤ roundHalfAway x ↔ -(1 / 2) < x := by
  constructor
  · intro hnonneg
    by_contra hle
    have hmono := roundHalfAway_mono (not_lt.mp hle)
    rw [roundHalfAway_neg, roundHalfAway_half] at hmono
    omega
  · intro hlt
    have hlow := (abs_le.mp (abs_roundHalfAway_sub_le x)).1
    have hgt : (-1 : α) < roundHalfAway x := by linarith
    have hgt' : (-1 : ℤ) < roundHalfAway x := by exact_mod_cast hgt
    omega

/-- What rounds to at most `n`: all below its half, unless both are negative. -/
theorem roundHalfAway_le_iff {n : ℤ} {x : α} (hsign : 0 ≤ n ∨ 0 ≤ x) :
    roundHalfAway x ≤ n ↔ x < n + 1 / 2 := by
  constructor
  · intro hle
    by_contra hlt
    have hnonneg : 0 ≤ n := by
      apply hsign.elim id
      intro hx
      have hhalf : -(1 / 2) < x := lt_of_lt_of_le (by norm_num) hx
      exact ((roundHalfAway_nonneg_iff x).mpr hhalf).trans hle
    have hmono := roundHalfAway_mono (not_lt.mp hlt)
    have htie : roundHalfAway ((n : α) + 1 / 2) = n + roundHalfAway (1 / 2 : α) := by
      apply (roundHalfAway_intCast_add_iff n _).mpr
      intro _
      have hcast : (0 : α) ≤ n := by exact_mod_cast hnonneg
      exact iff_of_true (by positivity) (by positivity)
    rw [htie, roundHalfAway_half] at hmono
    omega
  · intro hlt
    have hround := (abs_le.mp (abs_roundHalfAway_sub_le x)).2
    have hbelow : (roundHalfAway x : α) < n + 1 := by linarith
    have hbelow' : roundHalfAway x < n + 1 := by exact_mod_cast hbelow
    omega

/-- What rounds to at least `n`: its half and all above, if `n` is positive. -/
theorem le_roundHalfAway_iff {n : ℤ} (hn : 0 < n) (x : α) :
    n ≤ roundHalfAway x ↔ n - 1 / 2 ≤ x := by
  have hpred : 0 ≤ n - 1 := by omega
  have hbelow := roundHalfAway_le_iff (x := x) (Or.inl hpred)
  have hhalf : ((n - 1 : ℤ) : α) + 1 / 2 = n - 1 / 2 := by
    push_cast
    ring
  rw [hhalf] at hbelow
  rw [← not_lt, ← not_lt, ← hbelow, Int.le_sub_one_iff]

theorem isDecimal_storeTo (digits : ℕ) (x : α) : IsDecimal digits (storeTo digits x) := by
  refine ⟨roundHalfAway (x * 10 ^ digits), ?_⟩
  rw [storeTo]
  field_simp

theorem IsDecimal.storeTo_eq {digits : ℕ} {x : α} (h : IsDecimal digits x) :
    storeTo digits x = x := by
  obtain ⟨n, hn⟩ := h
  rw [storeTo, hn, roundHalfAway_intCast, ← hn]
  field_simp

theorem storeTo_mono (digits : ℕ) {x y : α} (h : x ≤ y) : storeTo digits x ≤ storeTo digits y := by
  have hd : (0 : α) < 10 ^ digits := by positivity
  apply div_le_div_of_nonneg_right _ hd.le
  exact_mod_cast roundHalfAway_mono (mul_le_mul_of_nonneg_right h hd.le)

theorem storeTo_neg (digits : ℕ) (x : α) : storeTo digits (-x) = -storeTo digits x := by
  rw [storeTo, storeTo, neg_mul, roundHalfAway_neg]
  push_cast
  ring

/-- A decimal moves out of a stored sum unless the rest is a tie that it takes across
zero. -/
theorem storeTo_add_iff {digits : ℕ} {x : α} (hx : IsDecimal digits x) (y : α) :
    storeTo digits (x + y) = x + storeTo digits y ↔
      (Int.fract (y * 10 ^ digits) = 1 / 2 → (0 < x + y ↔ 0 < y)) := by
  have hd : (0 : α) < 10 ^ digits := by positivity
  obtain ⟨n, hn⟩ := hx
  have hx : x = n / 10 ^ digits := by
    rw [← hn]
    field_simp
  have hsum : 0 < (n : α) + y * 10 ^ digits ↔ 0 < x + y := by
    rw [← hn, ← add_mul]
    exact mul_pos_iff_of_pos_right hd
  have hy : 0 < y * 10 ^ digits ↔ 0 < y := mul_pos_iff_of_pos_right hd
  rw [← hsum, ← hy, ← roundHalfAway_intCast_add_iff, storeTo, storeTo, add_mul, hn]
  rw [hx, ← add_div, div_left_inj' hd.ne']
  exact_mod_cast Iff.rfl

theorem storeTo_nonneg_iff (digits : ℕ) (x : α) :
    0 ≤ storeTo digits x ↔ -(1 / 2) / 10 ^ digits < x := by
  have hd : (0 : α) < 10 ^ digits := by positivity
  rw [div_lt_iff₀ hd, ← roundHalfAway_nonneg_iff, storeTo]
  constructor
  · intro h
    have hcast : (0 : α) ≤ roundHalfAway (x * 10 ^ digits) := by
      rwa [le_div_iff₀ hd, zero_mul] at h
    exact_mod_cast hcast
  · intro h
    have hcast : (0 : α) ≤ roundHalfAway (x * 10 ^ digits) := by exact_mod_cast h
    positivity

/-- What is stored as at most `y`, said of `y` cut off after its last digit. -/
theorem storeTo_le_iff (digits : ℕ) {x : α} (hx : 0 ≤ x) (y : α) :
    storeTo digits x ≤ y ↔ x * 10 ^ digits < ⌊y * 10 ^ digits⌋ + 1 / 2 := by
  have hd : (0 : α) < 10 ^ digits := by positivity
  rw [storeTo, div_le_iff₀ hd, ← Int.le_floor]
  exact roundHalfAway_le_iff (Or.inr (mul_nonneg hx hd.le))

/-- What is stored as at least `y`, said of `y` rounded up to its last digit. -/
theorem le_storeTo_iff (digits : ℕ) (x : α) {y : α} (hy : 0 < y) :
    y ≤ storeTo digits x ↔ ⌈y * 10 ^ digits⌉ - 1 / 2 ≤ x * 10 ^ digits := by
  have hd : (0 : α) < 10 ^ digits := by positivity
  have hceil : 0 < ⌈y * 10 ^ digits⌉ := Int.ceil_pos.mpr (mul_pos hy hd)
  rw [storeTo, le_div_iff₀ hd, ← Int.ceil_le, le_roundHalfAway_iff hceil]

/-- One half of the last digit is rounded up. -/
theorem storeTo_pos_iff (digits : ℕ) (x : α) :
    0 < storeTo digits x ↔ 1 / 2 ≤ x * 10 ^ digits := by
  have hd : (0 : α) < 10 ^ digits := by positivity
  have hone := le_roundHalfAway_iff Int.one_pos (x * 10 ^ digits)
  have hhalf : ((1 : ℤ) : α) - 1 / 2 = 1 / 2 := by
    rw [Int.cast_one, sub_half]
  rw [hhalf] at hone
  rw [← hone, storeTo, div_pos_iff_of_pos_right hd, Int.cast_pos]
  exact Int.lt_iff_add_one_le

end TradeStream.RoundDecimal
