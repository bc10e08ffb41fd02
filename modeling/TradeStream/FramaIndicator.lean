import Mathlib.Analysis.SpecialFunctions.Pow.Real

/-! `FramaIndicator` of the registry, and where it is an average of the close prices. -/
namespace TradeStream.FramaIndicator

variable {K : Type*} [Field K] [LinearOrder K]

/-- The two of the middle is found by name. -/
scoped instance atLeastTwo_two : Nat.AtLeastTwo 2 := ⟨by norm_num⟩

structure Bar (K : Type*) [LE K] where
  high : K
  low : K
  close : K
  low_le_high : low ≤ high

/-- The bars before `barCount` are there. -/
structure BarSeries (K : Type*) [LE K] where
  barCount : ℕ
  getBar : ℕ → Bar K

structure Parameters (K : Type*) [Zero K] [LT K] where
  sc : K
  fc : ℕ
  alpha : K
  sc_pos : 0 < sc
  fc_pos : 0 < fc
  alpha_pos : 0 < alpha

section
variable (pow : K → K → K) (params : Parameters K) (series : BarSeries K)

/-- The body is the distance of the close from the middle of the bar. -/
def calculateFractalDimension (index : ℕ) : K :=
  let bar := series.getBar index
  let range := bar.high - bar.low
  let body := |bar.close - (bar.high + bar.low) / 2|
  if range = 0 then 1 else 1 + body / range * params.sc

def adaptiveAlpha (index : ℕ) : K :=
  pow (calculateFractalDimension params series index) params.alpha

/-- `getValue(index)`. -/
def value : ℕ → K
  | 0 => if params.fc = 0 then (series.getBar 0).close else 0
  | index + 1 =>
    if index + 1 < params.fc then 0
    else if index + 1 = params.fc then (series.getBar (index + 1)).close
    else value index +
      ((series.getBar (index + 1)).close - value index) *
        adaptiveAlpha pow params series (index + 1)

end

/-- The value is a convex combination of the one before and the price, and lies between two of
the close prices so far. -/
structure Averages (series : BarSeries K) (value : ℕ → K) (index : ℕ) : Prop where
  convex : ∃ t, 0 ≤ t ∧ t ≤ 1 ∧ value index =
    value (index - 1) + ((series.getBar index).close - value (index - 1)) * t
  above : ∃ j ≤ index, (series.getBar j).close ≤ value index
  below : ∃ j ≤ index, value index ≤ (series.getBar j).close

/-- The bar has no range, or closes in its middle or where the one before it did. -/
def Unmoved (series : BarSeries K) (index : ℕ) : Prop :=
  (series.getBar index).high = (series.getBar index).low ∨
    2 * (series.getBar index).close = (series.getBar index).high + (series.getBar index).low ∨
    (series.getBar index).close = (series.getBar (index - 1)).close

section
variable {pow : K → K → K} {params : Parameters K} {series : BarSeries K} {index : ℕ}

theorem value_fc : value pow params series params.fc = (series.getBar params.fc).close := by
  obtain ⟨fc, hfc⟩ := Nat.exists_eq_succ_of_ne_zero params.fc_pos.ne'
  rw [hfc, value, if_neg (by omega), if_pos hfc.symm]

theorem value_succ (h : params.fc ≤ index) :
    value pow params series (index + 1) = value pow params series index +
      ((series.getBar (index + 1)).close - value pow params series index) *
        adaptiveAlpha pow params series (index + 1) := by
  rw [value, if_neg (by omega), if_neg (by omega)]

variable [IsStrictOrderedRing K]

/-- The dimension is one at least, and one only for a bar without a range or a body. -/
theorem one_le_fractalDimension : 1 ≤ calculateFractalDimension params series index := by
  have hrange := sub_nonneg.mpr (series.getBar index).low_le_high
  simp only [calculateFractalDimension]
  split_ifs
  · exact le_rfl
  · have hbody := div_nonneg (abs_nonneg ((series.getBar index).close -
      ((series.getBar index).high + (series.getBar index).low) / 2)) hrange
    exact le_add_of_nonneg_right (mul_nonneg hbody params.sc_pos.le)

theorem fractalDimension_eq_one_iff :
    calculateFractalDimension params series index = 1 ↔
      (series.getBar index).high = (series.getBar index).low ∨
        2 * (series.getBar index).close =
          (series.getBar index).high + (series.getBar index).low := by
  have hmiddle : (series.getBar index).close -
      ((series.getBar index).high + (series.getBar index).low) / 2 = 0 ↔
        2 * (series.getBar index).close =
          (series.getBar index).high + (series.getBar index).low := by
    rw [sub_eq_zero, eq_div_iff two_ne_zero, mul_comm]
  simp only [calculateFractalDimension]
  split_ifs with hrange
  · exact iff_of_true rfl (Or.inl (sub_eq_zero.mp hrange))
  · rw [add_eq_left, mul_eq_zero, or_iff_left params.sc_pos.ne', div_eq_zero_iff,
      or_iff_left hrange, abs_eq_zero, hmiddle, or_iff_right]
    exact fun heq => hrange (sub_eq_zero.mpr heq)

end

/-! ### Real arithmetic -/

section
variable {params : Parameters ℝ} {series : BarSeries ℝ} {index : ℕ}

theorem one_le_adaptiveAlpha : 1 ≤ adaptiveAlpha (· ^ ·) params series index :=
  Real.one_le_rpow one_le_fractalDimension params.alpha_pos.le

theorem adaptiveAlpha_eq_one_iff :
    adaptiveAlpha (· ^ ·) params series index = 1 ↔
      calculateFractalDimension params series index = 1 := by
  constructor
  · intro h
    by_contra hne
    have hlt := lt_of_le_of_ne one_le_fractalDimension (Ne.symm hne)
    exact (Real.one_lt_rpow hlt params.alpha_pos).ne' h
  · intro h
    rw [adaptiveAlpha, h, Real.one_rpow]

variable (params) in
theorem unmoved_succ_iff :
    Unmoved series (index + 1) ↔
      adaptiveAlpha (· ^ ·) params series (index + 1) = 1 ∨
        (series.getBar (index + 1)).close = (series.getBar index).close := by
  have hdimension : adaptiveAlpha (· ^ ·) params series (index + 1) = 1 ↔ _ :=
    adaptiveAlpha_eq_one_iff.trans fractalDimension_eq_one_iff
  rw [Unmoved, ← or_assoc, ← hdimension, Nat.add_sub_cancel]

/-- From a value that is the close price, the next is an average just where its bar is unmoved. -/
theorem convex_succ_iff (hfc : params.fc ≤ index)
    (hvalue : value (· ^ ·) params series index = (series.getBar index).close) :
    (∃ t, 0 ≤ t ∧ t ≤ 1 ∧ value (· ^ ·) params series (index + 1) =
      value (· ^ ·) params series index +
        ((series.getBar (index + 1)).close - value (· ^ ·) params series index) * t) ↔
      Unmoved series (index + 1) := by
  rw [value_succ hfc, hvalue, unmoved_succ_iff params]
  set alpha := adaptiveAlpha (· ^ ·) params series (index + 1) with halpha
  constructor
  · -- a price that has moved tells the factor, which is one at least
    rintro ⟨t, -, hle, heq⟩
    by_cases hmove : (series.getBar (index + 1)).close = (series.getBar index).close
    · exact Or.inr hmove
    · have hsame : alpha = t := mul_left_cancel₀ (sub_ne_zero.mpr hmove) (add_left_cancel heq)
      exact Or.inl (le_antisymm (hsame.trans_le hle) one_le_adaptiveAlpha)
  · rintro (hone | hsame)
    · exact ⟨1, zero_le_one, le_rfl, by rw [hone]⟩
    · exact ⟨1, zero_le_one, le_rfl, by rw [hsame, sub_self, zero_mul, zero_mul]⟩

theorem value_succ_eq_close (hfc : params.fc ≤ index)
    (hvalue : value (· ^ ·) params series index = (series.getBar index).close)
    (hunmoved : Unmoved series (index + 1)) :
    value (· ^ ·) params series (index + 1) = (series.getBar (index + 1)).close := by
  rw [unmoved_succ_iff params] at hunmoved
  rw [value_succ hfc, hvalue]
  rcases hunmoved with hone | hsame
  · rw [hone, mul_one, add_sub_cancel]
  · rw [hsame, sub_self, zero_mul, add_zero]

/-- As long as the bars are unmoved the value is the close price. -/
theorem value_eq_close (hunmoved : ∀ i, params.fc < i → i ≤ index → Unmoved series i)
    (hfc : params.fc ≤ index) :
    value (· ^ ·) params series index = (series.getBar index).close := by
  induction index, hfc using Nat.le_induction with
  | base => exact value_fc
  | succ index hfc ih =>
    have hvalue := ih fun i hi hle => hunmoved i hi (hle.trans (Nat.le_succ index))
    exact value_succ_eq_close hfc hvalue (hunmoved (index + 1) (Nat.lt_succ_of_le hfc) le_rfl)

end

/-- The values beyond the warm-up are averages just where every bar there is unmoved, and then
they are the close prices. -/
theorem averages_iff (params : Parameters ℝ) (series : BarSeries ℝ) :
    (∀ i, params.fc < i → i < series.barCount → Averages series (value (· ^ ·) params series) i) ↔
      ∀ i, params.fc < i → i < series.barCount → Unmoved series i := by
  constructor
  · intro h i hi hcount
    -- the bars before are unmoved, so that the value before is its close price
    induction i using Nat.strong_induction_on with
    | _ i ih =>
      obtain ⟨index, rfl⟩ := Nat.exists_eq_succ_of_ne_zero (Nat.ne_zero_of_lt hi)
      have hfc : params.fc ≤ index := Nat.le_of_lt_succ hi
      have hvalue : value (· ^ ·) params series index = (series.getBar index).close :=
        value_eq_close (fun j hj hle => ih j (Nat.lt_succ_of_le hle) hj (by omega)) hfc
      exact (convex_succ_iff hfc hvalue).mp (h (index + 1) hi hcount).convex
  · intro h i hi hcount
    obtain ⟨index, rfl⟩ := Nat.exists_eq_succ_of_ne_zero (Nat.ne_zero_of_lt hi)
    have hfc : params.fc ≤ index := Nat.le_of_lt_succ hi
    have hbefore : ∀ k ≤ index + 1, params.fc ≤ k →
        value (· ^ ·) params series k = (series.getBar k).close := by
      intro k hk hfck
      exact value_eq_close (fun j hj hle => h j hj (by omega)) hfck
    have hlast := hbefore (index + 1) le_rfl hi.le
    exact ⟨(convex_succ_iff hfc (hbefore index (Nat.le_succ index) hfc)).mpr (h _ hi hcount),
      ⟨index + 1, le_rfl, hlast.ge⟩, ⟨index + 1, le_rfl, hlast.le⟩⟩

theorem low_le_high_of_rise : (1 : ℝ) ≤ 2 := one_le_two

/-- Three bars that close at 1, 1 and 2; the last one reaches from 1 to 2. -/
def risingBars : BarSeries ℝ where
  barCount := 3
  getBar i := if i = 2 then ⟨2, 1, 2, low_le_high_of_rise⟩ else ⟨1, 1, 1, le_rfl⟩

def oneBarWarmUp : Parameters ℝ where
  sc := 1
  fc := 1
  alpha := 1
  sc_pos := one_pos
  fc_pos := Nat.one_pos
  alpha_pos := one_pos

/-- The last value is 5 / 2. -/
theorem risingBars_not_averages :
    ¬ ∀ i, oneBarWarmUp.fc < i → i < risingBars.barCount →
      Averages risingBars (value (· ^ ·) oneBarWarmUp risingBars) i := by
  intro h
  have hvalue : value (· ^ ·) oneBarWarmUp risingBars 2 = 5 / 2 := by
    have hfirst : value (· ^ ·) oneBarWarmUp risingBars 1 = 1 := value_fc
    change value _ oneBarWarmUp risingBars (1 + 1) = 5 / 2
    rw [value_succ (show oneBarWarmUp.fc ≤ 1 from le_rfl), hfirst]
    norm_num [adaptiveAlpha, calculateFractalDimension, risingBars, oneBarWarmUp]
  obtain ⟨j, -, hle⟩ := (h 2 (by decide) (by decide)).below
  have hclose : (risingBars.getBar j).close ≤ 2 := by
    dsimp only [risingBars]
    split_ifs <;> norm_num
  rw [hvalue] at hle
  linarith

end TradeStream.FramaIndicator
