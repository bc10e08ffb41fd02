import TradeStream.ExponentialAverage
import TradeStream.OscillatorRange

/-! The registry's average directional index against its two directional indicators. -/
namespace TradeStream.Backtesting.ExactSeries
open TradeStream.Causality TradeStream.Fallible TradeStream.ExponentialAverage VectorBTRunner

/-! ### Exponential averages, bar by bar -/

/-- The weight of the last bar in an average of that span. -/
def alpha (period : ℕ) : ℚ := 2 / (period + 1)

theorem alpha_pos (period : ℕ) : 0 < alpha period := by
  rw [alpha]
  positivity

theorem alpha_le_one {period : ℕ} (hperiod : 1 ≤ period) : alpha period ≤ 1 := by
  have hle : (1 : ℚ) ≤ period := by exact_mod_cast hperiod
  rw [alpha, div_le_one (by linarith)]
  linarith

theorem exponential_range (period : ℕ) (f : ℕ → Value) (t : ℕ) :
    exponential period ((List.range (t + 1)).map f) = average (alpha period) f t := by
  induction t with
  | zero => rfl
  | succ t ih =>
    rw [List.range_succ, List.map_append, List.map_singleton, exponential, List.foldl_append,
      List.foldl_cons, List.foldl_nil, average, ← ih, exponential]
    generalize List.foldl _ none _ = y
    cases y <;> cases f (t + 1) <;> simp [blend, alpha]

theorem ewmMean_range {period : ℕ} (hperiod : 1 ≤ period) (f : ℕ → Value) (n : ℕ) :
    library.ewmMean period ((List.range n).map f) =
      .ok ((List.range n).map (average (alpha period) f)) := by
  have hspan : ¬ (period : ℤ) < 1 := by omega
  simp only [library, if_neg hspan, ofHistory, List.length_map, List.length_range]
  congr 1
  apply List.map_congr_left
  intro i hi
  have hle : i + 1 ≤ n := List.mem_range.mp hi
  rw [← List.map_take, List.take_range, min_eq_left hle, exponential_range]

theorem ewmMean_some {period : ℕ} (hperiod : 1 ≤ period) (x : ℕ → ℚ) (n : ℕ) :
    library.ewmMean period ((List.range n).map fun i => some (x i)) =
      .ok ((List.range n).map fun i => some (smooth (alpha period) x i)) := by
  rw [ewmMean_range hperiod]
  exact congrArg Except.ok (List.map_congr_left fun i _ => average_some _ x i)

/-! ### Moves -/

section
variable (bars : List (Bar ℚ))

/-- How far the high rose from the bar before; the first bar has none before it. -/
def rise (t : ℕ) : ℚ := (bars.map (·.high)).getD t 0 - (bars.map (·.high)).getD (t - 1) 0

/-- How far the low fell. -/
def fall (t : ℕ) : ℚ := (bars.map (·.low)).getD (t - 1) 0 - (bars.map (·.low)).getD t 0

def upMove (t : ℕ) : ℚ := if fall bars t < rise bars t ∧ 0 < rise bars t then rise bars t else 0

def downMove (t : ℕ) : ℚ := if rise bars t < fall bars t ∧ 0 < fall bars t then fall bars t else 0

/-- The high rose as far as the low fell. -/
def tieMove (t : ℕ) : ℚ := if rise bars t = fall bars t ∧ 0 < fall bars t then fall bars t else 0

/-- The first move, and ever since it an up move or a down move that still counts. -/
def MovingSince (period t : ℕ) : Prop :=
  ∃ first ≤ t, (∀ j < first, upMove bars j = 0 ∧ downMove bars j = 0 ∧ tieMove bars j = 0) ∧
    ∀ j, first ≤ j → j ≤ t →
      weighted (alpha period) (upMove bars) j + weighted (alpha period) (downMove bars) j ≠ 0

variable (period : ℕ)

def smoothUp : ℕ → ℚ := smooth (alpha period) (upMove bars)

def smoothDown : ℕ → ℚ := smooth (alpha period) (downMove bars)

def smoothTie : ℕ → ℚ := smooth (alpha period) (tieMove bars)

end

/-- `100 * |p - m| / (p + m)` of the two indicators. -/
def directionalRatio (plus minus : List Value) : List Value :=
  runtime.dividedBy (runtime.scale 100 ((runtime.minus plus minus).map runtime.abs))
    (runtime.plus plus minus)

/-- The three have values at the bar: from the first one of the average on, the two indicators
have values whose sum is not zero. -/
def Defined (plus minus adx : List Value) (t : ℕ) : Prop :=
  ∃ first ≤ t, (∀ j < first, adx.getD j none = none) ∧ ∀ j, first ≤ j → j ≤ t →
    ∃ p m, plus.getD j none = some p ∧ minus.getD j none = some m ∧ p + m ≠ 0

/-- The average directional index is the average that the two indicators make, and between
zero and a hundred. -/
def Consistent (bars : List (Bar ℚ)) (params : Params Value) (period : ℕ) : Prop :=
  ∃ plus minus adx expected,
    create runtime library (bars.map exactBar) "PLUS_DI" params = .ok plus ∧
    create runtime library (bars.map exactBar) "MINUS_DI" params = .ok minus ∧
    create runtime library (bars.map exactBar) "ADX" params = .ok adx ∧
    library.ewmMean period (directionalRatio plus minus) = .ok expected ∧
    ∀ t < bars.length, Defined plus minus adx t →
      ∃ x, adx.getD t none = some x ∧ expected.getD t none = some x ∧ 0 ≤ x ∧ x ≤ 100

section
variable (bars : List (Bar ℚ))

theorem moves_zero : upMove bars 0 = 0 ∧ downMove bars 0 = 0 ∧ tieMove bars 0 = 0 := by
  have hrise : rise bars 0 = 0 := sub_self _
  have hfall : fall bars 0 = 0 := sub_self _
  simp [upMove, downMove, tieMove, hrise, hfall]

theorem upMove_nonneg (t : ℕ) : 0 ≤ upMove bars t := by
  rw [upMove]
  split_ifs with h
  · exact h.2.le
  · exact le_rfl

theorem downMove_nonneg (t : ℕ) : 0 ≤ downMove bars t := by
  rw [downMove]
  split_ifs with h
  · exact h.2.le
  · exact le_rfl

theorem tieMove_nonneg (t : ℕ) : 0 ≤ tieMove bars t := by
  rw [tieMove]
  split_ifs with h
  · exact h.2.le
  · exact le_rfl

variable (column : Bar Value → Value) (number : Bar ℚ → ℚ)
  (hcolumn : ∀ b, column (exactBar b) = some (number b))
include hcolumn

theorem column_exactBar : (bars.map exactBar).map column =
    (List.range bars.length).map fun i => some ((bars.map number).getD i 0) := by
  rw [map_exactBar bars column number hcolumn, map_some_eq, List.length_map]

theorem shift_exactBar : runtime.shift 1 ((bars.map exactBar).map column) =
    (List.range bars.length).map fun i =>
      if i = 0 then none else some ((bars.map number).getD (i - 1) 0) := by
  rw [map_exactBar bars column number hcolumn]
  apply List.ext_getElem
  · simp [SeriesRuntime.shift, Causality.shift]
  · intro i hi _
    have hlt : i < bars.length := by simpa [SeriesRuntime.shift, Causality.shift] using hi
    cases i with
    | zero => simp [SeriesRuntime.shift, Causality.shift, runtime, float64]
    | succ i => simp [SeriesRuntime.shift, Causality.shift, Nat.lt_of_succ_lt hlt]

theorem diff_exactBar : runtime.diff ((bars.map exactBar).map column) =
    (List.range bars.length).map fun i => if i = 0 then none
      else some ((bars.map number).getD i 0 - (bars.map number).getD (i - 1) 0) := by
  rw [SeriesRuntime.diff, shift_exactBar bars column number hcolumn,
    column_exactBar bars column number hcolumn, List.zipWith_map, List.zipWith_self]
  apply List.map_congr_left
  intro i _
  cases i <;> rfl

end

section
variable (bars : List (Bar ℚ))

theorem plusDm_eq : IndicatorRegistry.plusDm runtime (bars.map exactBar) =
    (List.range bars.length).map fun i => if i = 0 then none else some (rise bars i) :=
  diff_exactBar bars (·.high) (·.high) fun _ => rfl

theorem minusDm_eq : IndicatorRegistry.minusDm runtime (bars.map exactBar) =
    (List.range bars.length).map fun i => if i = 0 then none else some (fall bars i) := by
  rw [IndicatorRegistry.minusDm, diff_exactBar bars (·.low) (·.low) fun _ => rfl, List.map_map]
  apply List.map_congr_left
  intro i _
  cases i with
  | zero => rfl
  | succ i => simp [fall, runtime, float64]

theorem directionalMovement_range (f g : ℕ → Value) (n : ℕ) :
    IndicatorRegistry.directionalMovement runtime ((List.range n).map f) ((List.range n).map g) =
      (List.range n).map fun i =>
        if runtime.lt (g i) (f i) && runtime.lt (runtime.lit 0) (f i) then f i
        else runtime.lit 0 := by
  rw [IndicatorRegistry.directionalMovement, SeriesRuntime.orZero, both, SeriesRuntime.gt,
    SeriesRuntime.gtConst, List.map_map, List.zipWith_map, List.zipWith_self, List.zipWith_map,
    List.zipWith_self, List.zipWith_map, List.zipWith_self]
  rfl

theorem plusMoves_eq : IndicatorRegistry.directionalMovement runtime
    (IndicatorRegistry.plusDm runtime (bars.map exactBar))
    (IndicatorRegistry.minusDm runtime (bars.map exactBar)) =
      (List.range bars.length).map fun i => some (upMove bars i) := by
  rw [plusDm_eq, minusDm_eq, directionalMovement_range]
  apply List.map_congr_left
  intro i _
  cases i with
  | zero => simp [moves_zero, runtime, float64]
  | succ i => by_cases h : fall bars (i + 1) < rise bars (i + 1) ∧ 0 < rise bars (i + 1) <;>
      simp [upMove, runtime, float64, h]

theorem minusMoves_eq : IndicatorRegistry.directionalMovement runtime
    (IndicatorRegistry.minusDm runtime (bars.map exactBar))
    (IndicatorRegistry.plusDm runtime (bars.map exactBar)) =
      (List.range bars.length).map fun i => some (downMove bars i) := by
  rw [plusDm_eq, minusDm_eq, directionalMovement_range]
  apply List.map_congr_left
  intro i _
  cases i with
  | zero => simp [moves_zero, runtime, float64]
  | succ i => by_cases h : rise bars (i + 1) < fall bars (i + 1) ∧ 0 < fall bars (i + 1) <;>
      simp [downMove, runtime, float64, h]

/-- Against an up move that is already zero where it does not count, a tie is a down move. -/
theorem fall_against_upMove (t : ℕ) :
    (if upMove bars t < fall bars t ∧ 0 < fall bars t then fall bars t else 0) =
      downMove bars t + tieMove bars t := by
  rw [upMove, downMove, tieMove]
  by_cases hpos : 0 < fall bars t
  · rcases lt_trichotomy (fall bars t) (rise bars t) with hlt | heq | hgt
    · simp [hpos, hlt, hpos.trans hlt, hlt.not_gt, hlt.ne']
    · simp [heq, heq ▸ hpos]
    · simp [hpos, hgt, hgt.not_gt, hgt.ne]
  · simp [hpos]

/-- The moves down of the average directional index. -/
theorem adxMoves_eq : IndicatorRegistry.directionalMovement runtime
    (IndicatorRegistry.minusDm runtime (bars.map exactBar))
    ((List.range bars.length).map fun i => some (upMove bars i)) =
      (List.range bars.length).map fun i => some (downMove bars i + tieMove bars i) := by
  rw [minusDm_eq, directionalMovement_range]
  apply List.map_congr_left
  intro i _
  rw [← fall_against_upMove]
  cases i with
  | zero => simp [fall, runtime, float64]
  | succ i =>
    by_cases h : upMove bars (i + 1) < fall bars (i + 1) ∧ 0 < fall bars (i + 1) <;>
      simp [runtime, float64, h]

/-- The true range of a bar; the first has no close before it. -/
def rangeAt (t : ℕ) : ℚ :=
  let high := (bars.map (·.high)).getD t 0
  let low := (bars.map (·.low)).getD t 0
  let before := (bars.map (·.close)).getD (t - 1) 0
  if t = 0 then high - low else max (max (high - low) |high - before|) |low - before|

theorem trueRange_eq : IndicatorRegistry.trueRange runtime ((bars.map exactBar).map (·.close))
    (bars.map exactBar) = (List.range bars.length).map fun i => some (rangeAt bars i) := by
  simp only [IndicatorRegistry.trueRange]
  rw [shift_exactBar bars (·.close) (·.close) fun _ => rfl,
    column_exactBar bars (·.high) (·.high) fun _ => rfl,
    column_exactBar bars (·.low) (·.low) fun _ => rfl, minus_range, minus_range, minus_range,
    List.map_map, List.map_map, List.zip, List.zipWith_map, List.zipWith_self, List.zipWith_map,
    List.zipWith_self]
  apply List.map_congr_left
  intro i _
  cases i with
  | zero => simp [rangeAt, runtime, float64, List.reduceOption, largest]
  | succ i => simp [rangeAt, runtime, float64, List.reduceOption, largest]

variable {bars}

theorem between_exactBar (hbars : ∀ b ∈ bars, b.low ≤ b.close ∧ b.close ≤ b.high) (t : ℕ) :
    (bars.map (·.low)).getD t 0 ≤ (bars.map (·.close)).getD t 0 ∧
      (bars.map (·.close)).getD t 0 ≤ (bars.map (·.high)).getD t 0 := by
  rcases Nat.lt_or_ge t bars.length with ht | ht
  · exact close_between hbars ht
  · simp [ht]

/-- No move is longer than the true range. -/
theorem moves_le_rangeAt (hbars : ∀ b ∈ bars, b.low ≤ b.close ∧ b.close ≤ b.high) (t : ℕ) :
    upMove bars t + (downMove bars t + tieMove bars t) ≤ rangeAt bars t := by
  obtain ⟨hlow, hhigh⟩ := between_exactBar hbars t
  cases t with
  | zero =>
    obtain ⟨hup, hdown, htie⟩ := moves_zero bars
    rw [hup, hdown, htie, rangeAt, if_pos rfl]
    linarith
  | succ t =>
    obtain ⟨hlow', hhigh'⟩ := between_exactBar hbars t
    have hrange : max (max ((bars.map (·.high)).getD (t + 1) 0 - (bars.map (·.low)).getD (t + 1) 0)
        |(bars.map (·.high)).getD (t + 1) 0 - (bars.map (·.close)).getD t 0|)
        |(bars.map (·.low)).getD (t + 1) 0 - (bars.map (·.close)).getD t 0| =
          rangeAt bars (t + 1) := rfl
    have hnonneg : 0 ≤ rangeAt bars (t + 1) := by
      rw [← hrange]
      exact (abs_nonneg _).trans (le_max_right _ _)
    have hrise : rise bars (t + 1) ≤ rangeAt bars (t + 1) := by
      rw [← hrange]
      apply le_trans _ ((le_max_right _ _).trans (le_max_left _ _))
      apply le_trans _ (le_abs_self _)
      exact sub_le_sub_left hhigh' _
    have hfall : fall bars (t + 1) ≤ rangeAt bars (t + 1) := by
      rw [← hrange]
      apply le_trans _ (le_max_right _ _)
      apply le_trans _ (neg_le_abs _)
      rw [neg_sub]
      exact sub_le_sub_right hlow' _
    rw [upMove, downMove, tieMove]
    rcases lt_trichotomy (rise bars (t + 1)) (fall bars (t + 1)) with hlt | heq | hgt
    · simp only [hlt.not_gt, hlt.ne, false_and, ↓reduceIte]
      split_ifs <;> linarith
    · simp only [heq, lt_irrefl, false_and, ↓reduceIte]
      split_ifs <;> linarith
    · simp only [hgt.not_gt, hgt.ne', false_and, ↓reduceIte]
      split_ifs <;> linarith

end

/-! ### The three indicators -/

/-- `100 * |u - d| / (u + d)`. -/
def gap (u d : ℚ) : Value := divide (100 * |u - d|) (u + d)

theorem gap_eq_none_iff {u d : ℚ} : gap u d = none ↔ u + d = 0 := by
  rw [gap, divide]
  split_ifs with h <;> simp [h]

theorem gap_between {u d : ℚ} (hu : 0 ≤ u) (hd : 0 ≤ d) : ∀ x ∈ gap u d, 0 ≤ x ∧ x ≤ 100 := by
  intro x hx
  rw [gap, divide] at hx
  split_ifs at hx with h
  · exact absurd hx (by simp)
  · obtain rfl := Option.some.inj hx
    have hpos := lt_of_le_of_ne' (add_nonneg hu hd) h
    have habs : |u - d| ≤ u + d := abs_le.mpr ⟨by linarith, by linarith⟩
    rw [div_le_iff₀ hpos]
    exact ⟨by positivity, by linarith⟩

theorem abs_mul_of_pos {x y : ℚ} (hy : 0 < y) : |x * y| = |x| * y := by
  rw [abs_mul, abs_of_pos hy]

/-- The movement that the second sum has more makes no difference just where the gap keeps
its part of the whole. -/
theorem gap_eq_iff {u d e : ℚ} (hu : 0 ≤ u) (hd : 0 ≤ d) (he : 0 ≤ e) (hne : u + d ≠ 0) :
    gap u (d + e) = gap u d ↔ e = 0 ∨ u = 0 ∨ u ^ 2 = d * (d + e) := by
  have hpos := lt_of_le_of_ne' (add_nonneg hu hd) hne
  have hpos' : 0 < u + (d + e) := by linarith
  rw [gap, gap, divide, divide, if_neg hne, if_neg hpos'.ne', Option.some_inj,
    div_eq_div_iff hpos'.ne' hne, mul_assoc, mul_assoc, mul_right_inj' (by norm_num),
    ← abs_mul_of_pos hpos, ← abs_mul_of_pos hpos', abs_eq_abs]
  constructor
  · rintro (h | h)
    · have hprod : u * e = 0 := by linarith
      rcases mul_eq_zero.mp hprod with hzero | hzero
      · exact Or.inr (Or.inl hzero)
      · exact Or.inl hzero
    · exact Or.inr (Or.inr (by linarith))
  · rintro (rfl | rfl | h)
    · exact Or.inl (by ring)
    · exact Or.inl (by ring)
    · exact Or.inr (by linarith)

theorem ratio_divide {u d r : ℚ} (hu : 0 ≤ u) (hd : 0 ≤ d) (hle : u + d ≤ r) :
    runtime.div (runtime.mul (runtime.lit 100)
        (runtime.abs (runtime.sub (divide (100 * u) r) (divide (100 * d) r))))
      (runtime.add (divide (100 * u) r) (divide (100 * d) r)) = gap u d := by
  by_cases hr : r = 0
  · have hzero : u + d = 0 := by linarith
    rw [gap_eq_none_iff.mpr hzero]
    simp [divide, hr, runtime, float64]
  · have hpos : 0 < r := lt_of_le_of_ne' ((add_nonneg hu hd).trans hle) hr
    have hsum : 100 * u / r + 100 * d / r = 100 * (u + d) / r := by ring
    have hgap : 100 * |100 * u / r - 100 * d / r| = 100 * (100 * |u - d|) / r := by
      have heq : 100 * u / r - 100 * d / r = 100 * (u - d) / r := by ring
      rw [heq, abs_div, abs_mul, abs_of_pos hpos, abs_of_pos (by norm_num : (0 : ℚ) < 100)]
      ring
    have hleft : runtime.div (runtime.mul (runtime.lit 100)
        (runtime.abs (runtime.sub (divide (100 * u) r) (divide (100 * d) r))))
        (runtime.add (divide (100 * u) r) (divide (100 * d) r)) =
          divide (100 * |100 * u / r - 100 * d / r|) (100 * u / r + 100 * d / r) := by
      simp [divide, hr, runtime, float64]
    rw [hleft, hgap, hsum, gap, divide, divide]
    by_cases hzero : u + d = 0
    · simp [hzero]
    · have hne : 100 * (u + d) / r ≠ 0 := by positivity
      rw [if_neg hzero, if_neg hne]
      congr 1
      field_simp

theorem directionalRatio_range {u d r : ℕ → ℚ} (hu : ∀ i, 0 ≤ u i) (hd : ∀ i, 0 ≤ d i)
    (hle : ∀ i, u i + d i ≤ r i) (n : ℕ) :
    directionalRatio ((List.range n).map fun i => divide (100 * u i) (r i))
        ((List.range n).map fun i => divide (100 * d i) (r i)) =
      (List.range n).map fun i => gap (u i) (d i) := by
  rw [directionalRatio, minus_range, plus_range, List.map_map, SeriesRuntime.scale,
    List.map_map, SeriesRuntime.dividedBy, List.zipWith_map, List.zipWith_self]
  exact List.map_congr_left fun i _ => ratio_divide (hu i) (hd i) (hle i)

theorem directionalIndex_range {period : ℕ} (hperiod : 1 ≤ period) (x r : ℕ → ℚ) (n : ℕ) :
    IndicatorRegistry.directionalIndex runtime library period
        ((List.range n).map fun i => some (x i)) ((List.range n).map fun i => some (r i)) =
      .ok ((List.range n).map fun i => divide (100 * smooth (alpha period) x i) (r i)) := by
  rw [IndicatorRegistry.directionalIndex, ewmMean_some hperiod, ok_bind, scale_range,
    SeriesRuntime.dividedBy, List.zipWith_map, List.zipWith_self]
  rfl

section
variable {bars : List (Bar ℚ)} {params : Params Value} {period : ℕ}

/-- `PLUS_DI` and `MINUS_DI`, for the moves of the side. -/
theorem directional_eq {dm other : List (Bar Value) → List Value} {move : ℕ → ℚ}
    (hmove : IndicatorRegistry.directionalMovement runtime (dm (bars.map exactBar))
      (other (bars.map exactBar)) = (List.range bars.length).map fun i => some (move i))
    (hparams : runtime.getInt params "period" 14 = .ok (period : ℤ)) (hperiod : 1 ≤ period) :
    IndicatorRegistry.directional runtime library dm other ((bars.map exactBar).map (·.close))
        (bars.map exactBar) params =
      .ok ((List.range bars.length).map fun i => divide
        (100 * smooth (alpha period) move i) (smooth (alpha period) (rangeAt bars) i)) := by
  rw [IndicatorRegistry.directional, hparams, ok_bind, trueRange_eq, ewmMean_some hperiod, ok_bind,
    hmove, directionalIndex_range hperiod]

/-- What is smoothed of the moves is at most what is smoothed of the true range. -/
theorem smooth_moves_le (hbars : ∀ b ∈ bars, b.low ≤ b.close ∧ b.close ≤ b.high)
    (hperiod : 1 ≤ period) (t : ℕ) :
    smooth (alpha period) (upMove bars) t + (smooth (alpha period) (downMove bars) t +
      smooth (alpha period) (tieMove bars) t) ≤ smooth (alpha period) (rangeAt bars) t := by
  rw [← smooth_add, ← smooth_add]
  exact smooth_le (alpha_pos period).le (alpha_le_one hperiod) (moves_le_rangeAt hbars) t

theorem adx_eq (hbars : ∀ b ∈ bars, b.low ≤ b.close ∧ b.close ≤ b.high)
    (hparams : runtime.getInt params "period" 14 = .ok (period : ℤ)) (hperiod : 1 ≤ period) :
    IndicatorRegistry.adx runtime library ((bars.map exactBar).map (·.close))
        (bars.map exactBar) params =
      .ok ((List.range bars.length).map (average (alpha period) fun i =>
        gap (smoothUp bars period i) (smoothDown bars period i + smoothTie bars period i))) := by
  have hup := smooth_nonneg (alpha_pos period).le (alpha_le_one hperiod) (upMove_nonneg bars)
  have hdown := smooth_nonneg (alpha_pos period).le (alpha_le_one hperiod) fun i =>
    add_nonneg (downMove_nonneg bars i) (tieMove_nonneg bars i)
  have hle : ∀ t, smooth (alpha period) (upMove bars) t +
      smooth (alpha period) (fun i => downMove bars i + tieMove bars i) t ≤
        smooth (alpha period) (rangeAt bars) t := by
    intro t
    rw [smooth_add]
    exact smooth_moves_le hbars hperiod t
  have hratio := directionalRatio_range hup hdown hle bars.length
  rw [directionalRatio] at hratio
  rw [IndicatorRegistry.adx, hparams, ok_bind]
  simp only [plusMoves_eq, adxMoves_eq]
  rw [trueRange_eq, ewmMean_some hperiod, ok_bind, directionalIndex_range hperiod, ok_bind,
    directionalIndex_range hperiod, ok_bind]
  simp only [smoothUp, smoothDown, smoothTie, ← smooth_add, hratio, ewmMean_range hperiod]

variable (bars) in
theorem smooth_nonneg_of_moves (hperiod : 1 ≤ period) (t : ℕ) : 0 ≤ smoothUp bars period t ∧
    0 ≤ smoothDown bars period t ∧ 0 ≤ smoothTie bars period t := by
  have hα := (alpha_pos period).le
  have hα' := alpha_le_one hperiod
  exact ⟨smooth_nonneg hα hα' (upMove_nonneg bars) t, smooth_nonneg hα hα' (downMove_nonneg bars) t,
    smooth_nonneg hα hα' (tieMove_nonneg bars) t⟩

variable (bars period) in
/-- Nothing is smoothed before the first move. -/
theorem still_iff (first : ℕ) :
    (∀ j < first,
        smoothUp bars period j + (smoothDown bars period j + smoothTie bars period j) = 0) ↔
      ∀ j < first, upMove bars j = 0 ∧ downMove bars j = 0 ∧ tieMove bars j = 0 := by
  have hsum : ∀ j, smoothUp bars period j + (smoothDown bars period j + smoothTie bars period j) =
      smooth (alpha period)
        (fun i => upMove bars i + (downMove bars i + tieMove bars i)) j := by
    intro j
    rw [smooth_add, smooth_add, smoothUp, smoothDown, smoothTie]
  have hzero : ∀ j, upMove bars j + (downMove bars j + tieMove bars j) = 0 ↔
      upMove bars j = 0 ∧ downMove bars j = 0 ∧ tieMove bars j = 0 := by
    intro j
    have hdown := downMove_nonneg bars j
    have htie := tieMove_nonneg bars j
    rw [add_eq_zero_iff_of_nonneg (upMove_nonneg bars j) (add_nonneg hdown htie),
      add_eq_zero_iff_of_nonneg hdown htie]
  simp only [hsum, ← hzero]
  exact smooth_eq_zero_iff (alpha_pos period) first

variable (bars period) in
theorem smooth_eq_weighted_moves (t : ℕ) :
    smoothUp bars period t = alpha period * weighted (alpha period) (upMove bars) t ∧
      smoothDown bars period t = alpha period * weighted (alpha period) (downMove bars) t ∧
      smoothTie bars period t = alpha period * weighted (alpha period) (tieMove bars) t := by
  obtain ⟨hup, hdown, htie⟩ := moves_zero bars
  exact ⟨smooth_eq_weighted _ hup t, smooth_eq_weighted _ hdown t, smooth_eq_weighted _ htie t⟩

theorem counts_iff (t : ℕ) : smoothUp bars period t + smoothDown bars period t ≠ 0 ↔
    weighted (alpha period) (upMove bars) t + weighted (alpha period) (downMove bars) t ≠ 0 := by
  obtain ⟨hup, hdown, -⟩ := smooth_eq_weighted_moves bars period t
  rw [hup, hdown, ← mul_add]
  exact mul_ne_zero_iff_left (alpha_pos period).ne'

/-- The gap of the two indicators, and the gap that the average is made of. -/
theorem knownSince_iff (hperiod : 1 ≤ period) (t : ℕ) :
    KnownSince (fun i => gap (smoothUp bars period i) (smoothDown bars period i))
        (fun i => gap (smoothUp bars period i)
          (smoothDown bars period i + smoothTie bars period i)) t ↔
      MovingSince bars period t := by
  have hbefore : ∀ j, (smoothUp bars period j + smoothDown bars period j = 0 ∧
      smoothUp bars period j + (smoothDown bars period j + smoothTie bars period j) = 0) ↔
        smoothUp bars period j + (smoothDown bars period j + smoothTie bars period j) = 0 := by
    intro j
    obtain ⟨hup, hdown, htie⟩ := smooth_nonneg_of_moves bars hperiod j
    exact and_iff_right_of_imp fun h => by linarith
  have hsince : ∀ j, (smoothUp bars period j + smoothDown bars period j ≠ 0 ∧
      smoothUp bars period j + (smoothDown bars period j + smoothTie bars period j) ≠ 0) ↔
        weighted (alpha period) (upMove bars) j +
          weighted (alpha period) (downMove bars) j ≠ 0 := by
    intro j
    obtain ⟨hup, hdown, htie⟩ := smooth_nonneg_of_moves bars hperiod j
    rw [← counts_iff]
    exact and_iff_left_of_imp fun h hzero => h (by linarith)
  simp only [KnownSince, MovingSince, ne_eq, gap_eq_none_iff]
  simp only [← ne_eq, hbefore, hsince, still_iff]

theorem getD_range {n t : ℕ} (ht : t < n) (f : ℕ → Value) :
    ((List.range n).map f).getD t none = f t := by
  simp [ht]

theorem defined_iff (hbars : ∀ b ∈ bars, b.low ≤ b.close ∧ b.close ≤ b.high)
    (hperiod : 1 ≤ period) {t : ℕ} (ht : t < bars.length) :
    Defined
        ((List.range bars.length).map fun i => divide (100 * smoothUp bars period i)
          (smooth (alpha period) (rangeAt bars) i))
        ((List.range bars.length).map fun i => divide (100 * smoothDown bars period i)
          (smooth (alpha period) (rangeAt bars) i))
        ((List.range bars.length).map (average (alpha period) fun i =>
          gap (smoothUp bars period i) (smoothDown bars period i + smoothTie bars period i))) t ↔
      MovingSince bars period t := by
  rw [Defined, MovingSince]
  refine exists_congr fun first => and_congr_right fun hfirst => and_congr ?_ ?_
  · have hlt : ∀ j, j < first → j < bars.length := fun j hj => (hj.trans_le hfirst).trans ht
    rw [← still_iff bars period]
    constructor
    · intro h j hj
      have hnone := h j hj
      rw [getD_range (hlt j hj)] at hnone
      exact gap_eq_none_iff.mp ((average_eq_none_iff _ _ j).mp hnone j le_rfl)
    · intro h j hj
      rw [getD_range (hlt j hj)]
      exact (average_eq_none_iff _ _ j).mpr fun i hi =>
        gap_eq_none_iff.mpr (h i (hi.trans_lt hj))
  · refine forall_congr' fun j => forall_congr' fun _ => forall_congr' fun hj => ?_
    have hlt := hj.trans_lt ht
    obtain ⟨hup, hdown, htie⟩ := smooth_nonneg_of_moves bars hperiod j
    have hle : smoothUp bars period j + (smoothDown bars period j + smoothTie bars period j) ≤
      smooth (alpha period) (rangeAt bars) j := smooth_moves_le hbars hperiod j
    rw [getD_range hlt, getD_range hlt, ← counts_iff]
    constructor
    · rintro ⟨p, m, hp, hm, hne⟩ hzero
      have hup' : smoothUp bars period j = 0 := by linarith
      have hdown' : smoothDown bars period j = 0 := by linarith
      rw [divide] at hp hm
      split_ifs at hp hm with hr
      apply hne
      rw [← Option.some.inj hp, ← Option.some.inj hm, hup', hdown']
      simp
    · intro hne
      have hpos := lt_of_le_of_ne' (add_nonneg hup hdown) hne
      have hr : 0 < smooth (alpha period) (rangeAt bars) j := by linarith
      refine ⟨_, _, if_neg hr.ne', if_neg hr.ne', ?_⟩
      rw [← add_div, ← mul_add]
      positivity

/-- Where an up move or a down move counts, the two gaps are the same just where the ties
weigh nothing, the up moves weigh nothing, or they weigh as much as the geometric mean of the
down moves without and with the ties. -/
theorem gaps_eq_iff (hperiod : 1 ≤ period) (t : ℕ)
    (hcounts : smoothUp bars period t + smoothDown bars period t ≠ 0) :
    gap (smoothUp bars period t) (smoothDown bars period t + smoothTie bars period t) =
        gap (smoothUp bars period t) (smoothDown bars period t) ↔
      weighted (alpha period) (tieMove bars) t = 0 ∨ weighted (alpha period) (upMove bars) t = 0 ∨
        weighted (alpha period) (upMove bars) t ^ 2 = weighted (alpha period) (downMove bars) t *
          (weighted (alpha period) (downMove bars) t +
            weighted (alpha period) (tieMove bars) t) := by
  have hα := (alpha_pos period).ne'
  obtain ⟨hup, hdown, htie⟩ := smooth_nonneg_of_moves bars hperiod t
  obtain ⟨hup', hdown', htie'⟩ := smooth_eq_weighted_moves bars period t
  rw [gap_eq_iff hup hdown htie hcounts, hup', hdown', htie', mul_eq_zero_iff_left hα,
    mul_eq_zero_iff_left hα, mul_pow, ← mul_add, mul_mul_mul_comm, ← pow_two,
    mul_right_inj' (pow_ne_zero 2 hα)]

/-- The gaps of the average and of the two indicators are averaged alike just where they are
the same. -/
theorem averages_eq_iff (hperiod : 1 ≤ period) :
    (∀ t < bars.length, MovingSince bars period t →
        average (alpha period)
            (fun i => gap (smoothUp bars period i) (smoothDown bars period i)) t =
          average (alpha period) (fun i => gap (smoothUp bars period i)
            (smoothDown bars period i + smoothTie bars period i)) t) ↔
      ∀ t < bars.length, MovingSince bars period t →
        weighted (alpha period) (tieMove bars) t = 0 ∨
          weighted (alpha period) (upMove bars) t = 0 ∨
          weighted (alpha period) (upMove bars) t ^ 2 = weighted (alpha period) (downMove bars) t *
            (weighted (alpha period) (downMove bars) t +
              weighted (alpha period) (tieMove bars) t) := by
  simp only [← knownSince_iff hperiod]
  rw [average_eq_iff (alpha_pos period).ne']
  refine forall_congr' fun t => forall_congr' fun _ => forall_congr' fun h => ?_
  obtain ⟨first, hfirst, -, hsince⟩ := h
  have hcounts := (hsince t hfirst le_rfl).1
  rw [ne_eq, gap_eq_none_iff] at hcounts
  rw [eq_comm]
  exact gaps_eq_iff hperiod t hcounts

/-- Where the two are defined, what has to hold of the averages of the two gaps. -/
theorem consistent_iff_averages (hbars : ∀ b ∈ bars, b.low ≤ b.close ∧ b.close ≤ b.high)
    (hparams : runtime.getInt params "period" 14 = .ok (period : ℤ)) (hperiod : 1 ≤ period) :
    Consistent bars params period ↔ ∀ t < bars.length, MovingSince bars period t →
      average (alpha period) (fun i => gap (smoothUp bars period i) (smoothDown bars period i)) t =
        average (alpha period) (fun i => gap (smoothUp bars period i)
          (smoothDown bars period i + smoothTie bars period i)) t := by
  have hfactory : ∀ name factory,
      (IndicatorRegistry.factories runtime library).lookup (runtime.upper name) = some factory →
        create runtime library (bars.map exactBar) name params =
          factory ((bars.map exactBar).map (·.close)) (bars.map exactBar) params := by
    intro name factory h
    simp only [create, IndicatorRegistry.create, h]
  have hplus :=
    (hfactory "PLUS_DI" _ rfl).trans (directional_eq (plusMoves_eq bars) hparams hperiod)
  have hminus :=
    (hfactory "MINUS_DI" _ rfl).trans (directional_eq (minusMoves_eq bars) hparams hperiod)
  have hadx := (hfactory "ADX" _ rfl).trans (adx_eq hbars hparams hperiod)
  have hnonneg := smooth_nonneg_of_moves bars hperiod
  have hle : ∀ t, smoothUp bars period t + smoothDown bars period t ≤
      smooth (alpha period) (rangeAt bars) t := by
    intro t
    have hall : smoothUp bars period t + (smoothDown bars period t + smoothTie bars period t) ≤
      smooth (alpha period) (rangeAt bars) t := smooth_moves_le hbars hperiod t
    linarith [(hnonneg t).2.2]
  have hratio := directionalRatio_range (fun t => (hnonneg t).1) (fun t => (hnonneg t).2.1) hle
    bars.length
  have hexpected := congrArg (library.ewmMean period) hratio
  rw [ewmMean_range hperiod] at hexpected
  constructor
  · rintro ⟨plus, minus, adx, expected, hplus', hminus', hadx', hexpected', h⟩ t ht hmoving
    obtain rfl := Except.ok.inj (hplus.symm.trans hplus')
    obtain rfl := Except.ok.inj (hminus.symm.trans hminus')
    obtain rfl := Except.ok.inj (hadx.symm.trans hadx')
    obtain rfl := Except.ok.inj (hexpected.symm.trans hexpected')
    obtain ⟨x, hx, hx', -⟩ := h t ht ((defined_iff hbars hperiod ht).mpr hmoving)
    rw [getD_range ht] at hx hx'
    rw [hx, hx']
  · intro h
    refine ⟨_, _, _, _, hplus, hminus, hadx, hexpected, ?_⟩
    intro t ht hdefined
    have hmoving := (defined_iff hbars hperiod ht).mp hdefined
    have heq := h t ht hmoving
    obtain ⟨first, hfirst, -, hsince⟩ := (knownSince_iff hperiod t).mpr hmoving
    have hknown : average (alpha period)
        (fun i => gap (smoothUp bars period i) (smoothDown bars period i)) t ≠ none := by
      intro hnone
      exact (hsince first le_rfl hfirst).1 ((average_eq_none_iff _ _ t).mp hnone first hfirst)
    obtain ⟨x, hx⟩ := Option.ne_none_iff_exists'.mp hknown
    have hbetween := average_between (alpha_pos period).le (alpha_le_one hperiod)
      (fun i => gap_between (hnonneg i).1 (hnonneg i).2.1) t x hx
    rw [getD_range ht, getD_range ht, ← heq, hx]
    exact ⟨x, rfl, rfl, hbetween⟩

/-- The average is made of its own moves down, for which a tie with an up move counts. -/
theorem consistent_iff (hbars : ∀ b ∈ bars, b.low ≤ b.close ∧ b.close ≤ b.high)
    (hparams : runtime.getInt params "period" 14 = .ok (period : ℤ)) (hperiod : 1 ≤ period) :
    Consistent bars params period ↔ ∀ t < bars.length, MovingSince bars period t →
      weighted (alpha period) (tieMove bars) t = 0 ∨ weighted (alpha period) (upMove bars) t = 0 ∨
        weighted (alpha period) (upMove bars) t ^ 2 = weighted (alpha period) (downMove bars) t *
          (weighted (alpha period) (downMove bars) t +
            weighted (alpha period) (tieMove bars) t) := by
  rw [consistent_iff_averages hbars hparams hperiod, averages_eq_iff hperiod]

/-- A bar on a higher level makes no tie. -/
theorem risingBars_consistent :
    Consistent [priceBar 9 10 11, priceBar 10 11 12] (only "period" (.number (some 3))) 3 := by
  refine (consistent_iff ?_ rfl (by decide)).mpr ?_
  · decide +kernel
  · intro t ht _
    have hcases : t = 0 ∨ t = 1 := by
      change t < 2 at ht
      omega
    left
    rcases hcases with rfl | rfl <;> decide +kernel

/-- An up move, and a bar that is as much above as below the one before it. -/
theorem tiedBars_not_consistent :
    ¬ Consistent [priceBar 9 10 11, priceBar 10 11 12, priceBar 8 11 14]
      (only "period" (.number (some 3))) 3 := by
  rintro ⟨plus, minus, adx, expected, hplus, hminus, hadx, hexpected, h⟩
  have hplus' : create runtime library
      ([priceBar 9 10 11, priceBar 10 11 12, priceBar 8 11 14].map exactBar) "PLUS_DI"
        (only "period" (.number (some 3))) = .ok [some 0, some 25, some (25 / 4)] := by
    decide +kernel
  have hminus' : create runtime library
      ([priceBar 9 10 11, priceBar 10 11 12, priceBar 8 11 14].map exactBar) "MINUS_DI"
        (only "period" (.number (some 3))) = .ok [some 0, some 0, some 0] := by decide +kernel
  have hadx' : create runtime library
      ([priceBar 9 10 11, priceBar 10 11 12, priceBar 8 11 14].map exactBar) "ADX"
        (only "period" (.number (some 3))) = .ok [none, some 100, some 80] := by decide +kernel
  have hexpected' : library.ewmMean (3 : ℕ) (directionalRatio [some 0, some 25, some (25 / 4)]
      [some 0, some 0, some 0]) = .ok [none, some 100, some 100] := by decide +kernel
  obtain rfl := Except.ok.inj (hplus'.symm.trans hplus)
  obtain rfl := Except.ok.inj (hminus'.symm.trans hminus)
  obtain rfl := Except.ok.inj (hadx'.symm.trans hadx)
  obtain rfl := Except.ok.inj (hexpected'.symm.trans hexpected)
  have hdefined : Defined [some 0, some 25, some (25 / 4)] [some 0, some 0, some 0]
      [none, some 100, some 80] 2 := by
    refine ⟨1, by decide, fun j hj => by rw [Nat.lt_one_iff.mp hj]; rfl, ?_⟩
    intro j hj hj'
    have hcases : j = 1 ∨ j = 2 := by omega
    rcases hcases with rfl | rfl
    · exact ⟨25, 0, rfl, rfl, by norm_num⟩
    · exact ⟨25 / 4, 0, rfl, rfl, by norm_num⟩
  obtain ⟨x, hx, hx', -⟩ := h 2 (by decide) hdefined
  have hsame : (80 : ℚ) = 100 := (Option.some.inj hx).trans (Option.some.inj hx').symm
  norm_num at hsame

end

end TradeStream.Backtesting.ExactSeries
