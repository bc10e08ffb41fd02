import TradeStream.LookAhead

/-! The oscillators of the registry and their nominal ranges, on bars of numbers. -/
namespace TradeStream.Backtesting.ExactSeries
open TradeStream.Causality TradeStream.Fallible VectorBTRunner

/-! ### Series of numbers, bar by bar -/

theorem map_some_eq (xs : List ℚ) :
    xs.map some = (List.range xs.length).map fun i => some (xs.getD i 0) := by
  apply List.ext_getElem
  · simp
  · intro i hi _
    have hlt : i < xs.length := by simpa using hi
    simp [hlt]

theorem onNumbers_map_some (f : List ℚ → ℚ) (xs : List ℚ) :
    onNumbers f (xs.map some) = some (f xs) := by
  have hall : (xs.map some).mapM (m := Option) id = some xs := by
    induction xs with
    | nil => rfl
    | cons x rest ih =>
      rw [List.map_cons, List.mapM_cons, ih]
      rfl
  rw [onNumbers, hall]
  rfl

/-- The numbers that a window shows at bar `i`. -/
def windowAt (window : ℕ) (xs : List ℚ) (i : ℕ) : List ℚ :=
  (xs.take (i + 1)).drop (i + 1 - window)

theorem windowed_map_some (window : ℕ) (f : List Value → Value) (xs : List ℚ) :
    windowed window f (xs.map some) = (List.range xs.length).map fun i =>
      if window ≤ i + 1 then f ((windowAt window xs i).map some) else none := by
  rw [windowed, ofHistory, List.length_map]
  apply List.map_congr_left
  intro i hi
  have hlt : i < xs.length := List.mem_range.mp hi
  have hlength : ((xs.map some).take (i + 1)).length = i + 1 := by
    rw [List.length_take, List.length_map]
    omega
  rw [lastOf, hlength, Int.toNat_natCast, windowAt, List.map_drop, List.map_take]

theorem length_windowAt {window i : ℕ} {xs : List ℚ} (hi : i < xs.length)
    (hwindow : window ≤ i + 1) : (windowAt window xs i).length = window := by
  rw [windowAt, List.length_drop, List.length_take]
  omega

theorem getD_windowAt {window i j : ℕ} (xs : List ℚ) (hwindow : window ≤ i + 1)
    (hj : j < window) :
    (windowAt window xs i).getD j 0 = xs.getD (i + 1 - window + j) 0 := by
  have hlt : i + 1 - window + j < i + 1 := by omega
  rw [windowAt, List.getD_eq_getElem?_getD, List.getElem?_drop, List.getElem?_take_of_lt hlt,
    ← List.getD_eq_getElem?_getD]

/-- A window that is not empty shows its bar. -/
theorem mem_windowAt {window i : ℕ} {xs : List ℚ} (hi : i < xs.length) (hpos : 1 ≤ window)
    (hwindow : window ≤ i + 1) : xs.getD i 0 ∈ windowAt window xs i := by
  have hlast := getD_windowAt xs hwindow (Nat.sub_lt hpos Nat.one_pos)
  have hlength := length_windowAt hi hwindow
  have heq : i + 1 - window + (window - 1) = i := by omega
  rw [heq, List.getD_eq_getElem _ _ (by omega)] at hlast
  rw [← hlast]
  exact List.getElem_mem _

theorem le_largest {xs : List ℚ} {x : ℚ} (h : x ∈ xs) : x ≤ largest xs := by
  cases xs with
  | nil => exact absurd h List.not_mem_nil
  | cons first rest =>
    have hmax : (first :: rest).max? = some (largest (first :: rest)) := by
      rw [List.max?_cons', largest, List.headD_cons, List.foldl_cons, max_self]
    exact (List.max?_eq_some_iff.mp hmax).2 x h

theorem smallest_le {xs : List ℚ} {x : ℚ} (h : x ∈ xs) : smallest xs ≤ x := by
  cases xs with
  | nil => exact absurd h List.not_mem_nil
  | cons first rest =>
    have hmin : (first :: rest).min? = some (smallest (first :: rest)) := by
      rw [List.min?_cons', smallest, List.headD_cons, List.foldl_cons, min_self]
    exact (List.min?_eq_some_iff.mp hmin).2 x h

/-- The first of the values that none is beyond comes before the last value just where the
last one is not beyond all the others. -/
theorem placeOf_lt_iff {beyond : ℚ → ℚ → Bool} {key : ℚ → ℚ}
    (hkey : ∀ y x, beyond y x = decide (key x < key y)) {period : ℕ} (hperiod : 1 ≤ period)
    {xs : List ℚ} (hlength : xs.length = period + 1) :
    placeOf beyond xs < period ↔
      ∃ j < period, key (xs.getD period 0) ≤ key (xs.getD j 0) := by
  have htop : ∀ x, (xs.all fun y => !beyond y x) = true ↔ ∀ y ∈ xs, key y ≤ key x := by
    intro x
    simp [List.all_eq_true, hkey]
  have hlast : xs.getD period 0 ∈ xs := by
    rw [List.getD_eq_getElem _ _ (by omega)]
    exact List.getElem_mem _
  constructor
  · intro hplace
    have hlt : placeOf beyond xs < xs.length := by omega
    have hfound := (htop _).mp (List.findIdx_getElem (w := hlt)) _ hlast
    refine ⟨placeOf beyond xs, hplace, ?_⟩
    rw [List.getD_eq_getElem _ _ hlt]
    exact hfound
  · rintro ⟨j, hj, hle⟩
    -- the largest of the values before the last one
    obtain ⟨k, hk, hmax⟩ := Finset.exists_max_image (Finset.range period)
      (fun i => key (xs.getD i 0)) (Finset.nonempty_range_iff.mpr (by omega))
    rw [Finset.mem_range] at hk
    have hlargest : ∀ y ∈ xs, key y ≤ key (xs.getD k 0) := by
      intro y hy
      obtain ⟨i, hi, rfl⟩ := List.getElem_of_mem hy
      rw [← List.getD_eq_getElem _ 0 hi]
      rcases Nat.lt_or_ge i period with hlt | hge
      · exact hmax i (Finset.mem_range.mpr hlt)
      · have heq : i = period := by omega
        rw [heq]
        exact hle.trans (hmax j (Finset.mem_range.mpr hj))
    by_contra hnot
    have hbefore := List.not_of_lt_findIdx (hk.trans_le (not_lt.mp hnot))
    rw [← List.getD_eq_getElem _ 0 (by omega), (htop _).mpr hlargest] at hbefore
    exact absurd hbefore (by decide)

/-! ### The oscillators -/

/-- A bar of numbers. -/
def exactBar (b : Bar ℚ) : Bar Value :=
  ⟨some b.openPrice, some b.high, some b.low, some b.close, some b.volume⟩

/-- The values that an indicator has are all between two numbers. -/
def InRange (lo hi : ℚ) (result : Except PyError (List Value)) : Prop :=
  ∃ values, result = .ok values ∧ ∀ x, some x ∈ values → lo ≤ x ∧ x ≤ hi

/-- The nominal ranges of the four. -/
structure NominalRanges (bars : List (Bar ℚ)) (params : Params Value) : Prop where
  aroonUp : InRange 0 100 (create runtime library (bars.map exactBar) "AROON_UP" params)
  aroonDown : InRange 0 100 (create runtime library (bars.map exactBar) "AROON_DOWN" params)
  williamsR : InRange (-100) 0 (create runtime library (bars.map exactBar) "WILLIAMS_R" params)
  cmo : InRange (-100) 100 (create runtime library (bars.map exactBar) "CMO" params)

/-- The bar is beyond every one of the `period` bars before it. -/
def Breakout (beyond : ℚ → ℚ → Prop) (period : ℕ) (xs : List ℚ) (i : ℕ) : Prop :=
  period ≤ i ∧ i < xs.length ∧ ∀ j < i, i ≤ j + period → beyond (xs.getD i 0) (xs.getD j 0)

/-- A series of quotients, bar by bar. -/
theorem inRange_quotients {lo hi : ℚ} {n : ℕ} {num den : ℕ → Value}
    (h : ∀ i < n, ∀ x y, num i = some x → den i = some y → y ≠ 0 → lo ≤ x / y ∧ x / y ≤ hi) :
    InRange lo hi (.ok (runtime.dividedBy ((List.range n).map num) ((List.range n).map den))) := by
  refine ⟨_, rfl, ?_⟩
  intro q hq
  rw [SeriesRuntime.dividedBy, List.zipWith_map, List.zipWith_self, List.mem_map] at hq
  obtain ⟨i, hi, hdiv⟩ := hq
  simp only [runtime, float64, Option.bind_eq_some_iff, divide] at hdiv
  obtain ⟨x, hx, y, hy, hxy⟩ := hdiv
  split_ifs at hxy with hzero
  obtain rfl := Option.some.inj hxy
  exact h i (List.mem_range.mp hi) x y hx hy hzero

/-- What a window makes of numbers at bar `i`. -/
def windowValue (window : ℕ) (f : List ℚ → ℚ) (xs : List ℚ) (i : ℕ) : Value :=
  if window ≤ i + 1 then some (f (windowAt window xs i)) else none

theorem rolling_map_some (window : ℕ) (agg : Aggregation) (xs : List ℚ) :
    library.rolling window agg (xs.map some) =
      .ok ((List.range xs.length).map (windowValue window (aggregate agg) xs)) := by
  have hwindow : ¬ (window : ℤ) < 0 := by omega
  simp only [library, if_neg hwindow, windowed_map_some, onNumbers_map_some]
  rfl

theorem rollingApply_map_some (window : ℕ) (f : List Value → Value) (xs : List ℚ) :
    library.rollingApply window f (xs.map some) = .ok ((List.range xs.length).map fun i =>
      if window ≤ i + 1 then f ((windowAt window xs i).map some) else none) := by
  have hwindow : ¬ (window : ℤ) < 0 := by omega
  simp only [library, if_neg hwindow, windowed_map_some]

section
variable {n : ℕ} (f g : ℕ → Value)

theorem minus_range : runtime.minus ((List.range n).map f) ((List.range n).map g) =
    (List.range n).map fun i => runtime.sub (f i) (g i) := by
  rw [SeriesRuntime.minus, List.zipWith_map, List.zipWith_self]

theorem plus_range : runtime.plus ((List.range n).map f) ((List.range n).map g) =
    (List.range n).map fun i => runtime.add (f i) (g i) := by
  rw [SeriesRuntime.plus, List.zipWith_map, List.zipWith_self]

theorem scale_range (c : ℚ) : runtime.scale c ((List.range n).map f) =
    (List.range n).map fun i => runtime.mul (runtime.lit c) (f i) :=
  List.map_map

end

variable {bars : List (Bar ℚ)} {params : Params Value} {period : ℕ}

variable (bars) in
theorem map_exactBar (column : Bar Value → Value) (number : Bar ℚ → ℚ)
    (h : ∀ b, column (exactBar b) = some (number b)) :
    (bars.map exactBar).map column = (bars.map number).map some := by
  rw [List.map_map, List.map_map]
  exact List.map_congr_left fun b _ => h b

theorem close_between (hbars : ∀ b ∈ bars, b.low ≤ b.close ∧ b.close ≤ b.high) {i : ℕ}
    (hi : i < bars.length) :
    (bars.map (·.low)).getD i 0 ≤ (bars.map (·.close)).getD i 0 ∧
      (bars.map (·.close)).getD i 0 ≤ (bars.map (·.high)).getD i 0 := by
  simpa [hi] using hbars bars[i] (List.getElem_mem hi)

theorem williamsR_inRange (hbars : ∀ b ∈ bars, b.low ≤ b.close ∧ b.close ≤ b.high)
    (hparams : runtime.getInt params "period" 14 = .ok (period : ℤ)) (hperiod : 1 ≤ period) :
    InRange (-100) 0 (create runtime library (bars.map exactBar) "WILLIAMS_R" params) := by
  have hfactory : create runtime library (bars.map exactBar) "WILLIAMS_R" params =
    IndicatorRegistry.williamsR runtime library ((bars.map exactBar).map (·.close))
      (bars.map exactBar) params := rfl
  have hhigh := map_exactBar bars (·.high) (·.high) fun _ => rfl
  have hlow := map_exactBar bars (·.low) (·.low) fun _ => rfl
  have hclose := map_exactBar bars (·.close) (·.close) fun _ => rfl
  rw [hfactory]
  have hresult : IndicatorRegistry.williamsR runtime library ((bars.map exactBar).map (·.close))
      (bars.map exactBar) params = .ok (runtime.dividedBy
        (runtime.scale (-100) (runtime.minus
          ((List.range bars.length).map (windowValue period largest (bars.map (·.high))))
          ((bars.map (·.close)).map some)))
        (runtime.minus
          ((List.range bars.length).map (windowValue period largest (bars.map (·.high))))
          ((List.range bars.length).map (windowValue period smallest (bars.map (·.low)))))) := by
    rw [IndicatorRegistry.williamsR, hparams, hhigh, hlow, hclose, ok_bind, rolling_map_some,
      ok_bind, rolling_map_some, ok_bind, List.length_map, List.length_map]
    rfl
  rw [hresult, map_some_eq, List.length_map, minus_range, scale_range, minus_range]
  apply inRange_quotients
  intro i hi x y hx hy hne
  simp only [windowValue] at hx hy
  split_ifs at hx hy with hfull
  · obtain ⟨hlowClose, hcloseHigh⟩ := close_between hbars hi
    have htop : (bars.map (·.high)).getD i 0 ≤
        largest (windowAt period (bars.map (·.high)) i) :=
      le_largest (mem_windowAt (by simpa using hi) hperiod hfull)
    have hbottom : smallest (windowAt period (bars.map (·.low)) i) ≤
        (bars.map (·.low)).getD i 0 :=
      smallest_le (mem_windowAt (by simpa using hi) hperiod hfull)
    obtain rfl : -100 * (largest (windowAt period (bars.map (·.high)) i) -
      (bars.map (·.close)).getD i 0) = x := Option.some.inj hx
    obtain rfl : largest (windowAt period (bars.map (·.high)) i) -
      smallest (windowAt period (bars.map (·.low)) i) = y := Option.some.inj hy
    have hpos := lt_of_le_of_ne' (sub_nonneg.mpr (by linarith)) hne
    rw [le_div_iff₀ hpos, div_le_iff₀ hpos]
    constructor <;> linarith
  · exact absurd hy (by simp [runtime, float64])

/-! `delta.where(delta > 0, 0)` and `-delta.where(delta < 0, 0)`, with zero for no number. -/

def gainOf (delta : Value) : ℚ := max (delta.getD 0) 0

def lossOf (delta : Value) : ℚ := max (-delta.getD 0) 0

theorem gains_eq (delta : List Value) :
    runtime.orZero (runtime.gtConst delta (runtime.lit 0)) delta =
      (delta.map gainOf).map some := by
  rw [SeriesRuntime.orZero, SeriesRuntime.gtConst, List.zipWith_map_left, List.zipWith_self,
    List.map_map]
  apply List.map_congr_left
  intro d _
  cases d with
  | none => rfl
  | some x =>
    have hlt : runtime.lt (runtime.lit 0) (some x) = decide (0 < x) := rfl
    rw [hlt, Function.comp_apply, gainOf, Option.getD_some]
    by_cases hx : 0 < x
    · simp [hx, hx.le]
    · simp [hx, not_lt.mp hx, runtime, float64]

theorem losses_eq (delta : List Value) :
    (runtime.orZero (runtime.lessConst delta (runtime.lit 0)) delta).map runtime.neg =
      (delta.map lossOf).map some := by
  rw [SeriesRuntime.orZero, SeriesRuntime.lessConst, List.zipWith_map_left, List.zipWith_self,
    List.map_map, List.map_map]
  apply List.map_congr_left
  intro d _
  cases d with
  | none => rfl
  | some x =>
    have hlt : runtime.lt (some x) (runtime.lit 0) = decide (x < 0) := rfl
    rw [Function.comp_apply, Function.comp_apply, hlt, lossOf, Option.getD_some]
    by_cases hx : x < 0
    · simp [hx, hx.le, runtime, float64]
    · simp [hx, not_lt.mp hx, runtime, float64]

theorem sum_windowAt_nonneg {xs : List ℚ} (h : ∀ x ∈ xs, 0 ≤ x) (window i : ℕ) :
    0 ≤ (windowAt window xs i).sum :=
  List.sum_nonneg fun x hx => h x (List.mem_of_mem_take (List.mem_of_mem_drop hx))

theorem cmo_inRange (hparams : runtime.getInt params "period" 14 = .ok (period : ℤ)) :
    InRange (-100) 100 (create runtime library (bars.map exactBar) "CMO" params) := by
  have hfactory : create runtime library (bars.map exactBar) "CMO" params =
    IndicatorRegistry.cmo runtime library ((bars.map exactBar).map (·.close))
      (bars.map exactBar) params := rfl
  let delta := runtime.diff ((bars.map exactBar).map (·.close))
  let gains := delta.map gainOf
  let losses := delta.map lossOf
  have hresult : IndicatorRegistry.cmo runtime library ((bars.map exactBar).map (·.close))
      (bars.map exactBar) params = .ok (runtime.dividedBy
        (runtime.scale 100 (runtime.minus
          ((List.range delta.length).map (windowValue period List.sum gains))
          ((List.range delta.length).map (windowValue period List.sum losses))))
        (runtime.plus
          ((List.range delta.length).map (windowValue period List.sum gains))
          ((List.range delta.length).map (windowValue period List.sum losses)))) := by
    rw [IndicatorRegistry.cmo, hparams, ok_bind]
    simp only [gains_eq, losses_eq]
    rw [rolling_map_some, ok_bind, rolling_map_some, ok_bind, List.length_map, List.length_map]
    rfl
  rw [hfactory, hresult, minus_range, scale_range, plus_range]
  apply inRange_quotients
  intro i _ x y hx hy hne
  simp only [windowValue] at hx hy
  split_ifs at hx hy with hfull
  · have hgain : 0 ≤ (windowAt period gains i).sum := by
      apply sum_windowAt_nonneg
      simp only [gains, List.forall_mem_map]
      exact fun _ _ => le_max_right _ _
    have hloss : 0 ≤ (windowAt period losses i).sum := by
      apply sum_windowAt_nonneg
      simp only [losses, List.forall_mem_map]
      exact fun _ _ => le_max_right _ _
    obtain rfl : 100 * ((windowAt period gains i).sum - (windowAt period losses i).sum) = x :=
      Option.some.inj hx
    obtain rfl : (windowAt period gains i).sum + (windowAt period losses i).sum = y :=
      Option.some.inj hy
    have hpos := lt_of_le_of_ne' (add_nonneg hgain hloss) hne
    rw [le_div_iff₀ hpos, div_le_iff₀ hpos]
    constructor <;> linarith
  · exact absurd hy (by simp [runtime, float64])

theorem reduceOption_map_some (xs : List ℚ) : (xs.map some).reduceOption = xs := by
  rw [List.reduceOption, List.filterMap_map]
  exact List.filterMap_some

/-- Over a full window the first extreme is the last bar just where that bar is beyond the
`period` bars before it. -/
theorem placeOf_windowAt_lt_iff {beyond : ℚ → ℚ → Bool} {key : ℚ → ℚ}
    (hkey : ∀ y x, beyond y x = decide (key x < key y)) (hperiod : 1 ≤ period) {xs : List ℚ}
    {i : ℕ} (hi : i < xs.length) (hfull : period ≤ i) :
    placeOf beyond (windowAt (period + 1) xs i) < period ↔
      ¬ Breakout (fun x y => key y < key x) period xs i := by
  have hlength := length_windowAt hi (Nat.succ_le_succ hfull)
  have hat : ∀ j, j < period + 1 →
      (windowAt (period + 1) xs i).getD j 0 = xs.getD (i - period + j) 0 := by
    intro j hj
    rw [getD_windowAt _ (Nat.succ_le_succ hfull) hj, Nat.add_sub_add_right]
  have hlast : i - period + period = i := Nat.sub_add_cancel hfull
  rw [placeOf_lt_iff hkey hperiod hlength, hat period (Nat.lt_succ_self _), hlast]
  constructor
  · rintro ⟨j, hj, hle⟩ ⟨-, -, hbeyond⟩
    rw [hat j (by omega)] at hle
    exact hle.not_gt (hbeyond (i - period + j) (by omega) (by omega))
  · intro hnot
    by_contra hnone
    push Not at hnone
    apply hnot
    refine ⟨hfull, hi, ?_⟩
    intro j hj hnear
    have hbefore := hnone (j - (i - period)) (by omega)
    have heq : i - period + (j - (i - period)) = j := by omega
    rwa [hat _ (by omega), heq] at hbefore

/-- The value at a full window, its extreme being `placeOf` after the first. -/
def aroonValue (beyond : ℚ → ℚ → Bool) (period : ℕ) (xs : List ℚ) (i : ℕ) : ℚ :=
  100 * (placeOf beyond (windowAt (period + 1) xs i) + 1) / period

variable (bars) in
theorem aroon_eq (column : Bar Value → Value) (number : Bar ℚ → ℚ)
    (hcolumn : ∀ b, column (exactBar b) = some (number b)) (beyond : ℚ → ℚ → Bool)
    (place : List Value → ℕ) (hplace : ∀ xs, place xs = placeOf beyond xs.reduceOption)
    (hparams : runtime.getInt params "period" 25 = .ok (period : ℤ)) (hperiod : 1 ≤ period) :
    IndicatorRegistry.aroon runtime library column place
        ((bars.map exactBar).map (·.close)) (bars.map exactBar) params =
      .ok ((List.range (bars.map number).length).map fun i =>
        if period + 1 ≤ i + 1 then some (aroonValue beyond period (bars.map number) i)
        else none) := by
  have hpos : (0 : ℚ) < period := by exact_mod_cast hperiod
  have hvalue : ∀ w : List ℚ, runtime.div (runtime.lit (100 * (((period : ℤ) : ℚ) -
      (((period : ℤ) : ℚ) - 1 - place (w.map some))))) (runtime.lit ((period : ℤ) : ℚ)) =
        some (100 * ((placeOf beyond w : ℚ) + 1) / (period : ℚ)) := by
    intro w
    rw [hplace, reduceOption_map_some]
    change divide _ ((period : ℤ) : ℚ) = _
    rw [Int.cast_natCast, divide, if_neg hpos.ne']
    congr 3
    ring
  have hwindow : ((period : ℤ) + 1) = ((period + 1 : ℕ) : ℤ) := rfl
  rw [IndicatorRegistry.aroon, hparams, ok_bind, hwindow, map_exactBar bars column number hcolumn,
    rollingApply_map_some]
  simp only [hvalue]
  rfl

theorem aroonValue_inRange_iff (beyond : ℚ → ℚ → Bool) (hperiod : 1 ≤ period) (xs : List ℚ)
    (i : ℕ) :
    (0 ≤ aroonValue beyond period xs i ∧ aroonValue beyond period xs i ≤ 100) ↔
      placeOf beyond (windowAt (period + 1) xs i) < period := by
  have hpos : (0 : ℚ) < period := by exact_mod_cast hperiod
  have hnonneg : 0 ≤ aroonValue beyond period xs i := by
    rw [aroonValue]
    positivity
  rw [and_iff_right hnonneg, aroonValue, div_le_iff₀ hpos,
    mul_le_mul_iff_of_pos_left (by norm_num)]
  exact_mod_cast Nat.succ_le_iff

variable (bars) in
/-- The windows have one bar more than the period, so that the place of the extreme is
anything from zero to the period: at the last bar the value is above a hundred. -/
theorem aroon_inRange_iff (column : Bar Value → Value) (number : Bar ℚ → ℚ)
    (hcolumn : ∀ b, column (exactBar b) = some (number b)) (beyond : ℚ → ℚ → Bool) (key : ℚ → ℚ)
    (hkey : ∀ y x, beyond y x = decide (key x < key y)) (place : List Value → ℕ)
    (hplace : ∀ xs, place xs = placeOf beyond xs.reduceOption)
    (hparams : runtime.getInt params "period" 25 = .ok (period : ℤ)) (hperiod : 1 ≤ period) :
    InRange 0 100 (IndicatorRegistry.aroon runtime library column place
        ((bars.map exactBar).map (·.close)) (bars.map exactBar) params) ↔
      ∀ i, ¬ Breakout (fun x y => key y < key x) period (bars.map number) i := by
  have hrange := aroonValue_inRange_iff beyond hperiod (bars.map number)
  rw [aroon_eq bars column number hcolumn beyond place hplace hparams hperiod]
  constructor
  · rintro ⟨values, heq, hbounds⟩ i hbreak
    obtain rfl := Except.ok.inj heq
    have hi : i < (bars.map number).length := hbreak.2.1
    have hmem : some (aroonValue beyond period (bars.map number) i) ∈
        (List.range (bars.map number).length).map fun i =>
          if period + 1 ≤ i + 1 then some (aroonValue beyond period (bars.map number) i)
          else none :=
      List.mem_map.mpr ⟨i, List.mem_range.mpr hi, if_pos (Nat.succ_le_succ hbreak.1)⟩
    have hplaced := (hrange i).mp (hbounds _ hmem)
    exact (placeOf_windowAt_lt_iff hkey hperiod hi hbreak.1).mp hplaced hbreak
  · intro hnone
    refine ⟨_, rfl, ?_⟩
    intro x hx
    obtain ⟨i, hi, hxi⟩ := List.mem_map.mp hx
    split_ifs at hxi with hfull
    obtain rfl := Option.some.inj hxi
    rw [hrange]
    exact (placeOf_windowAt_lt_iff hkey hperiod (List.mem_range.mp hi)
      (Nat.le_of_succ_le_succ hfull)).mpr (hnone i)

/-- The four are in their ranges just where no bar makes a high above, or a low below, those
of all the bars of the Aroon period before it. -/
theorem nominalRanges_iff {aroonPeriod : ℕ}
    (hbars : ∀ b ∈ bars, b.low ≤ b.close ∧ b.close ≤ b.high)
    (hparams : runtime.getInt params "period" 14 = .ok (period : ℤ))
    (haroon : runtime.getInt params "period" 25 = .ok (aroonPeriod : ℤ))
    (hperiod : 1 ≤ period) (hpositive : 1 ≤ aroonPeriod) :
    NominalRanges bars params ↔
      ∀ i, ¬ Breakout (fun x y => y < x) aroonPeriod (bars.map (·.high)) i ∧
        ¬ Breakout (fun x y => x < y) aroonPeriod (bars.map (·.low)) i := by
  have hup := aroon_inRange_iff bars (·.high) (·.high) (fun _ => rfl) (fun y x => x < y) id
    (fun _ _ => rfl) runtime.argmax (fun _ => rfl) haroon hpositive
  have hdown := aroon_inRange_iff bars (·.low) (·.low) (fun _ => rfl) (fun y x => y < x)
    (fun x => -x) (fun y x => by simp) runtime.argmin (fun _ => rfl) haroon hpositive
  have hneg : (fun x y : ℚ => -y < -x) = fun x y => x < y := by
    ext x y
    exact neg_lt_neg_iff
  rw [hneg] at hdown
  constructor
  · intro h i
    exact ⟨hup.mp h.aroonUp i, hdown.mp h.aroonDown i⟩
  · intro hnone
    exact
      { aroonUp := hup.mpr fun i => (hnone i).1
        aroonDown := hdown.mpr fun i => (hnone i).2
        williamsR := williamsR_inRange hbars hparams hperiod
        cmo := cmo_inRange hparams }

/-- A bar with these prices. -/
def priceBar (low close high : ℚ) : Bar ℚ := ⟨close, high, low, close, 1⟩

/-- A period of one bar, and a second bar with a new high. -/
theorem risingBar_not_nominalRanges :
    ¬ NominalRanges [priceBar 9 10 11, priceBar 10 11 12] (only "period" (.number (some 1))) := by
  intro h
  obtain ⟨values, heq, hbounds⟩ := h.aroonUp
  have hresult : create runtime library
      ([priceBar 9 10 11, priceBar 10 11 12].map exactBar) "AROON_UP"
        (only "period" (.number (some 1))) = .ok [none, some 200] := by decide +kernel
  obtain rfl := Except.ok.inj (hresult.symm.trans heq)
  have hover := (hbounds 200 (by simp)).2
  norm_num at hover

/-- A close that rises between the same high and low. -/
theorem levelBars_nominalRanges :
    NominalRanges [priceBar 9 10 11, priceBar 9 11 11] (only "period" (.number (some 1))) := by
  refine (@nominalRanges_iff _ _ 1 1 ?_ rfl rfl le_rfl le_rfl).mpr ?_
  · decide +kernel
  · intro i
    constructor
    · rintro ⟨hfull, hi, hbeyond⟩
      obtain rfl : i = 1 := by
        change i < 2 at hi
        omega
      exact lt_irrefl _ (hbeyond 0 Nat.one_pos le_rfl)
    · rintro ⟨hfull, hi, hbeyond⟩
      obtain rfl : i = 1 := by
        change i < 2 at hi
        omega
      exact lt_irrefl _ (hbeyond 0 Nat.one_pos le_rfl)

end TradeStream.Backtesting.ExactSeries
