import TradeStream.BacktestScore
import TradeStream.LeastSquares
import TradeStream.RoundDecimal

/-! `RegimeDetector.detect`: a regime and a confidence from the candles, in exact arithmetic.
`sqrt` is `math.sqrt`. -/
namespace TradeStream.RegimeDetector
open TradeStream.BacktestRunner (average)
open TradeStream.LeastSquares TradeStream.RoundDecimal
open scoped TradeStream.BacktestRunner

variable {α : Type*} [Field α] [LinearOrder α]

structure Candle (α : Type*) where
  high : α
  low : α
  close : α
  volume : Option α

structure Thresholds (α : Type*) where
  volatilityHigh : α
  volatilityLow : α
  trendStrong : α
  trendWeak : α
  volumeQuiet : α

inductive RegimeType where
  | unknown
  | trendingUp
  | trendingDown
  | ranging
  | volatile
  | quiet
  deriving DecidableEq, Repr

structure Indicators (α : Type*) where
  volatility : α
  trendStrength : α
  trendDirection : α
  volumeRatio : α
  atrRatio : α

structure Detection (α : Type*) where
  regimeType : RegimeType
  confidence : α
  indicators : Option (Indicators α)
  instrument : Option String
  reason : Option String

/-- `REGIME_THRESHOLDS`. -/
def regimeThresholds : Thresholds α where
  volatilityHigh := 3 / 100
  volatilityLow := 1 / 100
  trendStrong := 6 / 10
  trendWeak := 3 / 10
  volumeQuiet := 1 / 2

def calculateVolatility (sqrt : α → α) (closes : List α) : α :=
  if closes.length < 2 then 0
  else
    let returns := (List.range' 1 (closes.length - 1)).filterMap fun i =>
      if closes.getD (i - 1) 0 ≠ 0 then
        some ((closes.getD i 0 - closes.getD (i - 1) 0) / closes.getD (i - 1) 0)
      else none
    if returns = [] then 0
    else sqrt (average (returns.map fun r => (r - average returns) ^ 2))

def calculateTrendStrength (closes : List α) : α :=
  if closes.length < 10 then 0
  else
    let n := closes.length
    let xMean := ((n : α) - 1) / 2
    let yMean := average closes
    let ssXy := ((List.range n).map fun (i : ℕ) =>
      ((i : α) - xMean) * (closes.getD i 0 - yMean)).sum
    let ssXx := ((List.range n).map fun (i : ℕ) => ((i : α) - xMean) ^ 2).sum
    let ssYy := ((List.range n).map fun i => (closes.getD i 0 - yMean) ^ 2).sum
    if ssXx = 0 ∨ ssYy = 0 then 0 else min 1 (ssXy ^ 2 / (ssXx * ssYy))

def calculateTrendDirection (closes : List α) : α :=
  if closes.length < 10 then 0
  else
    let mid := closes.length / 2
    let oldMean := (closes.take mid).sum / mid
    let newMean := (closes.drop mid).sum / (closes.length - mid : ℕ)
    if oldMean = 0 then 0 else (newMean - oldMean) / oldMean

def calculateVolumeRatio (volumes : List α) : α :=
  if ∀ v ∈ volumes, v = 0 then 1
  else
    let avgVolume := average volumes
    if avgVolume = 0 then 1
    else
      let recentN := max 1 (volumes.length / 4)
      (volumes.drop (volumes.length - recentN)).sum / recentN / avgVolume

def calculateAtrRatio (highs lows closes : List α) : α :=
  if highs.length < 2 then 0
  else
    let trueRanges := (List.range' 1 (highs.length - 1)).map fun i =>
      max (highs.getD i 0 - lows.getD i 0)
        (max |highs.getD i 0 - closes.getD (i - 1) 0| |lows.getD i 0 - closes.getD (i - 1) 0|)
    let lastClose := closes.getLastD 0
    if lastClose = 0 then 0 else average trueRanges / lastClose

/-- `_classify`: the regime and its confidence. -/
def classify (t : Thresholds α) (volatility trendStrength trendDirection volumeRatio : α) :
    RegimeType × α :=
  -- high volatility without trend
  if t.volatilityHigh < volatility ∧ trendStrength < t.trendWeak then
    (.volatile, min 1 (volatility / t.volatilityHigh * (1 / 2) + (1 - trendStrength) * (1 / 2)))
  else if t.trendStrong < trendStrength then
    (if 0 < trendDirection then .trendingUp else .trendingDown, min 1 trendStrength)
  -- low volatility and low volume
  else if volatility < t.volatilityLow ∧ volumeRatio < t.volumeQuiet then
    (.quiet, min 1 ((1 - volatility / t.volatilityLow) * (1 / 2) + (1 - volumeRatio) * (1 / 2)))
  else if volatility < t.volatilityLow then
    (.quiet, min 1 (1 - volatility / t.volatilityLow) * (7 / 10))
  else
    (.ranging, max (3 / 10) (min 1 ((1 - trendStrength / t.trendStrong) * (7 / 10) +
      (1 - |volatility - t.volatilityLow| / (t.volatilityHigh - t.volatilityLow)) * (3 / 10))))

def detect [IsStrictOrderedRing α] [FloorRing α] (sqrt : α → α) (t : Thresholds α)
    (candles : List (Candle α)) (instrument : String) : Detection α :=
  if candles.length < 20 then
    { regimeType := .unknown
      confidence := 0
      indicators := none
      instrument := none
      reason := some "Insufficient data (need >= 20 candles)" }
  else
    let closes := candles.map Candle.close
    let highs := candles.map Candle.high
    let lows := candles.map Candle.low
    let volumes := candles.map fun c => c.volume.getD 0
    let volatility := calculateVolatility sqrt closes
    let trendStrength := calculateTrendStrength closes
    let trendDirection := calculateTrendDirection closes
    let volumeRatio := calculateVolumeRatio volumes
    let atrRatio := calculateAtrRatio highs lows closes
    let (regimeType, confidence) :=
      classify t volatility trendStrength trendDirection volumeRatio
    { regimeType
      confidence := roundTo 4 confidence
      indicators := some
        { volatility := roundTo 6 volatility
          trendStrength := roundTo 4 trendStrength
          trendDirection := roundTo 4 trendDirection
          volumeRatio := roundTo 4 volumeRatio
          atrRatio := roundTo 6 atrRatio }
      instrument := some instrument
      reason := none }

variable [IsStrictOrderedRing α]

omit [LinearOrder α] [IsStrictOrderedRing α] in
theorem sum_map_range (n : ℕ) (f : ℕ → α) :
    ((List.range n).map f).sum = ∑ i ∈ Finset.range n, f i := rfl

omit [LinearOrder α] [IsStrictOrderedRing α] in
theorem sum_take_eq {closes : List α} {m : ℕ} (h : m ≤ closes.length) :
    (closes.take m).sum = ∑ i ∈ Finset.range m, closes.getD i 0 := by
  have htake : closes.take m = (List.range m).map fun i => closes.getD i 0 := by
    apply List.ext_getElem
    · simp [h]
    · intro i hi _
      have hlt : i < closes.length := by simp at hi; omega
      simp [hlt]
  rw [htake, sum_map_range]

omit [LinearOrder α] [IsStrictOrderedRing α] in
theorem sum_eq (closes : List α) :
    closes.sum = ∑ i ∈ Finset.range closes.length, closes.getD i 0 := by
  rw [← sum_take_eq le_rfl, List.take_length]

omit [LinearOrder α] [IsStrictOrderedRing α] in
theorem average_eq_mean (closes : List α) :
    average closes = mean (Finset.range closes.length) fun i => closes.getD i 0 := by
  rw [average, mean, ← sum_eq, Finset.card_range]

/-- The closes over the bar index. -/
abbrev closeAt (closes : List α) (i : ℕ) : α := closes.getD i 0

/-- The line of a regression of the closes on the bar index. -/
abbrev IsTrendLine (closes : List α) : α → α → Prop :=
  IsRegressionLine (Finset.range closes.length) (fun i => (i : α)) (closeAt closes)

/-- The sums of the regression. -/
abbrev ssXx (closes : List α) : α :=
  coSum (Finset.range closes.length) (fun i => (i : α)) fun i => (i : α)

abbrev ssXy (closes : List α) : α :=
  coSum (Finset.range closes.length) (fun i => (i : α)) (closeAt closes)

abbrev ssYy (closes : List α) : α :=
  coSum (Finset.range closes.length) (closeAt closes) (closeAt closes)

theorem calculateTrendStrength_eq {closes : List α} (h : 10 ≤ closes.length) :
    calculateTrendStrength closes =
      if ssXx closes = 0 ∨ ssYy closes = 0 then 0
      else min 1 (ssXy closes ^ 2 / (ssXx closes * ssYy closes)) := by
  have hpos : 0 < closes.length := by omega
  simp only [calculateTrendStrength, if_neg (not_lt.mpr h), sum_map_range, average_eq_mean,
    coSum, mean_index hpos, pow_two, closeAt]

theorem calculateTrendStrength_mem (closes : List α) :
    0 ≤ calculateTrendStrength closes ∧ calculateTrendStrength closes ≤ 1 := by
  by_cases h : closes.length < 10
  · simp [calculateTrendStrength, h]
  · rw [calculateTrendStrength_eq (not_lt.mp h)]
    split_ifs
    · exact ⟨le_rfl, zero_le_one⟩
    · have hxx : 0 ≤ ssXx closes := coSum_self_nonneg
      have hyy : 0 ≤ ssYy closes := coSum_self_nonneg
      exact ⟨le_min zero_le_one (by positivity), min_le_left _ _⟩

/-- A strength above a threshold is a share of the variation above it. -/
theorem share_of_lt_trendStrength {closes : List α} (h : 10 ≤ closes.length) {t : α}
    (ht : 0 ≤ t) (hstrong : t < calculateTrendStrength closes) :
    0 < ssXx closes ∧ 0 < ssYy closes ∧
      t * (ssXx closes * ssYy closes) < ssXy closes ^ 2 := by
  rw [calculateTrendStrength_eq h] at hstrong
  split_ifs at hstrong with hzero
  · exact absurd ht hstrong.not_ge
  · rw [not_or] at hzero
    have hxx : 0 < ssXx closes := lt_of_le_of_ne' coSum_self_nonneg hzero.1
    have hyy : 0 < ssYy closes := lt_of_le_of_ne' coSum_self_nonneg hzero.2
    have hshare := hstrong.trans_le (min_le_right _ _)
    rw [lt_div_iff₀ (mul_pos hxx hyy)] at hshare
    exact ⟨hxx, hyy, hshare⟩

/-- The direction has the sign of what the closes share with the later half. -/
theorem calculateTrendDirection_pos_iff {closes : List α} (h : 10 ≤ closes.length)
    (hpos : ∀ c ∈ closes, 0 < c) :
    0 < calculateTrendDirection closes ↔
      0 < coSum (Finset.range closes.length) (closeAt closes)
        (later α (closes.length / 2)) := by
  obtain ⟨n, hn⟩ : ∃ n, n = closes.length := ⟨_, rfl⟩
  rw [← hn] at h ⊢
  let m := n / 2
  have hmn : m ≤ n := Nat.div_le_self n 2
  have hm : (0 : α) < m := by
    have hlt : 0 < m := by omega
    exact_mod_cast hlt
  have hrest : (0 : α) < (n - m : ℕ) := by
    have hlt : 0 < n - m := by omega
    exact_mod_cast hlt
  have hcast : (0 : α) < n := by
    have hlt : 0 < n := by omega
    exact_mod_cast hlt
  have hold : 0 < (closes.take m).sum / m := by
    apply div_pos _ hm
    apply List.sum_pos
    · exact fun c hc => hpos c (List.mem_of_mem_take hc)
    · intro hnil
      have hlength := congrArg List.length hnil
      rw [List.length_take, ← hn, min_eq_left hmn, List.length_nil] at hlength
      simp [hlength] at hm
  have hsplit : (closes.drop m).sum = closes.sum - (closes.take m).sum := by
    rw [← List.sum_take_add_sum_drop closes m]
    ring
  have hco : (closes.drop m).sum / (n - m : ℕ) - (closes.take m).sum / m =
      coSum (Finset.range n) (closeAt closes) (later α m) * (n / (m * (n - m : ℕ))) := by
    rw [coSum_later (by omega) hmn, hsplit, sum_eq, sum_take_eq (hn ▸ hmn), ← hn]
    rw [Nat.cast_sub hmn] at hrest ⊢
    field_simp
    ring
  have hscale : (0 : α) < n / (m * (n - m : ℕ)) := div_pos hcast (mul_pos hm hrest)
  rw [calculateTrendDirection, ← hn, if_neg (not_lt.mpr h)]
  change 0 < (if (closes.take m).sum / m = 0 then 0
    else ((closes.drop m).sum / (n - m : ℕ) - (closes.take m).sum / m) /
      ((closes.take m).sum / m)) ↔ _
  rw [if_neg hold.ne', div_pos_iff_of_pos_right hold, hco, mul_pos_iff_of_pos_right hscale]

/-- Strength and direction are different statistics, but above a quarter of the variation
the slope has no way to go against the later half. -/
theorem ssXy_sign {closes : List α} (h : 10 ≤ closes.length) (hpos : ∀ c ∈ closes, 0 < c)
    (hstrong : 1 / 4 < calculateTrendStrength closes) :
    0 < ssXx closes ∧
      if 0 < calculateTrendDirection closes then 0 < ssXy closes else ssXy closes < 0 := by
  obtain ⟨hxx, hyy, hshare⟩ := share_of_lt_trendStrength h (by norm_num) hstrong
  refine ⟨hxx, ?_⟩
  have hn : 0 < closes.length := by omega
  have hhalf : closes.length / 2 ≤ closes.length := Nat.div_le_self _ 2
  have hm : (0 : α) < (closes.length / 2 : ℕ) := by
    have hlt : 0 < closes.length / 2 := by omega
    exact_mod_cast hlt
  have hrest : (0 : α) < closes.length - (closes.length / 2 : ℕ) := by
    have hlt : closes.length / 2 < closes.length := by omega
    rw [sub_pos]
    exact_mod_cast hlt
  let ssXw := coSum (Finset.range closes.length) (fun i => (i : α)) (later α (closes.length / 2))
  let ssWw := coSum (Finset.range closes.length) (later α (closes.length / 2))
    (later α (closes.length / 2))
  have hxw : 0 < ssXw := by
    simp only [ssXw, coSum_index_later hn hhalf]
    positivity
  have hww : 0 < ssWw := by
    simp only [ssWw, coSum_later_later hn hhalf]
    positivity
  -- more than a quarter and at least three quarters
  have htogether : ssXx closes * (ssYy closes * ssWw) <
      ssXy closes ^ 2 * ssWw + ssXw ^ 2 * ssYy closes := by
    have hquarter := mul_lt_mul_of_pos_right hshare hww
    have hthree := mul_le_mul_of_nonneg_right (later_half_share (α := α) hn) hyy.le
    simp only [ssXw, ssWw] at hquarter ⊢
    linarith
  have hsign := coSum_mul_pos hxx htogether
  have hdirection := calculateTrendDirection_pos_iff h hpos
  split_ifs with hup
  · have hw := hdirection.mp hup
    have hxy := pos_of_mul_pos_right hsign hw.le
    exact pos_of_mul_pos_left hxy hxw.le
  · have hw := mt hdirection.mpr hup
    by_contra hnot
    have hxy : 0 ≤ ssXy closes * ssXw := mul_nonneg (not_lt.mp hnot) hxw.le
    exact hsign.not_ge (mul_nonpos_of_nonpos_of_nonneg (not_lt.mp hw) hxy)

theorem calculateVolatility_nonneg {sqrt : α → α} (hsqrt : ∀ x, 0 ≤ x → 0 ≤ sqrt x)
    (closes : List α) : 0 ≤ calculateVolatility sqrt closes := by
  simp only [calculateVolatility]
  split_ifs
  · exact le_rfl
  · exact le_rfl
  · apply hsqrt
    apply div_nonneg _ (Nat.cast_nonneg _)
    apply List.sum_nonneg
    simp only [List.forall_mem_map]
    exact fun r _ => sq_nonneg _

theorem min_one_mem {x : α} (h : 0 ≤ x) : 0 ≤ min 1 x ∧ min 1 x ≤ 1 :=
  ⟨le_min zero_le_one h, min_le_left _ _⟩

/-- Every regime comes with a confidence between none and all. -/
theorem classify_confidence {t : Thresholds α} (hhigh : 0 < t.volatilityHigh)
    (hlow : 0 < t.volatilityLow) (hquiet : t.volumeQuiet ≤ 1) {volatility trendStrength : α}
    (trendDirection : α) {volumeRatio : α} (hvolatility : 0 ≤ volatility)
    (hstrength : 0 ≤ trendStrength ∧ trendStrength ≤ 1) :
    0 ≤ (classify t volatility trendStrength trendDirection volumeRatio).2 ∧
      (classify t volatility trendStrength trendDirection volumeRatio).2 ≤ 1 := by
  simp only [classify]
  split_ifs with hvolatile hstrong hup hcalm hstill
  · apply min_one_mem
    have hweak : 0 ≤ 1 - trendStrength := sub_nonneg.mpr hstrength.2
    positivity
  · exact min_one_mem hstrength.1
  · exact min_one_mem hstrength.1
  · apply min_one_mem
    have hratio : volatility / t.volatilityLow < 1 := (div_lt_one hlow).mpr hcalm.1
    have hfew : volumeRatio < 1 := hcalm.2.trans_le hquiet
    linarith
  · have hratio : volatility / t.volatilityLow < 1 := (div_lt_one hlow).mpr hstill
    obtain ⟨hnonneg, hle⟩ := min_one_mem (sub_nonneg.mpr hratio.le)
    constructor
    · positivity
    · linarith
  · constructor
    · exact (by norm_num : (0 : α) ≤ 3 / 10).trans (le_max_left _ _)
    · exact max_le (by norm_num) (min_le_left _ _)

omit [IsStrictOrderedRing α] in
/-- A trend is reported for a strong regression alone, up or down by the direction. -/
theorem classify_trend {t : Thresholds α} {volatility trendStrength trendDirection volumeRatio : α}
    (h : (classify t volatility trendStrength trendDirection volumeRatio).1 = .trendingUp ∨
      (classify t volatility trendStrength trendDirection volumeRatio).1 = .trendingDown) :
    t.trendStrong < trendStrength ∧
      (classify t volatility trendStrength trendDirection volumeRatio).1 =
        if 0 < trendDirection then .trendingUp else .trendingDown := by
  simp only [classify] at h ⊢
  split_ifs at h ⊢ with hvolatile hstrong hup <;> simp_all

/-- The line of a strong regression goes the way of the direction. -/
theorem exists_trendLine {closes : List α} (h : 10 ≤ closes.length)
    (hpos : ∀ c ∈ closes, 0 < c) (hstrong : 1 / 4 < calculateTrendStrength closes) :
    ∃ a b, IsTrendLine closes a b ∧
      if 0 < calculateTrendDirection closes then 0 < b else b < 0 := by
  obtain ⟨hxx, hsign⟩ := ssXy_sign h hpos hstrong
  have hline := isRegressionLine (y := closeAt closes)
    (Finset.nonempty_range_iff.mpr (by omega : closes.length ≠ 0)) hxx
  refine ⟨_, _, hline, ?_⟩
  split_ifs at hsign ⊢
  · exact div_pos hsign hxx
  · exact div_neg_of_neg_of_pos hsign hxx

variable [FloorRing α]

theorem detect_eq_classify (sqrt : α → α) (t : Thresholds α) {candles : List (Candle α)}
    (instrument : String) (h : 20 ≤ candles.length) :
    let closes := candles.map Candle.close
    let result := classify t (calculateVolatility sqrt closes) (calculateTrendStrength closes)
      (calculateTrendDirection closes)
      (calculateVolumeRatio (candles.map fun c => c.volume.getD 0))
    (detect sqrt t candles instrument).regimeType = result.1 ∧
      (detect sqrt t candles instrument).confidence = roundTo 4 result.2 := by
  simp only [detect, if_neg (not_lt.mpr h)]
  exact ⟨trivial, trivial⟩

/-- A reported trend has the sign of the regression line of the closes, and a reported
confidence is between none and all. -/
theorem detect_consistent {sqrt : α → α} (hsqrt : ∀ x, 0 ≤ x → 0 ≤ sqrt x)
    (candles : List (Candle α)) (instrument : String) (hlength : 20 ≤ candles.length)
    (hclose : ∀ c ∈ candles, 0 < c.close) :
    let result := detect sqrt regimeThresholds candles instrument
    let closes := candles.map Candle.close
    (result.regimeType = .trendingUp → ∃ a b, IsTrendLine closes a b ∧ 0 < b) ∧
      (result.regimeType = .trendingDown → ∃ a b, IsTrendLine closes a b ∧ b < 0) ∧
      0 ≤ result.confidence ∧ result.confidence ≤ 1 := by
  intro result closes
  have hlen : closes.length = candles.length := List.length_map _
  have hpos : ∀ c ∈ closes, 0 < c := by
    simpa only [closes, List.forall_mem_map] using hclose
  obtain ⟨htype, hconfidence⟩ := detect_eq_classify sqrt regimeThresholds instrument hlength
  have htrend : result.regimeType = .trendingUp ∨ result.regimeType = .trendingDown →
      (∃ a b, IsTrendLine closes a b ∧
        if 0 < calculateTrendDirection closes then 0 < b else b < 0) ∧
      result.regimeType =
        if 0 < calculateTrendDirection closes then .trendingUp else .trendingDown := by
    intro hreported
    rw [htype] at hreported ⊢
    obtain ⟨hstrong, hdirection⟩ := classify_trend hreported
    have hquarter : 1 / 4 < calculateTrendStrength closes := by
      apply lt_trans _ hstrong
      norm_num [regimeThresholds]
    exact ⟨exists_trendLine (by omega) hpos hquarter, hdirection⟩
  refine ⟨?_, ?_, ?_⟩
  · intro hup
    obtain ⟨hline, hdirection⟩ := htrend (Or.inl hup)
    rw [hup] at hdirection
    split_ifs at hline hdirection
    exact hline
  · intro hdown
    obtain ⟨hline, hdirection⟩ := htrend (Or.inr hdown)
    rw [hdown] at hdirection
    split_ifs at hline hdirection
    exact hline
  · rw [hconfidence]
    apply roundTo_mem
    apply classify_confidence
    · norm_num [regimeThresholds]
    · norm_num [regimeThresholds]
    · norm_num [regimeThresholds]
    · exact calculateVolatility_nonneg hsqrt closes
    · exact calculateTrendStrength_mem closes

/-- Twenty candles that rise by a twentieth each. -/
def risingCandles : List (Candle ℚ) :=
  (List.range 20).map fun i =>
    let price := 100 * (21 / 20 : ℚ) ^ i
    { high := price, low := price, close := price, volume := some 1 }

/-- The returns are all the same, so that the root is that of zero. -/
theorem detect_consistent_rising :
    ∃ a b, IsTrendLine (risingCandles.map Candle.close) a b ∧ 0 < b :=
  have hsqrt : ∀ x : ℚ, 0 ≤ x → 0 ≤ id x := fun _ h => h
  (detect_consistent hsqrt risingCandles "BTC-USD" (by decide) (by decide +kernel)).1
    (by decide +kernel)

end TradeStream.RegimeDetector
