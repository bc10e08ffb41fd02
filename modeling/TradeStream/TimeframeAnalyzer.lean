import TradeStream.IndicatorLibrary
import TradeStream.RoundDecimal

/-! The analysis of the candles of one timeframe: three comparisons and a strength index, each for
or against a rise, and what a reflection of the prices makes of them. -/
namespace TradeStream.TimeframeAnalyzer
open TradeStream.IndicatorLibrary TradeStream.RoundDecimal

inductive Signal where
  | bullish
  | bearish
  | neutral
  deriving DecidableEq

/-- The close of a candle, if it has one. -/
structure Candle where
  close : Option ℚ

structure Indicators where
  sma10 : Option ℚ
  sma20 : Option ℚ
  ema10 : Option ℚ
  ema20 : Option ℚ
  rsi14 : Option ℚ
  price : ℚ

structure TimeframeAnalysis where
  timeframe : String
  signal : Signal
  strength : ℚ
  indicators : Option Indicators
  candleCount : ℕ

def minCandles : ℕ := 20

def computeSma (closes : List ℚ) (period : ℕ) : Option ℚ :=
  if closes.length < period then none else some ((closes.rtake period).sum / period)

def computeEma (closes : List ℚ) (period : ℕ) : Option ℚ :=
  if closes.length < period then none
  else
    let multiplier : ℚ := 2 / (period + 1)
    some ((closes.drop period).foldl (fun ema price => (price - ema) * multiplier + ema)
      ((closes.take period).sum / period))

def computeRsi (closes : List ℚ) (period : ℕ) : Option ℚ :=
  if closes.length < period + 1 then none else some (wilderStrength period closes)

/-- The points for and against a rise, and the checks made. -/
structure Points where
  bullish : ℚ := 0
  bearish : ℚ := 0
  totalChecks : ℕ := 0

def Points.add (points : Points) (bullish bearish : ℚ) : Points :=
  { bullish := points.bullish + bullish
    bearish := points.bearish + bearish
    totalChecks := points.totalChecks + 1 }

/-- A comparison; what is equal counts against a rise. -/
def Points.compare (points : Points) : Option ℚ → Option ℚ → Points
  | some x, some y => if y < x then points.add 1 0 else points.add 0 1
  | _, _ => points

def Points.rsi (points : Points) : Option ℚ → Points
  | some rsi =>
    if 60 < rsi then points.add 1 0
    else if rsi < 40 then points.add 0 1 else points.add (1 / 2) (1 / 2)
  | none => points

def Points.net (points : Points) : ℚ := (points.bullish - points.bearish) / points.totalChecks

/-- The signal of a score. -/
def signalOf (score : ℚ) : Signal :=
  if 15 / 100 < score then .bullish else if score < -(15 / 100) then .bearish else .neutral

/-- `round(x, digits) if x else None`. -/
def shown (digits : ℕ) (x : Option ℚ) : Option ℚ :=
  x.bind fun x => if x = 0 then none else some (roundTo digits x)

def pointsOf (closes : List ℚ) : Points :=
  let crossover := ({} : Points).compare (computeSma closes 10) (computeSma closes 20)
  let crossover := crossover.compare (computeEma closes 10) (computeEma closes 20)
  let priced := crossover.compare (some (closes.getLastD 0)) (computeSma closes 20)
  priced.rsi (computeRsi closes 14)

def closesOf (candles : List Candle) : List ℚ := candles.filterMap Candle.close

def analyzeCandles (candles : List Candle) (timeframe : String) : TimeframeAnalysis :=
  let closes := closesOf candles
  if closes.length < minCandles then
    { timeframe := timeframe
      signal := .neutral
      strength := 0
      indicators := none
      candleCount := closes.length }
  else
    let points := pointsOf closes
    { timeframe := timeframe
      signal := if points.totalChecks = 0 then .neutral else signalOf points.net
      strength := roundTo 4 (if points.totalChecks = 0 then 0 else min |points.net| 1)
      indicators := some
        { sma10 := shown 8 (computeSma closes 10)
          sma20 := shown 8 (computeSma closes 20)
          ema10 := shown 8 (computeEma closes 10)
          ema20 := shown 8 (computeEma closes 20)
          rsi14 := shown 2 (computeRsi closes 14)
          price := closes.getLastD 0 }
      candleCount := closes.length }

/-! ### The net of the points -/

/-- A comparison as a point for or against. -/
def side (above : Prop) [Decidable above] : ℚ := if above then 1 else -1

def rsiSide (rsi : ℚ) : ℚ := if 60 < rsi then 1 else if rsi < 40 then -1 else 0

section
variable {closes : List ℚ}

theorem compare_some (points : Points) (x y : ℚ) :
    (points.compare (some x) (some y)).bullish - (points.compare (some x) (some y)).bearish =
      points.bullish - points.bearish + side (y < x) ∧
    (points.compare (some x) (some y)).totalChecks = points.totalChecks + 1 := by
  rw [Points.compare, side]
  split_ifs
  · exact ⟨by rw [Points.add]; ring, rfl⟩
  · exact ⟨by rw [Points.add]; ring, rfl⟩

theorem rsi_some (points : Points) (rsi : ℚ) :
    (points.rsi (some rsi)).bullish - (points.rsi (some rsi)).bearish =
      points.bullish - points.bearish + rsiSide rsi ∧
    (points.rsi (some rsi)).totalChecks = points.totalChecks + 1 := by
  rw [Points.rsi, rsiSide]
  split_ifs
  · exact ⟨by rw [Points.add]; ring, rfl⟩
  · exact ⟨by rw [Points.add]; ring, rfl⟩
  · exact ⟨by rw [Points.add]; ring, rfl⟩

/-- What the checks compare, when there are closes enough. -/
structure Levels where
  sma10 : ℚ
  sma20 : ℚ
  ema10 : ℚ
  ema20 : ℚ
  price : ℚ
  avgGain : ℚ
  avgLoss : ℚ

def emaOf (closes : List ℚ) (period : ℕ) : ℚ :=
  (closes.drop period).foldl (fun ema price => (price - ema) * (2 / (period + 1)) + ema)
    ((closes.take period).sum / period)

def levelsOf (closes : List ℚ) : Levels :=
  { sma10 := (closes.rtake 10).sum / (10 : ℕ)
    sma20 := (closes.rtake 20).sum / (20 : ℕ)
    ema10 := emaOf closes 10
    ema20 := emaOf closes 20
    price := closes.getLastD 0
    avgGain := wilder 14 (gainsOf closes)
    avgLoss := wilder 14 (lossesOf closes) }

def Levels.net (levels : Levels) : ℚ :=
  (side (levels.sma20 < levels.sma10) + side (levels.ema20 < levels.ema10) +
    side (levels.sma20 < levels.price) + rsiSide (strength levels.avgGain levels.avgLoss)) / 4

theorem pointsOf_spec (h : 20 ≤ closes.length) :
    (pointsOf closes).totalChecks = 4 ∧ (pointsOf closes).net = (levelsOf closes).net := by
  have hsma10 : computeSma closes 10 = some (levelsOf closes).sma10 := if_neg (by omega)
  have hsma20 : computeSma closes 20 = some (levelsOf closes).sma20 := if_neg (by omega)
  have hema10 : computeEma closes 10 = some (levelsOf closes).ema10 := if_neg (by omega)
  have hema20 : computeEma closes 20 = some (levelsOf closes).ema20 := if_neg (by omega)
  have hrsi : computeRsi closes 14 =
      some (strength (levelsOf closes).avgGain (levelsOf closes).avgLoss) := if_neg (by omega)
  have hprice : closes.getLastD 0 = (levelsOf closes).price := rfl
  rw [pointsOf, hsma10, hsma20, hema10, hema20, hrsi, hprice]
  generalize levelsOf closes = levels
  obtain ⟨hsum1, hchecks1⟩ := compare_some {} levels.sma10 levels.sma20
  generalize ({} : Points).compare (some levels.sma10) (some levels.sma20) = points1 at *
  obtain ⟨hsum2, hchecks2⟩ := compare_some points1 levels.ema10 levels.ema20
  generalize points1.compare (some levels.ema10) (some levels.ema20) = points2 at *
  obtain ⟨hsum3, hchecks3⟩ := compare_some points2 levels.price levels.sma20
  generalize points2.compare (some levels.price) (some levels.sma20) = points3 at *
  obtain ⟨hsum4, hchecks4⟩ := rsi_some points3 (strength levels.avgGain levels.avgLoss)
  generalize points3.rsi (some (strength levels.avgGain levels.avgLoss)) = points4 at *
  have hchecks : points4.totalChecks = 4 := by
    rw [hchecks4, hchecks3, hchecks2, hchecks1]
  refine ⟨hchecks, ?_⟩
  rw [Points.net, hchecks, hsum4, hsum3, hsum2, hsum1, Levels.net]
  norm_num

end

/-! ### Reflected prices -/

def Signal.opposite : Signal → Signal
  | .bullish => .bearish
  | .bearish => .bullish
  | .neutral => .neutral

def reflect (c : ℚ) (closes : List ℚ) : List ℚ := closes.map fun p => c - p

def Levels.reflect (c : ℚ) (levels : Levels) : Levels :=
  { sma10 := c - levels.sma10
    sma20 := c - levels.sma20
    ema10 := c - levels.ema10
    ema20 := c - levels.ema20
    price := c - levels.price
    avgGain := levels.avgLoss
    avgLoss := levels.avgGain }

section
variable {closes : List ℚ} (c : ℚ)

theorem sum_reflect (xs : List ℚ) : (reflect c xs).sum = xs.length * c - xs.sum := by
  induction xs with
  | nil => simp [reflect]
  | cons x xs ih =>
    rw [reflect, List.map_cons, List.sum_cons, ← reflect, ih, List.sum_cons, List.length_cons]
    push_cast
    ring

theorem mean_reflect {xs : List ℚ} {period : ℕ} (hlength : xs.length = period)
    (hperiod : 0 < period) : (reflect c xs).sum / period = c - xs.sum / period := by
  have hne : (period : ℚ) ≠ 0 := by exact_mod_cast hperiod.ne'
  rw [sum_reflect, hlength, sub_div, mul_div_cancel_left₀ _ hne]

theorem emaOf_reflect {period : ℕ} (hperiod : 0 < period) (h : period ≤ closes.length) :
    emaOf (reflect c closes) period = c - emaOf closes period := by
  have hfold (xs : List ℚ) (k ema : ℚ) :
      (reflect c xs).foldl (fun ema price => (price - ema) * k + ema) (c - ema) =
        c - xs.foldl (fun ema price => (price - ema) * k + ema) ema := by
    induction xs generalizing ema with
    | nil => rfl
    | cons x xs ih =>
      rw [reflect, List.map_cons, List.foldl_cons, List.foldl_cons, ← ih]
      congr 1
      ring
  have htake : (reflect c closes).take period = reflect c (closes.take period) :=
    (List.map_take).symm
  have hdrop : (reflect c closes).drop period = reflect c (closes.drop period) :=
    (List.map_drop).symm
  rw [emaOf, htake, hdrop, mean_reflect c (List.length_take_of_le h) hperiod, hfold, emaOf]

theorem gainsOf_reflect (closes : List ℚ) : gainsOf (reflect c closes) = lossesOf closes := by
  rw [gainsOf, lossesOf, reflect, ← List.map_tail, List.zipWith_map]
  congr 1
  funext prev curr
  congr 1
  ring

theorem lossesOf_reflect (closes : List ℚ) : lossesOf (reflect c closes) = gainsOf closes := by
  rw [gainsOf, lossesOf, reflect, ← List.map_tail, List.zipWith_map]
  congr 1
  funext prev curr
  congr 1
  ring

theorem levelsOf_reflect (h : 20 ≤ closes.length) :
    levelsOf (reflect c closes) = (levelsOf closes).reflect c := by
  have hrtake (n : ℕ) : (reflect c closes).rtake n = reflect c (closes.rtake n) := by
    rw [reflect, List.rtake, List.rtake, List.length_map, ← List.map_drop, reflect]
  have hlength (n : ℕ) (hn : n ≤ 20) : (closes.rtake n).length = n := by
    rw [List.rtake, List.length_drop]
    omega
  have hprice : (reflect c closes).getLastD 0 = c - closes.getLastD 0 := by
    have hne : closes ≠ [] := by
      rintro rfl
      simp at h
    rw [List.getLastD_eq_getLast?, List.getLastD_eq_getLast?, reflect, List.getLast?_map,
      List.getLast?_eq_getLast_of_ne_nil hne]
    rfl
  rw [levelsOf, hrtake, hrtake, mean_reflect c (hlength 10 (by norm_num)) (by norm_num),
    mean_reflect c (hlength 20 le_rfl) (by norm_num), emaOf_reflect c (by norm_num) (by omega),
    emaOf_reflect c (by norm_num) h, hprice, gainsOf_reflect, lossesOf_reflect]
  rfl

end

/-! ### The net of reflected prices -/

/-- A comparison both ways: one for and one against, unless it is a tie. -/
theorem side_add_side (x y : ℚ) : side (x < y) + side (y < x) = if x = y then -2 else 0 := by
  rw [side, side]
  rcases lt_trichotomy x y with hlt | heq | hgt
  · rw [if_pos hlt, if_neg hlt.not_gt, if_neg hlt.ne]
    norm_num
  · rw [if_neg heq.not_lt, if_neg heq.symm.not_lt, if_pos heq]
    norm_num
  · rw [if_neg hgt.not_gt, if_pos hgt, if_neg hgt.ne']
    norm_num

theorem rsiSide_sub (rsi : ℚ) : rsiSide rsi + rsiSide (100 - rsi) = 0 := by
  rw [rsiSide, rsiSide]
  split_ifs <;> linarith

/-- Gains and losses exchanged: the strengths make up a hundred, unless there are neither. -/
theorem rsiSide_add_rsiSide {gain loss : ℚ} (hgain : 0 ≤ gain) (hloss : 0 ≤ loss) :
    rsiSide (strength gain loss) + rsiSide (strength loss gain) =
      if gain = 0 ∧ loss = 0 then 2 else 0 := by
  by_cases hboth : gain = 0 ∧ loss = 0
  · rw [if_pos hboth, hboth.1, hboth.2]
    norm_num [strength, rsiSide]
  · have hstrength : strength loss gain = 100 - strength gain loss := by
      rw [strength, strength]
      split_ifs with hgain' hloss' hloss'
      · exact absurd ⟨hgain', hloss'⟩ hboth
      · rw [hgain']
        norm_num
      · rw [hloss']
        norm_num
      · have hsum : gain + loss ≠ 0 := (add_pos_of_pos_of_nonneg
          (lt_of_le_of_ne hgain (Ne.symm hgain')) hloss).ne'
        have hsum' : loss + gain ≠ 0 := by rwa [add_comm]
        field_simp
        ring
    rw [if_neg hboth, hstrength]
    exact rsiSide_sub _

/-- Two of the compared levels are the same. -/
def Levels.Tied (levels : Levels) : Prop :=
  levels.sma10 = levels.sma20 ∨ levels.ema10 = levels.ema20 ∨ levels.price = levels.sma20

/-- Prices that never move have one level. -/
structure Levels.Consistent (levels : Levels) : Prop where
  avgGain_nonneg : 0 ≤ levels.avgGain
  avgLoss_nonneg : 0 ≤ levels.avgLoss
  still : levels.avgGain = 0 ∧ levels.avgLoss = 0 →
    levels.sma10 = levels.sma20 ∧ levels.price = levels.sma20

section
variable {levels : Levels}

theorem net_add_reflect (c : ℚ) (h : levels.Consistent) :
    levels.net + (levels.reflect c).net =
      ((if levels.sma20 = levels.sma10 then -2 else 0) +
        (if levels.ema20 = levels.ema10 then -2 else 0) +
        (if levels.sma20 = levels.price then -2 else 0) +
        if levels.avgGain = 0 ∧ levels.avgLoss = 0 then 2 else 0) / 4 := by
  rw [← side_add_side, ← side_add_side, ← side_add_side,
    ← rsiSide_add_rsiSide h.avgGain_nonneg h.avgLoss_nonneg, Levels.net, Levels.net,
    Levels.reflect]
  simp only [sub_lt_sub_iff_left]
  ring

theorem net_reflect (c : ℚ) (h : levels.Consistent) (htied : ¬ levels.Tied) :
    (levels.reflect c).net = -levels.net := by
  have hsum := net_add_reflect c h
  rw [if_neg fun heq => htied (.inl heq.symm), if_neg fun heq => htied (.inr (.inl heq.symm)),
    if_neg fun heq => htied (.inr (.inr heq.symm)),
    if_neg fun hstill => htied (.inl (h.still hstill).1)] at hsum
  linarith

/-- A tie counts against a rise, also in the reflected prices. -/
theorem net_add_reflect_neg (c : ℚ) (h : levels.Consistent) (htied : levels.Tied) :
    levels.net + (levels.reflect c).net < 0 := by
  have hle (p : Prop) [Decidable p] : (if p then (-2 : ℚ) else 0) ≤ 0 := by
    split_ifs <;> norm_num
  rw [net_add_reflect c h]
  apply div_neg_of_neg_of_pos _ (by norm_num)
  by_cases hstill : levels.avgGain = 0 ∧ levels.avgLoss = 0
  · obtain ⟨hsma, hprice⟩ := h.still hstill
    rw [if_pos hstill, if_pos hsma.symm, if_pos hprice.symm]
    linarith [hle (levels.ema20 = levels.ema10)]
  · rw [if_neg hstill, add_zero]
    rcases htied with heq | heq | heq
    · rw [if_pos heq.symm]
      linarith [hle (levels.ema20 = levels.ema10), hle (levels.sma20 = levels.price)]
    · rw [if_pos heq.symm]
      linarith [hle (levels.sma20 = levels.sma10), hle (levels.sma20 = levels.price)]
    · rw [if_pos heq.symm]
      linarith [hle (levels.sma20 = levels.sma10), hle (levels.ema20 = levels.ema10)]

end

/-! ### Prices that never move -/

/-- Smoothing forgets nothing: an average of nothing is one of nothings. -/
theorem eq_zero_of_wilder_eq_zero {period : ℕ} (hperiod : 2 ≤ period) {values : List ℚ}
    (hvalues : ∀ x ∈ values, 0 ≤ x) (h : wilder period values = 0) : ∀ x ∈ values, x = 0 := by
  have hone : (0 : ℚ) < period - 1 := by
    rw [sub_pos]
    exact_mod_cast hperiod
  have hpos : (0 : ℚ) < period := by linarith
  have hfold (xs : List ℚ) (hxs : ∀ x ∈ xs, 0 ≤ x) (avg : ℚ) (havg : 0 ≤ avg)
      (hzero : xs.foldl (fun (avg x : ℚ) => (avg * (period - 1) + x) / period) avg = 0) :
      avg = 0 ∧ ∀ x ∈ xs, x = 0 := by
    induction xs generalizing avg with
    | nil => exact ⟨hzero, fun x hx => absurd hx List.not_mem_nil⟩
    | cons x xs ih =>
      have hx := hxs x List.mem_cons_self
      have hscaled := mul_nonneg havg hone.le
      obtain ⟨hnext, hrest⟩ := ih (fun y hy => hxs y (List.mem_cons_of_mem x hy)) _
        (div_nonneg (add_nonneg hscaled hx) hpos.le) hzero
      have hsum : avg * (period - 1) + x = 0 :=
        (div_eq_zero_iff.mp hnext).resolve_right hpos.ne'
      obtain ⟨hleft, hright⟩ := (add_eq_zero_iff_of_nonneg hscaled hx).mp hsum
      refine ⟨(mul_eq_zero.mp hleft).resolve_right hone.ne', fun y hy => ?_⟩
      rcases List.mem_cons.mp hy with rfl | hmem
      · exact hright
      · exact hrest y hmem
  have htake : ∀ x ∈ values.take period, 0 ≤ x := fun x hx => hvalues x (List.mem_of_mem_take hx)
  obtain ⟨hmean, hdrop⟩ := hfold (values.drop period)
    (fun x hx => hvalues x (List.mem_of_mem_drop hx)) _
    (div_nonneg (List.sum_nonneg htake) hpos.le) h
  have hsum := (div_eq_zero_iff.mp hmean).resolve_right hpos.ne'
  intro x hx
  rw [← List.take_append_drop period values, List.mem_append] at hx
  rcases hx with hx | hx
  · exact List.all_zero_of_le_zero_le_of_sum_eq_zero htake hsum hx
  · exact hdrop x hx

theorem eq_of_still {closes : List ℚ} (hgains : ∀ x ∈ gainsOf closes, x = 0)
    (hlosses : ∀ x ∈ lossesOf closes, x = 0) {first : ℚ} {rest : List ℚ}
    (hcloses : closes = first :: rest) : ∀ x ∈ closes, x = first := by
  induction rest generalizing closes first with
  | nil =>
    subst hcloses
    exact fun x hx => List.mem_singleton.mp hx
  | cons second rest ih =>
    subst hcloses
    have hgain : max (second - first) 0 = 0 := hgains _ List.mem_cons_self
    have hloss : max (-(second - first)) 0 = 0 := hlosses _ List.mem_cons_self
    have hsecond : second = first := by
      have hle := max_eq_right_iff.mp hgain
      have hge := max_eq_right_iff.mp hloss
      linarith
    have hrest := ih (fun x hx => hgains x (List.mem_cons_of_mem _ hx))
      (fun x hx => hlosses x (List.mem_cons_of_mem _ hx)) rfl
    intro x hx
    rcases List.mem_cons.mp hx with rfl | hmem
    · rfl
    · exact (hrest x hmem).trans hsecond

theorem mean_of_forall_eq {xs : List ℚ} {first : ℚ} {period : ℕ} (h : ∀ x ∈ xs, x = first)
    (hlength : xs.length = period) (hperiod : 0 < period) : xs.sum / period = first := by
  have hne : (period : ℚ) ≠ 0 := by exact_mod_cast hperiod.ne'
  rw [List.sum_eq_card_nsmul xs first h, hlength, nsmul_eq_mul, mul_div_cancel_left₀ _ hne]

/-- Closes that are all equal are level in every respect. -/
theorem levels_of_forall_eq {closes : List ℚ} {first : ℚ} (h : ∀ x ∈ closes, x = first)
    (hlength : 20 ≤ closes.length) :
    (levelsOf closes).sma10 = first ∧ (levelsOf closes).sma20 = first ∧
      (levelsOf closes).price = first := by
  have hrtake (n : ℕ) (hn : n ≤ 20) (hpos : 0 < n) : (closes.rtake n).sum / n = first := by
    apply mean_of_forall_eq _ _ hpos
    · exact fun x hx => h x (List.mem_of_mem_drop hx)
    · rw [List.rtake, List.length_drop]
      omega
  refine ⟨hrtake 10 (by norm_num) (by norm_num), hrtake 20 le_rfl (by norm_num), ?_⟩
  have hne : closes ≠ [] := by
    rintro rfl
    simp at hlength
  change closes.getLastD 0 = first
  rw [List.getLastD_eq_getLast?, List.getLast?_eq_getLast_of_ne_nil hne]
  exact h _ (List.getLast_mem hne)

theorem consistent_levelsOf {closes : List ℚ} (h : 20 ≤ closes.length) :
    (levelsOf closes).Consistent where
  avgGain_nonneg := wilder_nonneg (by norm_num) fun _ => gainsOf_nonneg
  avgLoss_nonneg := wilder_nonneg (by norm_num) fun _ => lossesOf_nonneg
  still hstill := by
    have hgains := eq_zero_of_wilder_eq_zero (by norm_num) (fun _ => gainsOf_nonneg) hstill.1
    have hlosses := eq_zero_of_wilder_eq_zero (by norm_num) (fun _ => lossesOf_nonneg) hstill.2
    obtain ⟨first, rest, hcloses⟩ := List.exists_cons_of_length_pos (by omega : 0 < closes.length)
    obtain ⟨hsma10, hsma20, hprice⟩ :=
      levels_of_forall_eq (eq_of_still hgains hlosses hcloses) h
    exact ⟨hsma10.trans hsma20.symm, hprice.trans hsma20.symm⟩

end TradeStream.TimeframeAnalyzer
