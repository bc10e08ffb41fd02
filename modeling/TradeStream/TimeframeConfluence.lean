import TradeStream.TimeframeAnalyzer

/-! The confluence of the timeframes of a pair, the filter of signals by it, and whether they take
a side. -/
namespace TradeStream.TimeframeConfluence
open TradeStream.TimeframeAnalyzer TradeStream.RoundDecimal
open TradeStream.IndicatorLibrary (strength)

def timeframes : List String := ["1m", "5m", "15m", "1h", "4h", "1d"]

/-- `_TIMEFRAME_LOOKBACK.get(tf, "-1h")`. -/
def lookback : String → String
  | "1m" => "-2h"
  | "5m" => "-10h"
  | "15m" => "-30h"
  | "1h" => "-5d"
  | "4h" => "-20d"
  | "1d" => "-120d"
  | _ => "-1h"

/-- `_TIMEFRAME_WEIGHTS.get(tf, 0.1)`. -/
def timeframeWeight : String → ℚ
  | "1m" => 5 / 100
  | "5m" => 10 / 100
  | "15m" => 15 / 100
  | "1h" => 20 / 100
  | "4h" => 25 / 100
  | "1d" => 25 / 100
  | _ => 1 / 10

/-- The candles of a pair and a timeframe, from a start on and so many at most. -/
structure InfluxClient where
  getCandles : (symbol timeframe start : String) → (limit : ℕ) → List Candle

abbrev Analyses := List (String × TimeframeAnalysis)

structure ConfluenceResult where
  pair : String
  score : ℚ
  signal : Signal
  agreeingTimeframes : List String
  totalTimeframes : ℕ
  analyses : Analyses

def candlesOf (client : InfluxClient) (pair timeframe : String) : List Candle :=
  client.getCandles pair timeframe (lookback timeframe) 200

/-- `timeframes or TIMEFRAMES`. -/
def chosenTimeframes : Option (List String) → List String
  | none | some [] => timeframes
  | some chosen => chosen

def getSnapshot (client : InfluxClient) (pair : String) (chosen : Option (List String)) :
    Analyses :=
  (chosenTimeframes chosen).eraseDups.map fun timeframe =>
    (timeframe, analyzeCandles (candlesOf client pair timeframe) timeframe)

/-- What an analysis adds to the weighted sum, before it is weighted. -/
def signedStrength (analysis : TimeframeAnalysis) : ℚ :=
  match analysis.signal with
  | .bullish => analysis.strength
  | .bearish => -analysis.strength
  | .neutral => 0

def scoreOf (analyses : Analyses) : ℚ :=
  let weightedSum := (analyses.map fun e => timeframeWeight e.1 * signedStrength e.2).sum
  let totalWeight := (analyses.map fun e => timeframeWeight e.1).sum
  if totalWeight = 0 then 0 else weightedSum / totalWeight

def confluenceOf (pair : String) (analyses : Analyses) : ConfluenceResult :=
  let score := scoreOf analyses
  let dominantSignal := signalOf score
  { pair := pair
    score := roundTo 4 score
    signal := dominantSignal
    agreeingTimeframes := (analyses.filter fun e =>
      e.2.signal = dominantSignal ∧ dominantSignal ≠ .neutral).map Prod.fst
    totalTimeframes := analyses.length
    analyses := analyses }

def getConfluence (client : InfluxClient) (pair : String) (chosen : Option (List String)) :
    ConfluenceResult :=
  confluenceOf pair (getSnapshot client pair chosen)

/-- The endpoint refuses timeframes that are not known. -/
def requestConfluence (client : InfluxClient) (pair : String) (chosen : Option (List String)) :
    Except (List String) ConfluenceResult :=
  let invalid := (chosen.getD []).filter fun timeframe => timeframe ∉ timeframes
  if invalid = [] then .ok (getConfluence client pair chosen) else .error invalid

/-! ### The filter -/

structure MTFSignalFilter where
  minConfluence : ℚ := 3 / 10
  minAgreeing : ℤ := 2

inductive Reason where
  | passes
  | weak (score minConfluence : ℚ)
  | conflicts (direction : String) (signal : Signal)
  | few (agreeing : ℕ) (minAgreeing : ℤ)

def signalValue : Signal → String
  | .bullish => "bullish"
  | .bearish => "bearish"
  | .neutral => "neutral"

def Reason.text (showNumber : ℚ → String) : Reason → String
  | .passes => "Signal passes MTF filter"
  | .weak score minConfluence =>
    "Confluence score " ++ showNumber score ++ " below threshold " ++ showNumber minConfluence
  | .conflicts direction signal =>
    "Signal direction " ++ direction ++ " conflicts with MTF trend " ++ signalValue signal
  | .few agreeing minAgreeing =>
    "Only " ++ toString agreeing ++ " agreeing timeframes, need " ++ toString minAgreeing

structure Decision where
  allowed : Bool
  reason : Reason
  confluenceScore : ℚ
  confluenceSignal : Signal
  agreeingTimeframes : List String

def expectedSignal (direction : String) : Signal :=
  if direction.toUpper = "BUY" then .bullish else .bearish

def MTFSignalFilter.reasonFor (filter : MTFSignalFilter) (confluence : ConfluenceResult)
    (direction : String) : Reason :=
  if |confluence.score| < filter.minConfluence then
    .weak confluence.score filter.minConfluence
  else if confluence.signal ≠ .neutral ∧ confluence.signal ≠ expectedSignal direction then
    .conflicts direction confluence.signal
  else if (confluence.agreeingTimeframes.length : ℤ) < filter.minAgreeing then
    .few confluence.agreeingTimeframes.length filter.minAgreeing
  else .passes

def MTFSignalFilter.shouldExecute (filter : MTFSignalFilter) (client : InfluxClient)
    (pair direction : String) : Decision :=
  let confluence := getConfluence client pair none
  let reason := filter.reasonFor confluence direction
  { allowed :=
      match reason with
      | .passes => true
      | _ => false
    reason := reason
    confluenceScore := confluence.score
    confluenceSignal := confluence.signal
    agreeingTimeframes := confluence.agreeingTimeframes }

/-! ### Reflected prices -/

def InfluxClient.reflect (client : InfluxClient) (c : ℚ) : InfluxClient where
  getCandles symbol timeframe start limit :=
    (client.getCandles symbol timeframe start limit).map fun candle =>
      ⟨candle.close.map fun close => c - close⟩

/-- The other side's confluence. -/
structure Opposite (result other : ConfluenceResult) : Prop where
  score : other.score = -result.score
  signal : other.signal = result.signal.opposite
  analyses : other.analyses.map (fun e => (e.1, e.2.signal)) =
    result.analyses.map fun e => (e.1, e.2.signal.opposite)

def IsFlat (closes : List ℚ) : Prop := ∀ x ∈ closes, ∀ y ∈ closes, x = y

/-- Two of the averages, or the last close and the longer one, are the same. -/
def IsTied (closes : List ℚ) : Prop :=
  minCandles ≤ closes.length ∧
    (computeSma closes 10 = computeSma closes 20 ∨ computeEma closes 10 = computeEma closes 20 ∨
      some (closes.getLastD 0) = computeSma closes 20)

/-- The analysis of a pair favours neither side. -/
structure DirectionNeutral (client : InfluxClient) (pair : String) : Prop where
  confluence : ∀ c chosen result, requestConfluence client pair chosen = .ok result →
    ∃ other, requestConfluence (client.reflect c) pair chosen = .ok other ∧ Opposite result other
  flat : ∀ timeframe ∈ timeframes, IsFlat (closesOf (candlesOf client pair timeframe)) →
    (analyzeCandles (candlesOf client pair timeframe) timeframe).signal = .neutral
  filter : ∀ (filter : MTFSignalFilter) c direction other,
    (other.toUpper = "BUY" ↔ direction.toUpper ≠ "BUY") →
      (filter.shouldExecute (client.reflect c) pair other).allowed =
        (filter.shouldExecute client pair direction).allowed
  filterFlat : (∀ timeframe ∈ timeframes, IsFlat (closesOf (candlesOf client pair timeframe))) →
    ∀ (filter : MTFSignalFilter) direction other,
      filter.shouldExecute client pair other = filter.shouldExecute client pair direction

/-! ### One timeframe -/

section
variable {candles : List Candle}

theorem isTied_iff {closes : List ℚ} (h : 20 ≤ closes.length) :
    IsTied closes ↔ (levelsOf closes).Tied := by
  have hsma10 : computeSma closes 10 = some (levelsOf closes).sma10 := if_neg (by omega)
  have hsma20 : computeSma closes 20 = some (levelsOf closes).sma20 := if_neg (by omega)
  have hema10 : computeEma closes 10 = some (levelsOf closes).ema10 := if_neg (by omega)
  have hema20 : computeEma closes 20 = some (levelsOf closes).ema20 := if_neg (by omega)
  rw [IsTied, hsma10, hsma20, hema10, hema20, Option.some_inj, Option.some_inj, Option.some_inj]
  exact and_iff_right h

theorem analyzeCandles_of_lt (timeframe : String)
    (h : (closesOf candles).length < 20) :
    (analyzeCandles candles timeframe).signal = .neutral ∧
      (analyzeCandles candles timeframe).strength = 0 := by
  have hfew : (closesOf candles).length < minCandles := h
  rw [analyzeCandles, if_pos hfew]
  exact ⟨rfl, rfl⟩

theorem analyzeCandles_of_le (timeframe : String)
    (h : 20 ≤ (closesOf candles).length) :
    (analyzeCandles candles timeframe).signal = signalOf (levelsOf (closesOf candles)).net ∧
      (analyzeCandles candles timeframe).strength =
        roundTo 4 (min |(levelsOf (closesOf candles)).net| 1) := by
  obtain ⟨hchecks, hnet⟩ := pointsOf_spec h
  have hne : (pointsOf (closesOf candles)).totalChecks ≠ 0 := by
    rw [hchecks]
    norm_num
  have henough : ¬ (closesOf candles).length < minCandles := not_lt.mpr h
  rw [analyzeCandles, if_neg henough, ← hnet]
  exact ⟨if_neg hne, congrArg (roundTo 4) (if_neg hne)⟩

theorem closesOf_reflect (candles : List Candle) (c : ℚ) :
    closesOf (candles.map fun candle => ⟨candle.close.map fun close => c - close⟩) =
      reflect c (closesOf candles) := by
  rw [closesOf, closesOf, reflect, List.filterMap_map, List.map_filterMap]
  rfl

theorem signalOf_neg (score : ℚ) : signalOf (-score) = (signalOf score).opposite := by
  rw [signalOf, signalOf]
  split_ifs <;> first | rfl | linarith

/-- Without a tie the reflected prices have the opposite signal of the same strength. -/
theorem analyzeCandles_reflect (timeframe : String) (c : ℚ)
    (h : ¬ IsTied (closesOf candles)) :
    (analyzeCandles (candles.map fun candle => ⟨candle.close.map fun close => c - close⟩)
        timeframe).signal = (analyzeCandles candles timeframe).signal.opposite ∧
      (analyzeCandles (candles.map fun candle => ⟨candle.close.map fun close => c - close⟩)
        timeframe).strength = (analyzeCandles candles timeframe).strength := by
  have hcloses := closesOf_reflect candles c
  have hlength : (closesOf (candles.map fun candle =>
      ⟨candle.close.map fun close => c - close⟩)).length = (closesOf candles).length := by
    rw [hcloses, reflect, List.length_map]
  rcases lt_or_ge (closesOf candles).length 20 with hlt | hle
  · obtain ⟨hsignal, hstrength⟩ := analyzeCandles_of_lt timeframe hlt
    obtain ⟨hsignal', hstrength'⟩ :=
      analyzeCandles_of_lt timeframe (hlength.trans_lt hlt)
    rw [hsignal, hsignal', hstrength, hstrength']
    exact ⟨rfl, rfl⟩
  · obtain ⟨hsignal, hstrength⟩ := analyzeCandles_of_le timeframe hle
    obtain ⟨hsignal', hstrength'⟩ :=
      analyzeCandles_of_le timeframe (hle.trans_eq hlength.symm)
    have hnet := net_reflect c (consistent_levelsOf hle) (mt (isTied_iff hle).mpr h)
    rw [hsignal, hsignal', hstrength, hstrength', hcloses, levelsOf_reflect c hle, hnet, abs_neg]
    exact ⟨signalOf_neg _, rfl⟩

/-- Prices that are all equal are tied. -/
theorem analyzeCandles_flat (timeframe : String) (hflat : IsFlat (closesOf candles))
    (h : ¬ IsTied (closesOf candles)) :
    (analyzeCandles candles timeframe).signal = .neutral ∧
      (analyzeCandles candles timeframe).strength = 0 := by
  apply analyzeCandles_of_lt
  by_contra hlt
  have hle := not_lt.mp hlt
  obtain ⟨first, rest, hcloses⟩ :=
    List.exists_cons_of_length_pos (by omega : 0 < (closesOf candles).length)
  have hfirst : first ∈ closesOf candles := by
    rw [hcloses]
    exact List.mem_cons_self
  obtain ⟨hsma10, hsma20, -⟩ := levels_of_forall_eq (fun x hx => hflat x hx first hfirst) hle
  exact h ((isTied_iff hle).mpr (.inl (hsma10.trans hsma20.symm)))

/-- The net of the points is a number of quarters. -/
theorem exists_quarters (levels : Levels) :
    ∃ n : ℤ, levels.net = n / 4 ∧ -4 ≤ n ∧ n ≤ 4 := by
  have hside (above : Prop) [Decidable above] : ∃ n : ℤ, side above = n ∧ -1 ≤ n ∧ n ≤ 1 := by
    rw [side]
    split_ifs
    · exact ⟨1, by norm_num⟩
    · exact ⟨-1, by norm_num⟩
  have hrsi (rsi : ℚ) : ∃ n : ℤ, rsiSide rsi = n ∧ -1 ≤ n ∧ n ≤ 1 := by
    rw [rsiSide]
    split_ifs
    · exact ⟨1, by norm_num⟩
    · exact ⟨-1, by norm_num⟩
    · exact ⟨0, by norm_num⟩
  obtain ⟨sma, hsma, hsma'⟩ := hside (levels.sma20 < levels.sma10)
  obtain ⟨ema, hema, hema'⟩ := hside (levels.ema20 < levels.ema10)
  obtain ⟨price, hprice, hprice'⟩ := hside (levels.sma20 < levels.price)
  obtain ⟨rsi, hrsi, hrsi'⟩ := hrsi (strength levels.avgGain levels.avgLoss)
  refine ⟨sma + ema + price + rsi, ?_, by omega, by omega⟩
  rw [Levels.net, hsma, hema, hprice, hrsi]
  push_cast
  rfl

theorem isDecimal_net (levels : Levels) : IsDecimal 4 levels.net := by
  obtain ⟨n, hnet, -⟩ := exists_quarters levels
  refine ⟨n * 2500, ?_⟩
  rw [hnet]
  push_cast
  ring

/-- No quarter is lost to the threshold of a signal or to rounding. -/
theorem signedStrength_of_le (timeframe : String) (h : 20 ≤ (closesOf candles).length) :
    signedStrength (analyzeCandles candles timeframe) = (levelsOf (closesOf candles)).net := by
  obtain ⟨hsignal, hstrength⟩ := analyzeCandles_of_le timeframe h
  have hdecimal := isDecimal_net (levelsOf (closesOf candles))
  obtain ⟨n, hnet, hlow, hhigh⟩ := exists_quarters (levelsOf (closesOf candles))
  have hlow' : (-4 : ℚ) ≤ n := by exact_mod_cast hlow
  have hhigh' : (n : ℚ) ≤ 4 := by exact_mod_cast hhigh
  have habs : |(levelsOf (closesOf candles)).net| ≤ 1 := by
    rw [hnet, abs_le]
    constructor <;> linarith
  rw [min_eq_left habs] at hstrength
  rw [signedStrength, hsignal, hstrength, signalOf]
  rcases lt_trichotomy n 0 with hneg | rfl | hpos
  · have hquarter : (n : ℚ) ≤ -1 := by exact_mod_cast Int.le_sub_one_of_lt hneg
    rw [if_neg (by rw [hnet]; linarith), if_pos (by rw [hnet]; linarith),
      abs_of_neg (by rw [hnet]; linarith), hdecimal.neg.roundTo_eq, neg_neg]
  · rw [if_neg (by rw [hnet]; norm_num), if_neg (by rw [hnet]; norm_num), hnet]
    norm_num
  · have hquarter : (1 : ℚ) ≤ n := by exact_mod_cast hpos
    rw [if_pos (by rw [hnet]; linarith), abs_of_pos (by rw [hnet]; linarith),
      hdecimal.roundTo_eq]

end

/-! ### The score -/

theorem timeframeWeight_pos (timeframe : String) : 0 < timeframeWeight timeframe := by
  unfold timeframeWeight
  split <;> norm_num

theorem scoreOf_singleton (timeframe : String) (analysis : TimeframeAnalysis) :
    scoreOf [(timeframe, analysis)] = signedStrength analysis := by
  have hweight := (timeframeWeight_pos timeframe).ne'
  simp only [scoreOf, List.map_cons, List.map_nil, List.sum_cons, List.sum_nil, add_zero]
  rw [if_neg hweight, mul_div_cancel_left₀ _ hweight]

theorem scoreOf_neutral {chosen : List String} {analysis : String → TimeframeAnalysis}
    (h : ∀ timeframe ∈ chosen, (analysis timeframe).signal = .neutral) :
    scoreOf (chosen.map fun timeframe => (timeframe, analysis timeframe)) = 0 := by
  have hsum : (chosen.map fun timeframe =>
      timeframeWeight timeframe * signedStrength (analysis timeframe)).sum = 0 := by
    apply List.sum_eq_zero
    intro x hx
    obtain ⟨timeframe, htimeframe, rfl⟩ := List.mem_map.mp hx
    rw [signedStrength, h timeframe htimeframe, mul_zero]
  simp only [scoreOf, List.map_map, Function.comp_def, hsum, zero_div, ite_self]

theorem opposite_eq_opposite_iff (a b : Signal) : a.opposite = b.opposite ↔ a = b := by
  cases a <;> cases b <;> decide

theorem opposite_eq_neutral_iff (signal : Signal) :
    signal.opposite = .neutral ↔ signal = .neutral := by
  cases signal <;> decide

section
variable {chosen : List String} {analysis other : String → TimeframeAnalysis}
  (h : ∀ timeframe ∈ chosen,
    (other timeframe).signal = (analysis timeframe).signal.opposite ∧
      (other timeframe).strength = (analysis timeframe).strength)
include h

theorem scoreOf_opposite :
    scoreOf (chosen.map fun timeframe => (timeframe, other timeframe)) =
      -scoreOf (chosen.map fun timeframe => (timeframe, analysis timeframe)) := by
  have hsigned : ∀ timeframe ∈ chosen,
      signedStrength (other timeframe) = -signedStrength (analysis timeframe) := by
    intro timeframe htimeframe
    obtain ⟨hsignal, hstrength⟩ := h timeframe htimeframe
    rw [signedStrength, signedStrength, hsignal, hstrength]
    cases (analysis timeframe).signal with
    | bullish => rfl
    | bearish => exact (neg_neg _).symm
    | neutral => exact neg_zero.symm
  have hsum : (chosen.map fun timeframe =>
      timeframeWeight timeframe * signedStrength (other timeframe)).sum =
        -(chosen.map fun timeframe =>
          timeframeWeight timeframe * signedStrength (analysis timeframe)).sum := by
    rw [← neg_one_mul, ← List.sum_map_mul_left]
    apply congrArg List.sum
    apply List.map_congr_left
    intro timeframe htimeframe
    rw [hsigned timeframe htimeframe, mul_neg, neg_one_mul]
  simp only [scoreOf, List.map_map, Function.comp_def, hsum]
  split_ifs
  · exact neg_zero.symm
  · exact neg_div _ _

/-- Each timeframe with the opposite analysis. -/
theorem confluenceOf_opposite (pair : String) :
    Opposite (confluenceOf pair (chosen.map fun timeframe => (timeframe, analysis timeframe)))
      (confluenceOf pair (chosen.map fun timeframe => (timeframe, other timeframe))) where
  score := by
    rw [confluenceOf, confluenceOf, scoreOf_opposite h]
    exact roundTo_neg 4 _
  signal := by
    rw [confluenceOf, confluenceOf, scoreOf_opposite h]
    exact signalOf_neg _
  analyses := by
    rw [confluenceOf, confluenceOf, List.map_map, List.map_map]
    apply List.map_congr_left
    intro timeframe htimeframe
    exact congrArg (Prod.mk timeframe) (h timeframe htimeframe).1

theorem agreeingTimeframes_opposite (pair : String) :
    (confluenceOf pair
      (chosen.map fun timeframe => (timeframe, other timeframe))).agreeingTimeframes =
      (confluenceOf pair
        (chosen.map fun timeframe => (timeframe, analysis timeframe))).agreeingTimeframes := by
  rw [confluenceOf, confluenceOf, scoreOf_opposite h, signalOf_neg]
  simp only [List.filter_map, List.map_map]
  congr 1
  apply List.filter_congr
  intro timeframe htimeframe
  simp only [Function.comp_apply, (h timeframe htimeframe).1, opposite_eq_opposite_iff, ne_eq,
    opposite_eq_neutral_iff]

end

/-! ### Every request -/

section
variable {client : InfluxClient} {pair : String}

theorem candlesOf_reflect (c : ℚ) (timeframe : String) :
    candlesOf (client.reflect c) pair timeframe =
      (candlesOf client pair timeframe).map fun candle =>
        ⟨candle.close.map fun close => c - close⟩ := rfl

variable (h : ∀ timeframe ∈ timeframes, ¬ IsTied (closesOf (candlesOf client pair timeframe)))
include h

theorem analyses_opposite (c : ℚ) {chosen : List String}
    (hchosen : ∀ timeframe ∈ chosen, timeframe ∈ timeframes) : ∀ timeframe ∈ chosen,
    (analyzeCandles (candlesOf (client.reflect c) pair timeframe) timeframe).signal =
      (analyzeCandles (candlesOf client pair timeframe) timeframe).signal.opposite ∧
    (analyzeCandles (candlesOf (client.reflect c) pair timeframe) timeframe).strength =
      (analyzeCandles (candlesOf client pair timeframe) timeframe).strength := by
  intro timeframe htimeframe
  rw [candlesOf_reflect]
  exact analyzeCandles_reflect timeframe c (h timeframe (hchosen timeframe htimeframe))

end

theorem mem_chosenTimeframes {chosen : Option (List String)}
    (hvalid : ((chosen.getD []).filter fun timeframe => timeframe ∉ timeframes) = []) :
    ∀ timeframe ∈ (chosenTimeframes chosen).eraseDups, timeframe ∈ timeframes := by
  intro timeframe htimeframe
  rw [List.mem_eraseDups] at htimeframe
  cases chosen with
  | none => exact htimeframe
  | some chosen =>
    cases chosen with
    | nil => exact htimeframe
    | cons first rest =>
      have hknown := List.filter_eq_nil_iff.mp hvalid timeframe htimeframe
      simpa using hknown

/-! ### The filter and the reflection -/

theorem allowed_iff (filter : MTFSignalFilter) (client : InfluxClient) (pair direction : String) :
    (filter.shouldExecute client pair direction).allowed = true ↔
      filter.minConfluence ≤ |(getConfluence client pair none).score| ∧
        ((getConfluence client pair none).signal = .neutral ∨
          (getConfluence client pair none).signal = expectedSignal direction) ∧
        filter.minAgreeing ≤ (getConfluence client pair none).agreeingTimeframes.length := by
  rw [MTFSignalFilter.shouldExecute, MTFSignalFilter.reasonFor]
  generalize getConfluence client pair none = confluence
  split_ifs with hweak hconflict hfew
  · exact iff_of_false id fun h => absurd h.1 (not_le.mpr hweak)
  · refine iff_of_false id fun h => ?_
    exact h.2.1.elim hconflict.1 hconflict.2
  · exact iff_of_false id fun h => absurd h.2.2 (not_le.mpr hfew)
  · refine iff_of_true rfl ⟨not_lt.mp hweak, ?_, not_lt.mp hfew⟩
    rwa [not_and_or, not_not, not_not] at hconflict

theorem expectedSignal_opposite {direction other : String}
    (h : other.toUpper = "BUY" ↔ direction.toUpper ≠ "BUY") :
    expectedSignal other = (expectedSignal direction).opposite := by
  rw [expectedSignal, expectedSignal]
  by_cases hbuy : direction.toUpper = "BUY"
  · rw [if_pos hbuy, if_neg fun hother => h.mp hother hbuy]
    rfl
  · rw [if_neg hbuy, if_pos (h.mpr hbuy)]
    rfl

theorem score_singleton (client : InfluxClient) (pair timeframe : String) :
    (getConfluence client pair (some [timeframe])).score =
      roundTo 4 (signedStrength (analyzeCandles (candlesOf client pair timeframe) timeframe)) :=
  congrArg (roundTo 4) (scoreOf_singleton timeframe _)

/-- The analysis is neutral exactly when no timeframe has a tie. -/
theorem directionNeutral_iff (client : InfluxClient) (pair : String) :
    DirectionNeutral client pair ↔
      ∀ timeframe ∈ timeframes, ¬ IsTied (closesOf (candlesOf client pair timeframe)) := by
  constructor
  · intro hneutral timeframe htimeframe htied
    -- the timeframe on its own, with the prices negated
    have hvalid : (([timeframe] : List String).filter fun timeframe => timeframe ∉ timeframes) =
        [] := by
      simpa using htimeframe
    obtain ⟨other, hother, hopposite⟩ :=
      hneutral.confluence 0 (some [timeframe]) _ (if_pos hvalid)
    have hother' : getConfluence (client.reflect 0) pair (some [timeframe]) = other :=
      Except.ok.inj ((if_pos hvalid).symm.trans hother)
    have hle := htied.1
    have hle' : 20 ≤ (closesOf (candlesOf (client.reflect 0) pair timeframe)).length := by
      rw [candlesOf_reflect, closesOf_reflect, reflect, List.length_map]
      exact hle
    have hscore := hopposite.score
    rw [← hother', score_singleton, score_singleton, signedStrength_of_le timeframe hle,
      signedStrength_of_le timeframe hle', (isDecimal_net _).roundTo_eq,
      (isDecimal_net _).roundTo_eq, candlesOf_reflect, closesOf_reflect,
      levelsOf_reflect 0 hle] at hscore
    have hsum := net_add_reflect_neg 0 (consistent_levelsOf hle) ((isTied_iff hle).mp htied)
    rw [hscore, add_neg_cancel] at hsum
    exact lt_irrefl 0 hsum
  · intro hties
    have hall : ∀ timeframe ∈ (chosenTimeframes none).eraseDups, timeframe ∈ timeframes :=
      mem_chosenTimeframes rfl
    refine ⟨fun c chosen result hresult => ?_, fun timeframe htimeframe hflat => ?_,
      fun filter c direction other hother => ?_, fun hflat filter direction other => ?_⟩
    · rw [requestConfluence] at hresult ⊢
      split_ifs at hresult ⊢ with hvalid
      cases hresult
      exact ⟨_, rfl, confluenceOf_opposite (analyses_opposite hties c
        (mem_chosenTimeframes hvalid)) pair⟩
    · exact (analyzeCandles_flat timeframe hflat (hties timeframe htimeframe)).1
    · have hanalyses := analyses_opposite hties c hall
      have hopposite := confluenceOf_opposite hanalyses pair
      have hagreeing := agreeingTimeframes_opposite hanalyses pair
      rw [Bool.eq_iff_iff, allowed_iff, allowed_iff, expectedSignal_opposite hother]
      rw [getConfluence, getConfluence, getSnapshot, getSnapshot, hopposite.score,
        hopposite.signal, hagreeing, abs_neg, opposite_eq_neutral_iff, opposite_eq_opposite_iff]
    · have hscore := scoreOf_neutral fun timeframe htimeframe =>
        (analyzeCandles_flat timeframe (hflat timeframe (hall timeframe htimeframe))
          (hties timeframe (hall timeframe htimeframe))).1
      have hneutral : (getConfluence client pair none).signal = .neutral := by
        rw [getConfluence, getSnapshot, confluenceOf, hscore]
        norm_num [signalOf]
      rw [MTFSignalFilter.shouldExecute, MTFSignalFilter.shouldExecute, MTFSignalFilter.reasonFor,
        MTFSignalFilter.reasonFor, hneutral]
      simp only [ne_eq, not_true_eq_false, false_and, ↓reduceIte]

/-- The price is one in every candle. -/
def flatClient : InfluxClient where
  getCandles _ _ _ _ := List.replicate 20 ⟨some 1⟩

/-- Every tie counts against a rise: prices that never move are bearish. -/
theorem flat_not_directionNeutral :
    ¬ ∀ (client : InfluxClient) (pair : String), DirectionNeutral client pair := by
  intro hneutral
  have hbearish : (analyzeCandles (candlesOf flatClient "BTC/USD" "1m") "1m").signal =
      .bearish := by decide +kernel
  have hflat : IsFlat (closesOf (candlesOf flatClient "BTC/USD" "1m")) := by
    have hcloses : closesOf (candlesOf flatClient "BTC/USD" "1m") = List.replicate 20 1 := rfl
    rw [hcloses]
    intro x hx y hy
    rw [List.eq_of_mem_replicate hx, List.eq_of_mem_replicate hy]
  have hsignal := (hneutral flatClient "BTC/USD").flat "1m" (by decide) hflat
  rw [hbearish] at hsignal
  cases hsignal

end TradeStream.TimeframeConfluence
