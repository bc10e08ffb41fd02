import TradeStream.InsertionDict
import TradeStream.RoundDecimal
import TradeStream.RunningMaximum

/-! The risk snapshot of a portfolio, in exact arithmetic, and its drawdowns. -/
namespace TradeStream.RiskAnalytics
open TradeStream.InsertionDict TradeStream.RoundDecimal TradeStream.RunningMaximum

structure StrategyReturn where
  strategyId : String
  returns : List ℚ
  capitalAllocated : ℚ

structure RiskSnapshot where
  totalExposure : ℚ
  netPosition : ℚ
  portfolioValue : ℚ
  var95 : Option ℚ
  var99 : Option ℚ
  maxDrawdown : Option ℚ
  currentDrawdown : Option ℚ
  sharpeRatio : Option ℚ
  sortinoRatio : Option ℚ
  strategyConcentrations : List (String × ℚ)
  correlationMatrix : List (String × List (String × ℚ))
  strategyCount : ℕ

/-- What is taken from numpy and `math`: `std` is the sample deviation, `corrcoef` the matrix of
the correlations of some rows. -/
structure Numpy where
  percentile : List ℚ → ℚ → ℚ
  std : List ℚ → ℚ
  sqrt : ℚ → ℚ
  corrcoef : List (List ℚ) → ℕ → ℕ → ℚ

section
variable (numpy : Numpy)

def computeVar (returns : List ℚ) (confidence : ℚ) : Option ℚ :=
  if returns.length < 2 then none
  else
    let value := numpy.percentile returns ((1 - confidence) * 100)
    some (if value < 0 then -value else 0)

/-- `np.where(peak > 0, peak, 1.0)` keeps a peak that is not positive out of the divisor. -/
def computeMaxDrawdown (equityCurve : List ℚ) : Option ℚ :=
  if equityCurve.length < 2 then none
  else
    (List.zipWith (fun peak value => (peak - value) / if 0 < peak then peak else 1)
      (runningMax equityCurve) equityCurve).max?

def computeCurrentDrawdown (equityCurve : List ℚ) : Option ℚ :=
  match equityCurve.max?, equityCurve.getLast? with
  | some peak, some current => if peak ≤ 0 then none else some ((peak - current) / peak)
  | _, _ => none

def mean (xs : List ℚ) : ℚ := xs.sum / xs.length

/-- The returns above the risk-free rate. -/
def excessOf (returns : List ℚ) (riskFreeRate periodsPerYear : ℚ) : List ℚ :=
  returns.map (· - riskFreeRate / periodsPerYear)

def computeSharpeRatio (returns : List ℚ) (riskFreeRate periodsPerYear : ℚ) : Option ℚ :=
  if returns.length < 2 then none
  else
    let excess := excessOf returns riskFreeRate periodsPerYear
    if numpy.std excess = 0 then none
    else some (mean excess / numpy.std excess * numpy.sqrt periodsPerYear)

def computeSortinoRatio (returns : List ℚ) (riskFreeRate periodsPerYear : ℚ) : Option ℚ :=
  if returns.length < 2 then none
  else
    let excess := excessOf returns riskFreeRate periodsPerYear
    let downside := excess.filter (· < 0)
    let downsideStd := numpy.sqrt (mean (downside.map (· ^ 2)))
    if downside.length = 0 then none
    else if downsideStd = 0 then none
    else some (mean excess / downsideStd * numpy.sqrt periodsPerYear)

def computeConcentration (allocations : List (String × ℚ)) : List (String × ℚ) :=
  let total := (allocations.map fun e => |e.2|).sum
  allocations.map fun e => (e.1, if total = 0 then 0 else roundTo 4 (|e.2| / total))

/-- The length of the shortest series; nothing without one. -/
def minLen (strategyReturns : List StrategyReturn) : ℕ :=
  ((strategyReturns.map fun sr => sr.returns.length).min?).getD 0

def computeCorrelationMatrix (strategyReturns : List StrategyReturn) :
    List (String × List (String × ℚ)) :=
  let indexed := strategyReturns.zipIdx
  let rows (entry : StrategyReturn × ℕ → StrategyReturn × ℕ → ℚ) :=
    dictOf (fun i : StrategyReturn × ℕ => i.1.strategyId)
      (fun i => dictOf (fun j : StrategyReturn × ℕ => j.1.strategyId) (entry i) indexed) indexed
  if strategyReturns.length < 2 then rows fun _ _ => 1
  else if minLen strategyReturns < 2 then
    rows fun i j => if i.1.strategyId = j.1.strategyId then 1 else 0
  else
    let matrix := strategyReturns.map fun sr => sr.returns.take (minLen strategyReturns)
    rows fun i j => roundTo 4 (numpy.corrcoef matrix i.2 j.2)

/-- The share of a strategy in the portfolio. -/
def weightOf (strategyReturns : List StrategyReturn) (sr : StrategyReturn) : ℚ :=
  let totalCapital := (strategyReturns.map StrategyReturn.capitalAllocated).sum
  if 0 < totalCapital then sr.capitalAllocated / totalCapital else 1 / strategyReturns.length

def computePortfolioReturns (strategyReturns : List StrategyReturn) : List ℚ :=
  strategyReturns.foldl
    (fun portfolio sr => List.zipWith (fun total r => total + weightOf strategyReturns sr * r)
      portfolio (sr.returns.take (minLen strategyReturns)))
    (List.replicate (minLen strategyReturns) 0)

/-- The value before a period. A period that loses everything leaves it as it is after it. -/
def valueBefore (val r : ℚ) : ℚ := if 1 + r ≠ 0 then val / (1 + r) else val

/-- The loop over the returns, the last first, with the value reached and the curve so far. -/
def equityCurveOf (portfolioValue : ℚ) (returns : List ℚ) : List ℚ :=
  (returns.reverse.foldl (fun s r => (valueBefore s.1 r, valueBefore s.1 r :: s.2))
    (portfolioValue, [portfolioValue])).2

def buildRiskSnapshot (strategyReturns : List StrategyReturn) (portfolioValue : ℚ) :
    RiskSnapshot :=
  let allocations :=
    dictOf StrategyReturn.strategyId StrategyReturn.capitalAllocated strategyReturns
  let portReturns := computePortfolioReturns strategyReturns
  let equityCurve := equityCurveOf portfolioValue portReturns
  { totalExposure := (allocations.map fun e => |e.2|).sum
    netPosition := (allocations.map Prod.snd).sum
    portfolioValue := portfolioValue
    var95 := computeVar numpy portReturns (95 / 100)
    var99 := computeVar numpy portReturns (99 / 100)
    maxDrawdown := computeMaxDrawdown equityCurve
    currentDrawdown := computeCurrentDrawdown equityCurve
    sharpeRatio := computeSharpeRatio numpy portReturns 0 252
    sortinoRatio := computeSortinoRatio numpy portReturns 0 252
    strategyConcentrations := computeConcentration allocations
    correlationMatrix := computeCorrelationMatrix numpy strategyReturns
    strategyCount := strategyReturns.length }

end

/-! ### The drawdowns, by the growth of the periods -/

/-- The growth in a period. One that loses everything counts as none. -/
def growth (r : ℚ) : ℚ := if 1 + r = 0 then 1 else 1 + r

/-- What is lost over some periods on end, or nothing. -/
def periodLosses (growths : List ℚ) : Set ℚ :=
  insert 0 {loss | ∃ i j, i ≤ j ∧ j < growths.length ∧
    loss = 1 - ((growths.take (j + 1)).drop i).prod}

/-- The drawdowns of a snapshot, where a return is the growth that it stands for. -/
structure Correct (numpy : Numpy) (growth : ℚ → ℚ) (strategyReturns : List StrategyReturn)
    (portfolioValue : ℚ) : Prop where
  maxDrawdown : ∃ m, (buildRiskSnapshot numpy strategyReturns portfolioValue).maxDrawdown = some m ∧
    IsGreatest (periodLosses ((computePortfolioReturns strategyReturns).map growth)) m
  independent : ∀ value, 0 < value →
    (buildRiskSnapshot numpy strategyReturns value).maxDrawdown =
      (buildRiskSnapshot numpy strategyReturns portfolioValue).maxDrawdown
  current : ∃ m c, (buildRiskSnapshot numpy strategyReturns portfolioValue).maxDrawdown = some m ∧
    (buildRiskSnapshot numpy strategyReturns portfolioValue).currentDrawdown = some c ∧
      0 ≤ c ∧ c ≤ m ∧ m ≤ 1

theorem growth_pos {r : ℚ} (h : -1 ≤ r) : 0 < growth r := by
  rw [growth]
  split_ifs with hlost
  · exact one_pos
  · exact lt_of_le_of_ne (by linarith) (Ne.symm hlost)

theorem valueBefore_eq (val r : ℚ) : valueBefore val r = val / growth r := by
  rw [valueBefore, growth]
  by_cases hlost : 1 + r = 0
  · rw [if_neg (not_not.mpr hlost), if_pos hlost, div_one]
  · rw [if_pos hlost, if_neg hlost]

theorem foldl_mul_eq (x : ℚ) (xs : List ℚ) : xs.foldl (· * ·) x = x * xs.prod := by
  induction xs generalizing x with
  | nil => simp
  | cons y xs ih => rw [List.foldl_cons, ih, List.prod_cons, mul_assoc]

/-- The curve that is built backwards is the one that grows from its first value. -/
theorem equityCurveOf_eq (portfolioValue : ℚ) {returns : List ℚ} (h : ∀ r ∈ returns, -1 ≤ r) :
    equityCurveOf portfolioValue returns =
      (returns.map growth).scanl (· * ·) (portfolioValue / (returns.map growth).prod) := by
  -- with the value that the loop has reached
  have hloop : returns.reverse.foldl (fun s r => (valueBefore s.1 r, valueBefore s.1 r :: s.2))
      (portfolioValue, [portfolioValue]) =
        (portfolioValue / (returns.map growth).prod,
          (returns.map growth).scanl (· * ·) (portfolioValue / (returns.map growth).prod)) := by
    induction returns with
    | nil => simp
    | cons r returns ih =>
      obtain ⟨hr, hreturns⟩ := List.forall_mem_cons.mp h
      have hstart : portfolioValue / (returns.map growth).prod / growth r =
          portfolioValue / (growth r * (returns.map growth).prod) := by
        rw [div_div, mul_comm]
      have hnext : portfolioValue / (growth r * (returns.map growth).prod) * growth r =
          portfolioValue / (returns.map growth).prod := by
        rw [← hstart, div_mul_cancel₀ _ (growth_pos hr).ne']
      rw [List.reverse_cons, List.foldl_append, ih hreturns, List.foldl_cons, List.foldl_nil,
        valueBefore_eq, List.map_cons, List.prod_cons, List.scanl_cons, hstart, hnext]
  rw [equityCurveOf, hloop]

section
variable {growths : List ℚ} {start : ℚ}

theorem pos_of_mem_scanl (hpos : ∀ g ∈ growths, 0 < g) (hstart : 0 < start) :
    ∀ value ∈ growths.scanl (· * ·) start, 0 < value := by
  intro value hvalue
  obtain ⟨j, hj, rfl⟩ := List.mem_iff_getElem.mp hvalue
  rw [List.getElem_scanl, foldl_mul_eq]
  exact mul_pos hstart (List.prod_pos fun g hg => hpos g (List.mem_of_mem_take hg))

/-- The losses along the curve are those of the periods between. -/
theorem relativeLosses_scanl (hpos : ∀ g ∈ growths, 0 < g) (hstart : 0 < start) :
    relativeLosses (growths.scanl (· * ·) start) = periodLosses growths := by
  -- the start and the growths up to the first of the two values cancel
  have hratio : ∀ i j, i ≤ j → start * (growths.take j).prod / (start * (growths.take i).prod) =
      ((growths.take j).drop i).prod := by
    intro i j hij
    have hsplit : (growths.take i).prod * ((growths.take j).drop i).prod =
        (growths.take j).prod := by
      have htake : (growths.take j).take i = growths.take i := by
        rw [List.take_take, min_eq_left hij]
      rw [← htake, List.prod_take_mul_prod_drop]
    have hne : (growths.take i).prod ≠ 0 :=
      (List.prod_pos fun g hg => hpos g (List.mem_of_mem_take hg)).ne'
    rw [mul_div_mul_left _ _ hstart.ne', ← hsplit, mul_div_cancel_left₀ _ hne]
  ext loss
  simp only [relativeLosses, periodLosses, Set.mem_ofPred_eq, Set.mem_insert_iff,
    List.get_eq_getElem, List.getElem_scanl, foldl_mul_eq, List.length_scanl]
  constructor
  · rintro ⟨i, j, hij, hj, rfl⟩
    rw [hratio i j hij]
    rcases eq_or_lt_of_le hij with rfl | hlt
    · left
      simp
    · obtain ⟨k, rfl⟩ := Nat.exists_eq_succ_of_ne_zero (by omega : j ≠ 0)
      exact Or.inr ⟨i, k, by omega, by omega, rfl⟩
  · rintro (rfl | ⟨i, j, hij, hj, rfl⟩)
    · refine ⟨0, 0, le_rfl, by omega, ?_⟩
      rw [hratio 0 0 le_rfl]
      simp
    · refine ⟨i, j + 1, by omega, by omega, ?_⟩
      rw [hratio i (j + 1) (by omega)]

end

section
variable {equityCurve : List ℚ}

theorem runningMax_pos (hpos : ∀ value ∈ equityCurve, 0 < value) :
    ∀ peak ∈ runningMax equityCurve, 0 < peak := by
  intro peak hpeak
  obtain ⟨j, hj, rfl⟩ := List.mem_iff_getElem.mp hpeak
  exact hpos _ (List.mem_of_mem_take (isGreatest_runningMax equityCurve hj).1)

theorem computeMaxDrawdown_eq (hpos : ∀ value ∈ equityCurve, 0 < value)
    (hlength : 2 ≤ equityCurve.length) :
    computeMaxDrawdown equityCurve = (drawdowns equityCurve).max? := by
  rw [computeMaxDrawdown, if_neg (by omega), drawdowns]
  congr 1
  apply List.ext_getElem
  · simp
  · intro j hj hj'
    rw [List.length_zipWith, lt_min_iff] at hj
    rw [List.getElem_zipWith, List.getElem_zipWith,
      if_pos (runningMax_pos hpos _ (List.getElem_mem hj.1))]

/-- The greatest loss along a curve, and the loss against its peak at the end of it. -/
theorem drawdowns_of_pos (hpos : ∀ value ∈ equityCurve, 0 < value)
    (hlength : 2 ≤ equityCurve.length) :
    ∃ m c, computeMaxDrawdown equityCurve = some m ∧
      computeCurrentDrawdown equityCurve = some c ∧
      IsGreatest (relativeLosses equityCurve) m ∧ 0 ≤ c ∧ c ≤ m := by
  have hne : equityCurve ≠ [] := by
    rintro rfl
    simp at hlength
  have hdrawdowns : drawdowns equityCurve ≠ [] := by
    rw [← List.length_pos_iff, drawdowns, List.length_zipWith, length_runningMax, min_self]
    omega
  obtain ⟨m, hm⟩ := Option.isSome_iff_exists.mp (List.isSome_max?_of_ne_nil hdrawdowns)
  obtain ⟨peak, hpeak⟩ := Option.isSome_iff_exists.mp (List.isSome_max?_of_ne_nil hne)
  obtain ⟨hpeakMem, hpeakMax⟩ := List.max?_eq_some_iff.mp hpeak
  obtain ⟨hmem, hmax⟩ := List.max?_eq_some_iff.mp hm
  have hpeakPos := hpos peak hpeakMem
  have hlast : equityCurve.getLast? = some (equityCurve.getLast hne) :=
    List.getLast?_eq_some_getLast hne
  have hlastLe := hpeakMax _ (List.getLast_mem hne)
  -- the peak is the running maximum at the end
  have hend : equityCurve.length - 1 < equityCurve.length := by omega
  have hend' : equityCurve.length - 1 < (runningMax equityCurve).length := by simpa using hend
  have hrunning := isGreatest_runningMax equityCurve hend'
  have htake : equityCurve.take (equityCurve.length - 1 + 1) = equityCurve :=
    List.take_of_length_le (by omega)
  rw [htake] at hrunning
  have hsame := hrunning.unique ⟨hpeakMem, hpeakMax⟩
  have hcurrent : (peak - equityCurve.getLast hne) / peak ∈ drawdowns equityCurve := by
    refine mem_drawdowns_iff.mpr ⟨equityCurve.length - 1, hend, ?_⟩
    rw [List.get_eq_getElem, hsame, List.getLast_eq_getElem]
  refine ⟨m, (peak - equityCurve.getLast hne) / peak, ?_, ?_, ?_, ?_, hmax _ hcurrent⟩
  · rw [computeMaxDrawdown_eq hpos hlength, hm]
  · rw [computeCurrentDrawdown, hpeak, hlast]
    exact if_neg (not_le.mpr hpeakPos)
  · exact isGreatest_relativeLosses hpos ⟨hmem, hmax⟩
  · exact div_nonneg (sub_nonneg.mpr hlastLe) hpeakPos.le

end

theorem periodLosses_le_one {growths : List ℚ} (hpos : ∀ g ∈ growths, 0 < g) :
    ∀ loss ∈ periodLosses growths, loss ≤ 1 := by
  rintro loss (rfl | ⟨i, j, -, -, rfl⟩)
  · exact zero_le_one
  · have hprod : 0 < ((growths.take (j + 1)).drop i).prod :=
      List.prod_pos fun g hg => hpos g (List.mem_of_mem_take (List.mem_of_mem_drop hg))
    linarith

/-- The drawdowns are those of the growths, a total loss being left out. -/
theorem correct_growth (numpy : Numpy) (strategyReturns : List StrategyReturn)
    (hne : computePortfolioReturns strategyReturns ≠ [])
    (hge : ∀ r ∈ computePortfolioReturns strategyReturns, -1 ≤ r) {portfolioValue : ℚ}
    (hvalue : 0 < portfolioValue) : Correct numpy growth strategyReturns portfolioValue := by
  -- the curve goes up from today's value over all growths, so that its losses are theirs alone
  let growths := (computePortfolioReturns strategyReturns).map growth
  have hpos : ∀ g ∈ growths, 0 < g := by
    intro g hg
    obtain ⟨r, hr, rfl⟩ := List.mem_map.mp hg
    exact growth_pos (hge r hr)
  have hlosses : ∀ value, 0 < value → ∃ m c,
      (buildRiskSnapshot numpy strategyReturns value).maxDrawdown = some m ∧
        (buildRiskSnapshot numpy strategyReturns value).currentDrawdown = some c ∧
          IsGreatest (periodLosses growths) m ∧ 0 ≤ c ∧ c ≤ m := by
    intro value hvalue
    have hstart : 0 < value / growths.prod := div_pos hvalue (List.prod_pos hpos)
    have hlength : 2 ≤ (growths.scanl (· * ·) (value / growths.prod)).length := by
      have hreturns := List.length_pos_iff.mpr hne
      rw [List.length_scanl, List.length_map]
      omega
    have hdrawdowns := drawdowns_of_pos (pos_of_mem_scanl hpos hstart) hlength
    rw [relativeLosses_scanl hpos hstart, ← equityCurveOf_eq value hge] at hdrawdowns
    exact hdrawdowns
  obtain ⟨m, c, hm, hc, hgreatest, hnonneg, hle⟩ := hlosses portfolioValue hvalue
  refine ⟨⟨m, hm, hgreatest⟩, ?_, m, c, hm, hc, hnonneg, hle, ?_⟩
  · intro value hvalue
    obtain ⟨m', -, hm', -, hgreatest', -⟩ := hlosses value hvalue
    rw [hm, hm', hgreatest'.unique hgreatest]
  · exact periodLosses_le_one hpos m hgreatest.1

/-- A numpy for portfolios whose other numbers do not matter. -/
def noNumpy : Numpy := ⟨fun _ _ => 0, fun _ => 0, fun _ => 0, fun _ _ _ => 0⟩

/-- A strategy that gains a tenth and loses a fifth. -/
def tenthUpFifthDown : List StrategyReturn := [⟨"s", [1 / 10, -1 / 5], 1⟩]

theorem correct_tenthUpFifthDown : Correct noNumpy growth tenthUpFifthDown 100 :=
  correct_growth noNumpy tenthUpFifthDown (by decide +kernel) (by decide +kernel) (by norm_num)

/-- A strategy that loses everything has no drawdown. -/
theorem totalLoss_not_correct : ¬ Correct noNumpy (fun r => 1 + r) [⟨"s", [-1], 1⟩] 100 := by
  intro h
  obtain ⟨m, hm, hgreatest⟩ := h.maxDrawdown
  have hzero : (buildRiskSnapshot noNumpy [⟨"s", [-1], 1⟩] 100).maxDrawdown = some 0 := by
    decide +kernel
  have hreturns : (computePortfolioReturns [⟨"s", [-1], 1⟩]).map (fun r => 1 + r) = [0] := by
    decide +kernel
  obtain rfl := Option.some.inj (hm.symm.trans hzero)
  rw [hreturns] at hgreatest
  have hloss : (1 : ℚ) ∈ periodLosses [0] := Or.inr ⟨0, 0, le_rfl, by simp, by simp⟩
  exact absurd (hgreatest.2 hloss) (by norm_num)

end TradeStream.RiskAnalytics
