import TradeStream.BacktestScore
import TradeStream.InsertionDict
import TradeStream.RoundDecimal

/-! `PortfolioBacktester.run`: the returns of several allocations, gathered in dictionaries
by the name of the strategy, against the sum over all of them. -/
namespace TradeStream.PortfolioBacktest
open TradeStream.BacktestRunner (average)
open TradeStream.InsertionDict TradeStream.RoundDecimal
open scoped List TradeStream.BacktestRunner

variable {π α : Type*} [Field α] [LinearOrder α]

structure StrategyAllocation (π α : Type*) where
  strategyName : String
  parameters : π
  weight : α
  deriving DecidableEq, Repr

/-- The metrics of a backtest. -/
abbrev BacktestMetrics (α : Type*) := BacktestRunner.BacktestResult α

structure StrategyResult (α : Type*) where
  strategyName : String
  weight : α
  result : BacktestMetrics α
  returnContribution : α
  riskContribution : α

structure PortfolioBacktestResult (α : Type*) where
  portfolioResult : BacktestMetrics α
  strategyResults : List (StrategyResult α)
  correlationMatrix : List α
  numStrategies : ℕ
  diversificationRatio : α

inductive RunException where
  | valueError (message : String)
  | broadcastError (length size : ℕ)
  deriving DecidableEq, Repr

/-- What is computed outside of `run` on the bars at hand: the returns of the portfolio of an
allocation at each bar, the metrics of a strategy, a root and a power. -/
structure Backtest (π α : Type*) where
  bars : ℕ
  returns : StrategyAllocation π α → ℕ → α
  runStrategy : String → π → BacktestMetrics α
  sqrt : α → α
  pow : α → α → α

/-- A series on the bars. -/
def seriesOf (bars : ℕ) (returns : ℕ → α) : List α := (List.range bars).map returns

/-- The return of a whole series. -/
def totalReturn (bars : ℕ) (returns : ℕ → α) : α :=
  ((seriesOf bars returns).map fun x => 1 + x).prod - 1

/-- `std`, of a sample. -/
def std (sqrt : α → α) (values : List α) : α :=
  sqrt ((values.map fun x => (x - average values) ^ 2).sum / (values.length - 1))

/-- One bar of the equity so far, with its peak and the largest drawdown. -/
def drawdownBar (acc : α × Option (α × α)) (x : α) : α × Option (α × α) :=
  let equity := acc.1 * (1 + x)
  let peak := match acc.2 with
    | none => equity
    | some (peak, _) => max peak equity
  let drawdown := (peak - equity) / (if peak = 0 then 1 else peak)
  (equity, some (peak, match acc.2 with
    | none => drawdown
    | some (_, maxDrawdown) => max maxDrawdown drawdown))

def computePortfolioMetrics (backtest : Backtest π α) (portfolioReturns : ℕ → α) :
    BacktestMetrics α :=
  let values := seriesOf backtest.bars portfolioReturns
  let barsPerYear := 252 * 1440
  let riskFreeRate := 2 / 100
  let cumReturn := totalReturn backtest.bars portfolioReturns
  let years := (backtest.bars : α) / barsPerYear
  let annReturn := backtest.pow (1 + cumReturn) (1 / max years (1 / 10 ^ 9)) - 1
  let vol := if 1 < values.length then std backtest.sqrt values else 0
  let excess := average values - riskFreeRate / barsPerYear
  let sharpe := if vol > 0 then excess / vol * backtest.sqrt barsPerYear else 0
  let negReturns := values.filter fun x => x < 0
  let negStd := std backtest.sqrt negReturns
  let sortino :=
    if negReturns.length > 0 ∧ negStd > 0 then excess / negStd * backtest.sqrt barsPerYear else 0
  let maxDd := ((values.foldl drawdownBar (1, none)).2.map Prod.snd).getD 0
  { cumulativeReturn := cumReturn
    annualizedReturn := annReturn
    sharpeRatio := sharpe
    sortinoRatio := sortino
    maxDrawdown := maxDd
    volatility := vol
    winRate := 0
    profitFactor := 0
    numberOfTrades := 0
    averageTradeDuration := 0
    alpha := 0
    beta := 1
    strategyScore := 0 }

/-- The correlation of two series, zero where one of them does not vary. -/
def corr (sqrt : α → α) (xs ys : List α) : α :=
  let dx := xs.map fun x => x - average xs
  let dy := ys.map fun y => y - average ys
  (List.zipWith (· * ·) dx dy).sum /
    sqrt ((dx.map fun d => d ^ 2).sum * (dy.map fun d => d ^ 2).sum)

section
variable (backtest : Backtest π α) (allocations : List (StrategyAllocation π α))

def strategyReturns : List (String × (ℕ → α)) :=
  dictOf StrategyAllocation.strategyName backtest.returns allocations

def strategyMetrics : List (String × BacktestMetrics α) :=
  dictOf StrategyAllocation.strategyName
    (fun a => backtest.runStrategy a.strategyName a.parameters) allocations

def weights : List (String × α) :=
  dictOf StrategyAllocation.strategyName StrategyAllocation.weight allocations

/-- The weighted returns of the items of the dictionary. -/
def portfolioReturns (t : ℕ) : α :=
  ((strategyReturns backtest allocations).map fun item =>
    ((weights allocations).lookup item.1).getD 0 * item.2 t).sum

def strategyResult (a : StrategyAllocation π α) : StrategyResult α :=
  let metrics := ((strategyMetrics backtest allocations).lookup a.strategyName).getD
    (backtest.runStrategy a.strategyName a.parameters)
  { strategyName := a.strategyName
    weight := a.weight
    result := metrics
    returnContribution := a.weight * metrics.cumulativeReturn
    riskContribution := a.weight * metrics.volatility }

/-- A row for each item of the dictionary. -/
def corrMatrix : List (List α) :=
  (strategyReturns backtest allocations).map fun x =>
    (strategyReturns backtest allocations).map fun y =>
      corr backtest.sqrt (seriesOf backtest.bars x.2) (seriesOf backtest.bars y.2)

/-- An entry of the matrix laid over one of `length` rows: of its own size it is that entry,
of size one the only one; another size does not fit. -/
def broadcast (matrix : List (List α)) (length : ℕ) : Except RunException (ℕ → ℕ → α) :=
  if matrix.length = length then .ok fun i j => ((matrix[i]?).getD [])[j]?.getD 0
  else if matrix.length = 1 then .ok fun _ _ => ((matrix[0]?).getD [])[0]?.getD 0
  else .error (.broadcastError length matrix.length)

def calcDiversificationRatio : Except RunException α :=
  let weights := allocations.map StrategyAllocation.weight
  let vols := allocations.map fun a =>
    std backtest.sqrt (seriesOf backtest.bars
      (((strategyReturns backtest allocations).lookup a.strategyName).getD 0))
  let weightedVolSum := (List.zipWith (· * ·) weights vols).sum
  let rows := (weights.zip vols).zipIdx
  (broadcast (corrMatrix backtest allocations) allocations.length).map fun entry =>
    let portVariance := (rows.map fun x =>
      (rows.map fun y => x.1.1 * (x.1.2 * y.1.2 * entry x.2 y.2) * y.1.1).sum).sum
    let portVol := backtest.sqrt (max portVariance 0)
    if portVol > 1 / 10 ^ (12 : ℕ) then weightedVolSum / portVol else 1

def weightSum : α := (allocations.map StrategyAllocation.weight).sum

def run [FloorRing α] : Except RunException (PortfolioBacktestResult α) :=
  if allocations.isEmpty then
    .error (.valueError "At least one strategy allocation is required")
  else if |weightSum allocations - 1| > 1 / 100 then
    .error (.valueError ("Allocation weights must sum to 1.0, got " ++
      fixedText roundHalfEven 4 (weightSum allocations)))
  else
    (calcDiversificationRatio backtest allocations).map fun divRatio =>
      { portfolioResult :=
          computePortfolioMetrics backtest (portfolioReturns backtest allocations)
        strategyResults := allocations.map (strategyResult backtest allocations)
        correlationMatrix := (corrMatrix backtest allocations).flatten
        numStrategies := allocations.length
        diversificationRatio := divRatio }

end

/-! ### What the dictionaries keep -/

/-- The allocations that a later one of their name replaces. -/
def shadowed (allocations : List (StrategyAllocation π α)) : List (StrategyAllocation π α) :=
  shadowedBy StrategyAllocation.strategyName allocations

def Distinct (allocations : List (StrategyAllocation π α)) : Prop :=
  (allocations.map StrategyAllocation.strategyName).Nodup

def AllSame (allocations : List (StrategyAllocation π α)) : Prop :=
  ∀ a ∈ allocations, ∀ b ∈ allocations, a.strategyName = b.strategyName

/-- What `run` lets pass. -/
def Accepted (allocations : List (StrategyAllocation π α)) : Prop :=
  allocations ≠ [] ∧ |weightSum allocations - 1| ≤ 1 / 100

section
variable (backtest : Backtest π α) (allocations : List (StrategyAllocation π α))

/-- The weighted returns of all allocations. -/
def weightedReturns (t : ℕ) : α := (allocations.map fun a => a.weight * backtest.returns a t).sum

omit [LinearOrder α] in
theorem sum_eq_last_add_shadowed (f : StrategyAllocation π α → α) :
    (allocations.map f).sum =
      ((lastBy StrategyAllocation.strategyName allocations).map f).sum +
        ((shadowed allocations).map f).sum := by
  have hperm := (perm_lastBy_append_shadowedBy StrategyAllocation.strategyName allocations).map f
  rw [← hperm.sum_eq, List.map_append, List.sum_append, shadowed]

omit [LinearOrder α] in
theorem portfolioReturns_eq_last (t : ℕ) :
    portfolioReturns backtest allocations t =
      ((lastBy StrategyAllocation.strategyName allocations).map fun a =>
        a.weight * backtest.returns a t).sum := by
  have hperm := dictOf_perm StrategyAllocation.strategyName backtest.returns allocations
  rw [portfolioReturns, strategyReturns, (hperm.map _).sum_eq, List.map_map]
  congr 1
  apply List.map_congr_left
  intro a ha
  simp only [Function.comp_apply, weights,
    lookup_dictOf StrategyAllocation.strategyName StrategyAllocation.weight ha, Option.getD_some]

omit [LinearOrder α] in
theorem weightedReturns_eq (t : ℕ) :
    weightedReturns backtest allocations t = portfolioReturns backtest allocations t +
      ((shadowed allocations).map fun a => a.weight * backtest.returns a t).sum := by
  rw [portfolioReturns_eq_last, weightedReturns, sum_eq_last_add_shadowed]

omit [LinearOrder α] in
theorem length_corrMatrix :
    (corrMatrix backtest allocations).length = (strategyReturns backtest allocations).length :=
  List.length_map _

end

section
variable [FloorRing α]

theorem run_of_accepted (backtest : Backtest π α) {allocations : List (StrategyAllocation π α)}
    (h : Accepted allocations) :
    run backtest allocations =
      (calcDiversificationRatio backtest allocations).map fun divRatio =>
        { portfolioResult :=
            computePortfolioMetrics backtest (portfolioReturns backtest allocations)
          strategyResults := allocations.map (strategyResult backtest allocations)
          correlationMatrix := (corrMatrix backtest allocations).flatten
          numStrategies := allocations.length
          diversificationRatio := divRatio } := by
  obtain ⟨hne, hsum⟩ := h
  have hempty : ¬ allocations.isEmpty = true := by
    rw [List.isEmpty_iff]
    exact hne
  rw [run, if_neg hempty, if_neg hsum.not_gt]

theorem portfolioResult_of_run (backtest : Backtest π α)
    {allocations : List (StrategyAllocation π α)} (h : Accepted allocations)
    {result : PortfolioBacktestResult α} (hrun : run backtest allocations = .ok result) :
    result.portfolioResult =
      computePortfolioMetrics backtest (portfolioReturns backtest allocations) := by
  rw [run_of_accepted backtest h] at hrun
  cases hratio : calcDiversificationRatio backtest allocations with
  | error e => simp [hratio, Except.map] at hrun
  | ok divRatio =>
    rw [hratio, Except.map, Except.ok.injEq] at hrun
    rw [← hrun]

/-- `run` reports on accepted allocations if the matrix of the dictionary can be laid over one
of the allocations. -/
theorem run_eq_ok_iff (backtest : Backtest π α) {allocations : List (StrategyAllocation π α)}
    (h : Accepted allocations) :
    (∃ result, run backtest allocations = .ok result) ↔
      Distinct allocations ∨ AllSame allocations := by
  have hlength := length_dictOf_eq_iff StrategyAllocation.strategyName backtest.returns allocations
  have hone := length_dictOf_eq_one_iff StrategyAllocation.strategyName backtest.returns h.1
  -- the matrix has a row for each item of the dictionary
  rw [run_of_accepted backtest h, Distinct, ← hlength, AllSame, ← hone,
    calcDiversificationRatio, broadcast, length_corrMatrix, strategyReturns]
  split_ifs with hfull hsingle
  · exact iff_of_true ⟨_, rfl⟩ (Or.inl hfull)
  · exact iff_of_true ⟨_, rfl⟩ (Or.inr hsingle)
  · apply iff_of_false
    · rintro ⟨result, hrun⟩
      cases hrun
    · exact not_or.mpr ⟨hfull, hsingle⟩

end

/-! ### Bar by bar -/

omit [Field α] [LinearOrder α] in
theorem seriesOf_congr {bars : ℕ} {r r' : ℕ → α} (h : ∀ t < bars, r t = r' t) :
    seriesOf bars r = seriesOf bars r' :=
  List.map_congr_left fun t ht => h t (List.mem_range.mp ht)

/-- The report is made of the weighted returns of all allocations, at every bar. -/
structure ContributesOnce [FloorRing α] (backtest : Backtest π α)
    (allocations : List (StrategyAllocation π α)) : Prop where
  bar : ∀ t < backtest.bars,
    portfolioReturns backtest allocations t = weightedReturns backtest allocations t
  reported : ∃ result, run backtest allocations = .ok result ∧
    result.portfolioResult = computePortfolioMetrics backtest (weightedReturns backtest allocations)

theorem contributesOnce_iff [FloorRing α] (backtest : Backtest π α)
    {allocations : List (StrategyAllocation π α)} (h : Accepted allocations) :
    ContributesOnce backtest allocations ↔
      Distinct allocations ∨ AllSame allocations ∧ ∀ t < backtest.bars,
        ((shadowed allocations).map fun a => a.weight * backtest.returns a t).sum = 0 := by
  have hbar (t : ℕ) : portfolioReturns backtest allocations t =
      weightedReturns backtest allocations t ↔
      ((shadowed allocations).map fun a => a.weight * backtest.returns a t).sum = 0 := by
    rw [weightedReturns_eq]
    exact left_eq_add
  constructor
  · rintro ⟨hbars, result, hrun, -⟩
    refine ((run_eq_ok_iff backtest h).mp ⟨result, hrun⟩).imp id fun hsame => ⟨hsame, ?_⟩
    exact fun t ht => (hbar t).mp (hbars t ht)
  · intro hcases
    have hshadowed (t : ℕ) (ht : t < backtest.bars) :
        ((shadowed allocations).map fun a => a.weight * backtest.returns a t).sum = 0 := by
      rcases hcases with hdistinct | ⟨-, hcancel⟩
      · have hnil : shadowed allocations = [] := (shadowedBy_eq_nil_iff _ _).mpr hdistinct
        rw [hnil, List.map_nil, List.sum_nil]
      · exact hcancel t ht
    -- the report sees the returns only up to the last bar
    have hbars (t : ℕ) (ht : t < backtest.bars) := (hbar t).mpr (hshadowed t ht)
    obtain ⟨result, hrun⟩ := (run_eq_ok_iff backtest h).mpr (hcases.imp id And.left)
    refine ⟨hbars, result, hrun, ?_⟩
    rw [portfolioResult_of_run backtest h hrun, computePortfolioMetrics, computePortfolioMetrics,
      totalReturn, totalReturn, seriesOf_congr hbars]

/-! ### Over all bars -/

/-- The reported return is the sum of the weighted returns of the allocations over all bars. -/
def SumsReturns [FloorRing α] (backtest : Backtest π α)
    (allocations : List (StrategyAllocation π α)) : Prop :=
  ∃ result, run backtest allocations = .ok result ∧
    result.portfolioResult.cumulativeReturn =
      (allocations.map fun a => a.weight * totalReturn backtest.bars (backtest.returns a)).sum

/-- One allocation has all the weight. -/
def SoleWeight (allocations : List (StrategyAllocation π α)) : Prop :=
  ∃ a rest, allocations ~ a :: rest ∧ a.weight = 1 ∧ ∀ b ∈ rest, b.weight = 0

omit [LinearOrder α] in
theorem totalReturn_eq_prod (bars : ℕ) (r : ℕ → α) :
    totalReturn bars r = ∏ t ∈ Finset.range bars, (1 + r t) - 1 := by
  rw [totalReturn, seriesOf, List.map_map, ← List.toFinset_range,
    List.prod_toFinset _ List.nodup_range]
  rfl

omit [LinearOrder α] in
/-- Bars without a return do not count. -/
theorem totalReturn_eq_of_zero {k bars : ℕ} (hk : k ≤ bars) {r : ℕ → α}
    (h : ∀ t, k ≤ t → r t = 0) : totalReturn bars r = totalReturn k r := by
  have hsub : Finset.range k ⊆ Finset.range bars := Finset.range_subset_range.mpr hk
  have hone (t : ℕ) (_ : t ∈ Finset.range bars) (ht : t ∉ Finset.range k) : 1 + r t = 1 := by
    rw [h t (not_lt.mp fun hlt => ht (Finset.mem_range.mpr hlt)), add_zero]
  rw [totalReturn_eq_prod, totalReturn_eq_prod, Finset.prod_subset hsub hone]

omit [LinearOrder α] in
theorem totalReturn_one (r : ℕ → α) : totalReturn 1 r = r 0 := by
  rw [totalReturn_eq_prod, Finset.prod_range_one, add_sub_cancel_left]

omit [LinearOrder α] in
theorem totalReturn_two (r : ℕ → α) : totalReturn 2 r = r 0 + r 1 + r 0 * r 1 := by
  rw [totalReturn_eq_prod, Finset.prod_range_succ, Finset.prod_range_one]
  ring

theorem sumsReturns_iff [FloorRing α] (backtest : Backtest π α)
    {allocations : List (StrategyAllocation π α)} (h : Accepted allocations) :
    SumsReturns backtest allocations ↔
      (Distinct allocations ∨ AllSame allocations) ∧
        totalReturn backtest.bars (portfolioReturns backtest allocations) =
          (allocations.map fun a =>
            a.weight * totalReturn backtest.bars (backtest.returns a)).sum := by
  rw [← run_eq_ok_iff backtest h]
  constructor
  · rintro ⟨result, hrun, hsum⟩
    rw [portfolioResult_of_run backtest h hrun] at hsum
    exact ⟨⟨result, hrun⟩, hsum⟩
  · rintro ⟨⟨result, hrun⟩, hsum⟩
    refine ⟨result, hrun, ?_⟩
    rw [portfolioResult_of_run backtest h hrun]
    exact hsum

omit [LinearOrder α] in
theorem sum_mul_eq_zero {allocations : List (StrategyAllocation π α)}
    (h : ∀ a ∈ allocations, a.weight = 0) (f : StrategyAllocation π α → α) :
    (allocations.map fun a => a.weight * f a).sum = 0 := by
  apply List.sum_eq_zero
  intro x hx
  obtain ⟨a, ha, rfl⟩ := List.mem_map.mp hx
  rw [h a ha, zero_mul]

omit [LinearOrder α] in
theorem SoleWeight.exists_sum_eq {allocations : List (StrategyAllocation π α)}
    (h : SoleWeight allocations) :
    ∃ a, ∀ f : StrategyAllocation π α → α, (allocations.map fun a => a.weight * f a).sum = f a := by
  obtain ⟨a, rest, hperm, hone, hrest⟩ := h
  refine ⟨a, fun f => ?_⟩
  rw [(hperm.map _).sum_eq, List.map_cons, List.sum_cons, sum_mul_eq_zero hrest, hone, one_mul,
    add_zero]

/-- A backtest with given returns, and nothing else of interest. -/
def plainBacktest (bars : ℕ) (returns : StrategyAllocation π α → ℕ → α) : Backtest π α :=
  { bars
    returns
    runStrategy := fun _ _ => ⟨0, 0, 0, 0, 0, 0, 0, 0, 0, 0, 0, 0, 0⟩
    sqrt := fun x => x
    pow := fun x _ => x }

section
variable [IsStrictOrderedRing α]

omit [LinearOrder α] [IsStrictOrderedRing α] in
theorem portfolioReturns_eq_zero {bars t : ℕ} {returns : StrategyAllocation π α → ℕ → α}
    (allocations : List (StrategyAllocation π α)) (h : ∀ a, returns a t = 0) :
    portfolioReturns (plainBacktest bars returns) allocations t = 0 := by
  rw [portfolioReturns_eq_last]
  apply List.sum_eq_zero
  intro x hx
  obtain ⟨a, -, rfl⟩ := List.mem_map.mp hx
  simp only [plainBacktest, h a, mul_zero]

/-- The returns at the first bar that are the weights themselves. -/
theorem weight_eq_zero_of_sums {bars : ℕ} (hbars : 1 ≤ bars)
    {allocations : List (StrategyAllocation π α)}
    (h : ∀ returns : StrategyAllocation π α → ℕ → α,
      totalReturn bars (portfolioReturns (plainBacktest bars returns) allocations) =
        (allocations.map fun a => a.weight * totalReturn bars (returns a)).sum) :
    ∀ a ∈ shadowed allocations, a.weight = 0 := by
  have hfirst := h fun a t => if t = 0 then a.weight else 0
  have hown (a : StrategyAllocation π α) :
      totalReturn bars (fun t => if t = 0 then a.weight else 0) = a.weight := by
    rw [totalReturn_eq_of_zero hbars, totalReturn_one]
    · rw [if_pos rfl]
    · intro t ht
      rw [if_neg (by omega)]
  simp only [hown] at hfirst
  rw [totalReturn_eq_of_zero hbars, totalReturn_one, portfolioReturns_eq_last,
    sum_eq_last_add_shadowed allocations fun a => a.weight * a.weight] at hfirst
  · simp only [plainBacktest, if_true, left_eq_add] at hfirst
    -- the squares of the weights that are shadowed sum to zero
    have hsquares (x : α) (hx : x ∈ (shadowed allocations).map fun a => a.weight * a.weight) :
        0 ≤ x := by
      obtain ⟨a, -, rfl⟩ := List.mem_map.mp hx
      exact mul_self_nonneg _
    intro a ha
    have hzero := List.all_zero_of_le_zero_le_of_sum_eq_zero hsquares hfirst
      (List.mem_map_of_mem ha)
    exact mul_self_eq_zero.mp hzero
  · intro t ht
    apply portfolioReturns_eq_zero
    intro a
    rw [if_neg (by omega)]

/-- The same at two bars, with nothing shadowed: sums have to be multiplicative. -/
theorem sum_mul_sum_of_sums {bars : ℕ} (hbars : 2 ≤ bars)
    {allocations : List (StrategyAllocation π α)}
    (hshadowed : ∀ a ∈ shadowed allocations, a.weight = 0)
    (h : ∀ returns : StrategyAllocation π α → ℕ → α,
      totalReturn bars (portfolioReturns (plainBacktest bars returns) allocations) =
        (allocations.map fun a => a.weight * totalReturn bars (returns a)).sum)
    (f g : StrategyAllocation π α → α) :
    ((lastBy StrategyAllocation.strategyName allocations).map fun a => a.weight * f a).sum *
        ((lastBy StrategyAllocation.strategyName allocations).map fun a => a.weight * g a).sum =
      ((lastBy StrategyAllocation.strategyName allocations).map fun a =>
        a.weight * (f a * g a)).sum := by
  have htwo := h fun a t => if t = 0 then f a else if t = 1 then g a else 0
  have hown (a : StrategyAllocation π α) :
      totalReturn bars (fun t => if t = 0 then f a else if t = 1 then g a else 0) =
        f a + g a + f a * g a := by
    rw [totalReturn_eq_of_zero hbars, totalReturn_two]
    · rw [if_pos rfl, if_neg one_ne_zero, if_pos rfl]
    · intro t ht
      rw [if_neg (by omega), if_neg (by omega)]
  simp only [hown] at htwo
  rw [totalReturn_eq_of_zero hbars, totalReturn_two, portfolioReturns_eq_last,
    portfolioReturns_eq_last,
    sum_eq_last_add_shadowed allocations fun a => a.weight * (f a + g a + f a * g a),
    sum_mul_eq_zero hshadowed, add_zero] at htwo
  · -- the sums of the two bars cancel and leave the products
    simp only [plainBacktest, if_true, if_neg one_ne_zero, mul_add, List.sum_map_add] at htwo
    linarith only [htwo]
  · intro t ht
    apply portfolioReturns_eq_zero
    intro a
    rw [if_neg (by omega), if_neg (by omega)]

open scoped Classical in
omit [IsStrictOrderedRing α] in
theorem sum_mul_indicator {l : List (StrategyAllocation π α)} (hl : l.Nodup)
    {v : StrategyAllocation π α} (hv : v ∈ l) :
    (l.map fun a => a.weight * if a = v then 1 else 0).sum = v.weight := by
  rw [← List.sum_toFinset _ hl, Finset.sum_eq_single v]
  · rw [if_pos rfl, mul_one]
  · intro b _ hne
    rw [if_neg hne, mul_zero]
  · intro hnotMem
    exact absurd (List.mem_toFinset.mpr hv) hnotMem

/-- Weights that make up about one are not all zero. -/
theorem exists_weight_ne_zero {allocations : List (StrategyAllocation π α)}
    (hsum : |weightSum allocations - 1| ≤ 1 / 100)
    (hshadowed : ∀ a ∈ shadowed allocations, a.weight = 0) :
    ∃ v ∈ lastBy StrategyAllocation.strategyName allocations, v.weight ≠ 0 := by
  by_contra hall
  push Not at hall
  have hzero (a : StrategyAllocation π α) (ha : a ∈ allocations) : a.weight = 0 := by
    rw [← (perm_lastBy_append_shadowedBy StrategyAllocation.strategyName allocations).mem_iff,
      List.mem_append] at ha
    exact ha.elim (hall a) (hshadowed a)
  have hweights : weightSum allocations = 0 := by
    apply List.sum_eq_zero
    intro x hx
    obtain ⟨a, ha, rfl⟩ := List.mem_map.mp hx
    exact hzero a ha
  rw [hweights] at hsum
  norm_num at hsum

omit [LinearOrder α] [IsStrictOrderedRing α] in
theorem soleWeight_of_mem {allocations : List (StrategyAllocation π α)}
    {v : StrategyAllocation π α}
    (hv : v ∈ lastBy StrategyAllocation.strategyName allocations) (hone : v.weight = 1)
    (hother : ∀ u ∈ lastBy StrategyAllocation.strategyName allocations, u ≠ v → u.weight = 0)
    (hshadowed : ∀ a ∈ shadowed allocations, a.weight = 0) : SoleWeight allocations := by
  have hnodup : (lastBy StrategyAllocation.strategyName allocations).Nodup :=
    List.Nodup.of_map _ (nodup_map_lastBy _ _)
  have hperm := perm_lastBy_append_shadowedBy StrategyAllocation.strategyName allocations
  obtain ⟨before, after, hlast⟩ := List.append_of_mem hv
  rw [hlast] at hnodup hother hperm
  refine ⟨v, before ++ after ++ shadowed allocations, ?_, hone, ?_⟩
  · exact hperm.symm.trans (List.perm_middle.append_right _)
  · intro b hb
    rcases List.mem_append.mp hb with hrest | hb
    · apply hother b
      · exact List.perm_middle.mem_iff.mpr (List.mem_cons_of_mem _ hrest)
      · rintro rfl
        exact (List.nodup_middle.mp hnodup).notMem hrest
    · exact hshadowed b hb

open scoped Classical in
/-- Multiplicative sums with weights that make up about one have one weight. -/
theorem soleWeight_of_sum_mul_sum {allocations : List (StrategyAllocation π α)}
    (hsum : |weightSum allocations - 1| ≤ 1 / 100)
    (hshadowed : ∀ a ∈ shadowed allocations, a.weight = 0)
    (h : ∀ f g : StrategyAllocation π α → α,
      ((lastBy StrategyAllocation.strategyName allocations).map fun a => a.weight * f a).sum *
          ((lastBy StrategyAllocation.strategyName allocations).map fun a => a.weight * g a).sum =
        ((lastBy StrategyAllocation.strategyName allocations).map fun a =>
          a.weight * (f a * g a)).sum) :
    SoleWeight allocations := by
  have hnodup : (lastBy StrategyAllocation.strategyName allocations).Nodup :=
    List.Nodup.of_map _ (nodup_map_lastBy _ _)
  obtain ⟨v, hv, hweight⟩ := exists_weight_ne_zero hsum hshadowed
  -- the weight that picks its own allocation twice is idempotent
  have hone : v.weight = 1 := by
    have hsquare := h (fun a => if a = v then 1 else 0) (fun a => if a = v then 1 else 0)
    have hidem (a : StrategyAllocation π α) :
        ((if a = v then 1 else 0) * if a = v then 1 else 0 : α) = if a = v then 1 else 0 := by
      split_ifs <;> simp
    simp only [hidem] at hsquare
    rw [sum_mul_indicator hnodup hv] at hsquare
    exact (mul_eq_left₀ hweight).mp hsquare
  refine soleWeight_of_mem hv hone ?_ hshadowed
  intro u hu hne
  have hproduct := h (fun a => if a = u then 1 else 0) (fun a => if a = v then 1 else 0)
  have hdisjoint (a : StrategyAllocation π α) :
      ((if a = u then 1 else 0) * if a = v then 1 else 0 : α) = 0 := by
    by_cases ha : a = u
    · have hav : a ≠ v := by
        rw [ha]
        exact hne
      rw [if_neg hav, mul_zero]
    · rw [if_neg ha, zero_mul]
  simp only [hdisjoint, mul_zero, List.sum_map_zero] at hproduct
  rw [sum_mul_indicator hnodup hu, sum_mul_indicator hnodup hv, hone, mul_one] at hproduct
  exact hproduct

/-- The sum over all bars, for every backtest: apart from data without bars nothing with a
weight may be shadowed, and there is one bar, or one weight. -/
theorem forall_sumsReturns_iff [FloorRing α] {allocations : List (StrategyAllocation π α)}
    (h : Accepted allocations) (bars : ℕ) :
    (∀ backtest : Backtest π α, backtest.bars = bars → SumsReturns backtest allocations) ↔
      (Distinct allocations ∨ AllSame allocations) ∧
        (bars = 0 ∨ (∀ a ∈ shadowed allocations, a.weight = 0) ∧
          (bars = 1 ∨ SoleWeight allocations)) := by
  constructor
  · intro hall
    -- backtests with returns of our choice
    have hsums (returns : StrategyAllocation π α → ℕ → α) :=
      (sumsReturns_iff (plainBacktest bars returns) h).mp (hall _ rfl)
    refine ⟨(hsums fun _ _ => 0).1, ?_⟩
    by_cases hzero : bars = 0
    · exact Or.inl hzero
    have hshadowed := weight_eq_zero_of_sums (Nat.one_le_iff_ne_zero.mpr hzero)
      fun returns => (hsums returns).2
    refine Or.inr ⟨hshadowed, ?_⟩
    by_cases hone : bars = 1
    · exact Or.inl hone
    · have htwo : 2 ≤ bars := by omega
      exact Or.inr (soleWeight_of_sum_mul_sum h.2 hshadowed
        (sum_mul_sum_of_sums htwo hshadowed fun returns => (hsums returns).2))
  · rintro ⟨hruns, hbars⟩ backtest rfl
    rw [sumsReturns_iff backtest h]
    refine ⟨hruns, ?_⟩
    rcases hbars with hzero | ⟨hshadowed, hbars⟩
    · simp [hzero, totalReturn, seriesOf]
    have hweighted (t : ℕ) : portfolioReturns backtest allocations t =
        weightedReturns backtest allocations t := by
      rw [weightedReturns_eq, sum_mul_eq_zero hshadowed, add_zero]
    rcases hbars with hone | hsole
    · rw [hone, totalReturn_one, hweighted]
      simp only [totalReturn_one, weightedReturns]
    · obtain ⟨a, ha⟩ := hsole.exists_sum_eq
      have hreturns : portfolioReturns backtest allocations = backtest.returns a := by
        funext t
        rw [hweighted, weightedReturns, ha]
      rw [hreturns, ha]

end

/-- Allocations with different names contribute once to each bar, and those with one name if
what the last replaces cancels; the return over all bars is their sum, whatever they
return, on one bar or of one weight. -/
theorem contributions_iff {π α : Type*} [Field α] [LinearOrder α] [IsStrictOrderedRing α]
    [FloorRing α] {allocations : List (StrategyAllocation π α)} (h : Accepted allocations) :
    (∀ backtest : Backtest π α, ContributesOnce backtest allocations ↔
      Distinct allocations ∨ AllSame allocations ∧ ∀ t < backtest.bars,
        ((shadowed allocations).map fun a => a.weight * backtest.returns a t).sum = 0) ∧
    ∀ bars : ℕ,
      (∀ backtest : Backtest π α, backtest.bars = bars → SumsReturns backtest allocations) ↔
        (Distinct allocations ∨ AllSame allocations) ∧
          (bars = 0 ∨ (∀ a ∈ shadowed allocations, a.weight = 0) ∧
            (bars = 1 ∨ SoleWeight allocations)) :=
  ⟨fun backtest => contributesOnce_iff backtest h, forall_sumsReturns_iff h⟩

/-- One strategy with a short and a long period. -/
def shortAndLong : List (StrategyAllocation ℕ ℚ) :=
  [⟨"SMA_EMA_CROSSOVER", 5, 1 / 2⟩, ⟨"SMA_EMA_CROSSOVER", 20, 1 / 2⟩]

/-- The short period buys at the first bar and loses at the second, the long one does not
trade. -/
def fallingBars : Backtest ℕ ℚ :=
  plainBacktest 2 fun a t =>
    if a.parameters = 5 then if t = 0 then -1 / 1000 else -1 / 10 else 0

theorem shortAndLong_contributions_iff :
    (∀ backtest : Backtest ℕ ℚ, ContributesOnce backtest shortAndLong ↔
      Distinct shortAndLong ∨ AllSame shortAndLong ∧ ∀ t < backtest.bars,
        ((shadowed shortAndLong).map fun a => a.weight * backtest.returns a t).sum = 0) ∧
    ∀ bars : ℕ,
      (∀ backtest : Backtest ℕ ℚ, backtest.bars = bars → SumsReturns backtest shortAndLong) ↔
        (Distinct shortAndLong ∨ AllSame shortAndLong) ∧
          (bars = 0 ∨ (∀ a ∈ shadowed shortAndLong, a.weight = 0) ∧
            (bars = 1 ∨ SoleWeight shortAndLong)) :=
  contributions_iff ⟨by decide, by decide +kernel⟩

/-- The report knows nothing of the loss of the short period. -/
theorem shortAndLong_not_contributesOnce :
    (run fallingBars shortAndLong).toOption.map (fun r => r.portfolioResult.cumulativeReturn) =
        some 0 ∧
      weightedReturns fallingBars shortAndLong 1 = -1 / 20 ∧
      (shortAndLong.map fun a => a.weight * totalReturn 2 (fallingBars.returns a)).sum =
        -1009 / 20000 ∧
      ¬ ContributesOnce fallingBars shortAndLong ∧ ¬ SumsReturns fallingBars shortAndLong := by
  have haccepted : Accepted shortAndLong := ⟨by decide, by decide +kernel⟩
  refine ⟨by decide +kernel, by decide +kernel, by decide +kernel, ?_, ?_⟩
  · intro h
    have hbar := h.bar 1 (by decide)
    revert hbar
    decide +kernel
  · rw [sumsReturns_iff _ haccepted]
    rintro ⟨-, hsum⟩
    revert hsum
    decide +kernel

end TradeStream.PortfolioBacktest
