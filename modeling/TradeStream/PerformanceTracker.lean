import TradeStream.RoundDecimal
import TradeStream.RunningMaximum

/-! `PerformanceTracker`: the metrics of a list of trades, in exact arithmetic. -/
namespace TradeStream.PerformanceTracker
open TradeStream.RoundDecimal TradeStream.RunningMaximum

structure Metrics where
  tradeCount : ℕ
  winCount : ℕ
  winRate : Option ℚ
  avgPnlPercent : Option ℚ
  totalPnl : Option ℚ
  sharpeRatio : Option ℚ
  maxDrawdown : Option ℚ

/-- The variables of the loop over the results. -/
structure Drawdown where
  cumulative : ℚ
  peak : ℚ
  maxDd : ℚ

def Drawdown.add (d : Drawdown) (pnl : ℚ) : Drawdown :=
  let cumulative := d.cumulative + pnl
  let peak := if d.peak < cumulative then cumulative else d.peak
  let dd := peak - cumulative
  { cumulative, peak, maxDd := if d.maxDd < dd then dd else d.maxDd }

def drawdownOf (pnls : List ℚ) : Drawdown := pnls.foldl Drawdown.add ⟨0, 0, 0⟩

def calculateMaxDrawdown (pnls : List ℚ) : Option ℚ :=
  if pnls = [] then none
  else
    let maxDd := (drawdownOf pnls).maxDd
    some (if 0 < maxDd then -maxDd else 0)

section
variable (sqrt : ℚ → ℚ)

def calculateSharpe (pnls : List ℚ) (riskFreeRate : ℚ) : Option ℚ :=
  if pnls.length < 2 then none
  else
    let meanRet := pnls.sum / pnls.length
    let excess := meanRet - riskFreeRate
    let variance : ℚ := (pnls.map fun p => (p - meanRet) ^ 2).sum / ((pnls.length : ℚ) - 1)
    let std := sqrt variance
    if std = 0 then none else some (excess / std * sqrt 252)

/-- Of each trade its `pnl_percent`, where it has one. -/
def calculateMetrics (trades : List (Option ℚ)) : Metrics :=
  let pnls := trades.reduceOption
  if pnls = [] then ⟨trades.length, 0, none, none, none, none, none⟩
  else
    let winCount := pnls.countP (0 < ·)
    { tradeCount := pnls.length
      winCount
      winRate := some (roundTo 4 (winCount / pnls.length))
      avgPnlPercent := some (roundTo 4 (pnls.sum / pnls.length))
      totalPnl := some (roundTo 4 pnls.sum)
      sharpeRatio := (calculateSharpe sqrt pnls 0).map (roundTo 4)
      maxDrawdown := (calculateMaxDrawdown pnls).map (roundTo 4) }

/-- The metrics have the drawdown of the results that are there, rounded. -/
theorem maxDrawdown_calculateMetrics (trades : List (Option ℚ)) :
    (calculateMetrics sqrt trades).maxDrawdown =
      (calculateMaxDrawdown trades.reduceOption).map (roundTo 4) := by
  rw [calculateMetrics]
  by_cases hnil : trades.reduceOption = []
  · rw [if_pos hnil, calculateMaxDrawdown, if_pos hnil]
    rfl
  · rw [if_neg hnil]

end

/-! ### The worst run of trades -/

/-- What the loop knows of the results so far. -/
structure Drawdown.Tracks (pnls : List ℚ) (d : Drawdown) : Prop where
  cumulative : d.cumulative = pnls.sum
  peak : IsGreatest (prefixSums pnls) d.peak
  maxDd : IsGreatest (runLosses pnls) d.maxDd

theorem Drawdown.Tracks.add {pnls : List ℚ} {d : Drawdown} (h : d.Tracks pnls) (pnl : ℚ) :
    (d.add pnl).Tracks (pnls ++ [pnl]) := by
  have hsum : d.cumulative + pnl = (pnls ++ [pnl]).sum := by
    rw [h.cumulative, List.sum_append, List.sum_singleton]
  have hpeak : IsGreatest (prefixSums (pnls ++ [pnl])) (d.add pnl).peak := by
    have hinsert := h.peak.insert (pnls ++ [pnl]).sum
    rw [← prefixSums_concat, ← hsum, max_comm, max_def_lt] at hinsert
    exact hinsert
  refine ⟨hsum, hpeak, ?_⟩
  -- the new losses are those that end with the new result
  have hdd := isGreatest_suffixLosses hpeak
  have hunion := hdd.union h.maxDd
  rw [← runLosses_concat, ← hsum, max_comm, max_def_lt] at hunion
  exact hunion

theorem tracks_drawdownOf (pnls : List ℚ) : (drawdownOf pnls).Tracks pnls := by
  induction pnls using List.reverseRecOn with
  | nil =>
    refine ⟨rfl, ⟨⟨[], List.prefix_rfl, rfl⟩, ?_⟩, ⟨[], List.infix_rfl, rfl⟩, ?_⟩
    · rintro y ⟨first, hfirst, rfl⟩
      rw [List.prefix_nil.mp hfirst]
      exact le_rfl
    · rintro loss ⟨run, hrun, rfl⟩
      rw [List.infix_nil.mp hrun]
      exact le_rfl
  | append_singleton pnls pnl ih =>
    rw [drawdownOf, List.foldl_append]
    exact ih.add pnl

theorem maxDd_nonneg (pnls : List ℚ) : 0 ≤ (drawdownOf pnls).maxDd :=
  (tracks_drawdownOf pnls).maxDd.2 ⟨[], List.nil_infix, rfl⟩

theorem calculateMaxDrawdown_of_ne_nil {pnls : List ℚ} (hne : pnls ≠ []) :
    calculateMaxDrawdown pnls = some (-(drawdownOf pnls).maxDd) := by
  rw [calculateMaxDrawdown, if_neg hne]
  dsimp only
  split_ifs with hpos
  · rfl
  · rw [le_antisymm (not_lt.mp hpos) (maxDd_nonneg pnls), neg_zero]

/-- The drawdown is what the worst run of consecutive trades makes, or zero if none loses, and
more trades make it no better. -/
structure WorstRun (pnls : List ℚ) : Prop where
  worst : ∃ loss, IsGreatest (runLosses pnls) loss ∧ calculateMaxDrawdown pnls = some (-loss)
  append : ∀ more, ∃ d d', calculateMaxDrawdown pnls = some d ∧
    calculateMaxDrawdown (pnls ++ more) = some d' ∧ d' ≤ d

/-- There is a drawdown, of the worst run, unless there are no trades. -/
theorem worstRun_iff (pnls : List ℚ) : WorstRun pnls ↔ pnls ≠ [] := by
  constructor
  · rintro ⟨⟨loss, -, hloss⟩, -⟩ rfl
    cases hloss
  · intro hne
    refine ⟨⟨_, (tracks_drawdownOf pnls).maxDd, calculateMaxDrawdown_of_ne_nil hne⟩, ?_⟩
    intro more
    have hmore : pnls ++ more ≠ [] := List.append_ne_nil_of_left_ne_nil hne more
    refine ⟨_, _, calculateMaxDrawdown_of_ne_nil hne, calculateMaxDrawdown_of_ne_nil hmore, ?_⟩
    have hmem := runLosses_append_subset pnls more (tracks_drawdownOf pnls).maxDd.1
    exact neg_le_neg ((tracks_drawdownOf (pnls ++ more)).maxDd.2 hmem)

/-- A list without trades has no drawdown. -/
theorem nil_not_worstRun : ¬ WorstRun [] := by
  rintro ⟨⟨loss, -, hloss⟩, -⟩
  cases hloss

/-- It lost from the start, and again after a gain. -/
example : calculateMaxDrawdown [-2, 3, -1, -3] = some (-4) := by decide +kernel

end TradeStream.PerformanceTracker
