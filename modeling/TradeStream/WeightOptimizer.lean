import TradeStream.PerformanceTracker
import TradeStream.Succession

/-! `WeightOptimizer` of the learning engine: the weights of the strategies, in exact
arithmetic, and the table `strategy_weights` in which they succeed one another. -/
namespace TradeStream.WeightOptimizer
open TradeStream.RoundDecimal TradeStream.PerformanceTracker TradeStream.Succession

structure Config where
  minWeight : ℚ
  maxWeight : ℚ
  smoothingFactor : ℚ
  sharpeWeight : ℚ
  winRateWeight : ℚ
  pnlWeight : ℚ
  minTradesRequired : ℕ
  defaultWeight : ℚ

/-- `DEFAULT_CONFIG`. -/
def defaultConfig : Config where
  minWeight := 5 / 100
  maxWeight := 3
  smoothingFactor := 3 / 10
  sharpeWeight := 4 / 10
  winRateWeight := 3 / 10
  pnlWeight := 3 / 10
  minTradesRequired := 5
  defaultWeight := 1

/-- What `track_strategy_performance` gives of a strategy. -/
structure Performance where
  strategySpecId : String
  metrics : Metrics

structure Scored where
  strategySpecId : String
  score : ℚ
  hasData : Bool

structure Target where
  strategySpecId : String
  weight : ℚ
  reason : String

/-- The columns by which a weight expires. -/
structure WeightKey where
  strategySpecId : String
  instrument : String
  regimeType : String
  deriving DecidableEq

/-- The other columns of `strategy_weights`, but for the end. -/
structure Weight where
  weight : ℚ
  previousWeight : Option ℚ
  reason : String
  effectiveFrom : ℤ

/-- A row, with `effective_until`. -/
abbrev WeightRow := Entry WeightKey Weight ℤ

variable (cfg : Config)

def scoreStrategy (perf : Metrics) : ℚ :=
  let sharpe := perf.sharpeRatio.getD 0
  let winRate := perf.winRate.getD 0
  let avgPnl := perf.avgPnlPercent.getD 0
  let sharpeNorm := max 0 (min 1 ((sharpe + 2) / 5))
  let wrNorm := max 0 (min 1 winRate)
  let pnlNorm := max 0 (min 1 ((avgPnl + 5) / 10))
  cfg.sharpeWeight * sharpeNorm + cfg.winRateWeight * wrNorm + cfg.pnlWeight * pnlNorm

def score (perf : Performance) : Scored :=
  if perf.metrics.tradeCount < cfg.minTradesRequired then ⟨perf.strategySpecId, 0, false⟩
  else ⟨perf.strategySpecId, scoreStrategy cfg perf.metrics, true⟩

def clampWeight (x : ℚ) : ℚ := max cfg.minWeight (min cfg.maxWeight x)

def rawWeight (avgScore score : ℚ) : ℚ :=
  if 0 < avgScore then score / avgScore else cfg.defaultWeight

def normalizeToWeights (scored : List Scored) : List Target :=
  let hasData := scored.filter (·.hasData)
  let noData := scored.filter (!·.hasData)
  let avgScore := (hasData.map (·.score)).sum / hasData.length
  hasData.map (fun s =>
    let raw := rawWeight cfg avgScore s.score
    { strategySpecId := s.strategySpecId
      weight := roundTo 4 (clampWeight cfg raw)
      reason := "score=" ++ fixedText roundHalfEven 3 s.score ++
        ", raw_weight=" ++ fixedText roundHalfEven 3 raw }) ++
  noData.map fun s =>
    ⟨s.strategySpecId, cfg.defaultWeight, "insufficient trade data, using default weight"⟩

/-- The active weights, each with its strategy. -/
def getCurrentWeights (rows : List WeightRow) (instrument regimeType : String) :
    List (String × ℚ) :=
  (rows.filter fun e => e.key.instrument = instrument ∧ e.key.regimeType = regimeType ∧
    e.ended.isNone).map fun e => (e.key.strategySpecId, e.value.weight)

/-- `current_map.get(sid, default_weight)`: of two weights the map has the later. -/
def previousWeight (rows : List WeightRow) (key : WeightKey) : ℚ :=
  let current := getCurrentWeights rows key.instrument key.regimeType
  ((current.filter (·.1 = key.strategySpecId)).getLast?.map (·.2)).getD cfg.defaultWeight

def smoothedWeight (prev target : ℚ) : ℚ :=
  let alpha := cfg.smoothingFactor
  roundTo 4 (clampWeight cfg (alpha * target + (1 - alpha) * prev))

/-- What is stored of a target, smoothed. -/
def smooth (prev : ℚ) (target : Target) (now : ℤ) : Weight :=
  ⟨smoothedWeight cfg prev target.weight, some prev, target.reason, now⟩

/-- `_store_weight`: the active weight expires when the new one begins. -/
def storeWeight (rows : List WeightRow) (key : WeightKey) (w : Weight) : List WeightRow :=
  put rows key w w.effectiveFrom

/-- A call of `optimize_weights`. The main loop passes one performance for each strategy of a
dict; `now` is when the weight of a strategy is stored. -/
structure Call where
  performances : List Performance
  regimeType : String
  instrument : String
  now : String → ℤ
  distinct : (performances.map (·.strategySpecId)).Nodup

def Call.key (call : Call) (strategySpecId : String) : WeightKey :=
  ⟨strategySpecId, call.instrument, call.regimeType⟩

def Call.targets (call : Call) : List Target :=
  normalizeToWeights cfg (call.performances.map (score cfg))

/-- The weights of a call, in their order. -/
def Call.weights (rows : List WeightRow) (call : Call) : List (WeightKey × Weight) :=
  (call.targets cfg).map fun target =>
    let key := call.key target.strategySpecId
    (key, smooth cfg (previousWeight cfg rows key) target (call.now target.strategySpecId))

/-- `optimize_weights` with a connection. -/
def optimizeWeights (rows : List WeightRow) (call : Call) : List WeightRow :=
  (call.weights cfg rows).foldl (fun rows w => storeWeight rows w.1 w.2) rows

def optimizeAll (calls : List Call) : List WeightRow := calls.foldl (optimizeWeights cfg) []

/-! ### The weights of one strategy -/

/-- The weights that targets give one after the other. -/
def trajectory : ℚ → List (Target × ℤ) → List Weight
  | _, [] => []
  | prev, t :: rest =>
    let w := smooth cfg prev t.1 t.2
    w :: trajectory w.weight rest

def lastWeight (prev : ℚ) (ws : List Weight) : ℚ := (ws.getLast?.map (·.weight)).getD prev

def Call.targetsOf (call : Call) (key : WeightKey) : List (Target × ℤ) :=
  if call.key key.strategySpecId = key then
    ((call.targets cfg).filter (·.strategySpecId = key.strategySpecId)).map fun target =>
      (target, call.now target.strategySpecId)
  else []

def targetsOf (calls : List Call) (key : WeightKey) : List (Target × ℤ) :=
  calls.flatMap fun call => call.targetsOf cfg key

def entered (key : WeightKey) (w : Weight) : Event WeightKey Weight ℤ :=
  .entered key w w.effectiveFrom

theorem lastWeight_trajectory_cons (prev : ℚ) (t : Target × ℤ) (rest : List (Target × ℤ)) :
    lastWeight prev (trajectory cfg prev (t :: rest)) =
      lastWeight (smoothedWeight cfg prev t.1.weight)
        (trajectory cfg (smoothedWeight cfg prev t.1.weight) rest) := by
  rw [trajectory, lastWeight, lastWeight, List.getLast?_cons]
  change ((some ((trajectory cfg (smoothedWeight cfg prev t.1.weight) rest).getLast?.getD
    (smooth cfg prev t.1 t.2))).map (·.weight)).getD prev = _
  cases (trajectory cfg (smoothedWeight cfg prev t.1.weight) rest).getLast? <;> rfl

theorem trajectory_append (prev : ℚ) (first more : List (Target × ℤ)) :
    trajectory cfg prev (first ++ more) = trajectory cfg prev first ++
      trajectory cfg (lastWeight prev (trajectory cfg prev first)) more := by
  induction first generalizing prev with
  | nil => rfl
  | cons t rest ih =>
    rw [List.cons_append, trajectory, ih, lastWeight_trajectory_cons, trajectory,
      List.cons_append]
    rfl

theorem strategySpecId_score (perf : Performance) :
    (score cfg perf).strategySpecId = perf.strategySpecId := by
  unfold score
  split_ifs <;> rfl

/-- A call has one target for each strategy. -/
theorem Call.nodup_targets (call : Call) :
    ((call.targets cfg).map (·.strategySpecId)).Nodup := by
  have hperm : ((call.targets cfg).map (·.strategySpecId)).Perm
      (call.performances.map (·.strategySpecId)) := by
    simp only [Call.targets, normalizeToWeights, List.map_append, List.map_map]
    have hids : call.performances.map (·.strategySpecId) =
        (call.performances.map (score cfg)).map (·.strategySpecId) := by
      simp only [List.map_map, Function.comp_def, strategySpecId_score]
    rw [hids]
    have hsplit := (List.filter_append_perm (·.hasData)
      (call.performances.map (score cfg))).map (·.strategySpecId)
    rw [List.map_append] at hsplit
    exact hsplit
  exact hperm.nodup_iff.mpr call.distinct

theorem Call.length_targetsOf_le (call : Call) (key : WeightKey) :
    (call.targetsOf cfg key).length ≤ 1 := by
  rw [Call.targetsOf]
  split_ifs
  · rw [List.length_map, ← List.countP_eq_length_filter]
    have hcount := List.nodup_iff_count_le_one.mp (call.nodup_targets cfg) key.strategySpecId
    rwa [List.count, List.countP_map] at hcount
  · exact Nat.zero_le 1

theorem Call.key_eq_iff (call : Call) (key : WeightKey) (strategySpecId : String) :
    call.key strategySpecId = key ↔
      call.key key.strategySpecId = key ∧ strategySpecId = key.strategySpecId := by
  constructor
  · rintro rfl
    exact ⟨rfl, rfl⟩
  · rintro ⟨hkey, rfl⟩
    exact hkey

theorem previousWeight_eq (rows : List WeightRow) (key : WeightKey) :
    previousWeight cfg rows key =
      ((inForce rows key).getLast?.map (·.value.weight)).getD cfg.defaultWeight := by
  have hrows : (getCurrentWeights rows key.instrument key.regimeType).filter
      (·.1 = key.strategySpecId) =
        (inForce rows key).map fun e => (e.key.strategySpecId, e.value.weight) := by
    rw [getCurrentWeights, List.filter_map, inForce, history, List.filter_filter,
      List.filter_filter]
    congr 1
    apply List.filter_congr
    intro e _
    obtain ⟨⟨id, instrument, regimeType⟩, w, ended⟩ := e
    obtain ⟨id', instrument', regimeType'⟩ := key
    simp only [Function.comp_apply, WeightKey.mk.injEq, Bool.decide_and, Bool.decide_coe]
    grind
  rw [previousWeight, hrows, List.getLast?_map, Option.map_map]
  rfl

/-- Of a strategy a call stores the smoothed target. -/
theorem Call.weights_filter (rows : List WeightRow) (call : Call) (key : WeightKey) :
    (call.weights cfg rows).filter (·.1 = key) =
      (trajectory cfg (previousWeight cfg rows key) (call.targetsOf cfg key)).map (key, ·) := by
  have hlen := call.length_targetsOf_le cfg key
  rw [Call.weights, List.filter_map]
  by_cases hkey : call.key key.strategySpecId = key
  · have hpred : ((fun w : WeightKey × Weight => decide (w.1 = key)) ∘ fun target : Target =>
        (call.key target.strategySpecId, smooth cfg (previousWeight cfg rows
          (call.key target.strategySpecId)) target (call.now target.strategySpecId))) =
        fun target => decide (target.strategySpecId = key.strategySpecId) := by
      funext target
      exact decide_eq_decide.mpr ((call.key_eq_iff key _).trans (and_iff_right hkey))
    rw [Call.targetsOf, if_pos hkey, List.length_map] at hlen
    rw [Call.targetsOf, if_pos hkey, hpred]
    -- there is at most one target to smooth
    rcases hts : (call.targets cfg).filter (·.strategySpecId = key.strategySpecId) with
      _ | ⟨target, _ | ⟨next, rest⟩⟩
    · rw [hts]
      rfl
    · have hmem := List.mem_filter.mp (hts ▸ List.mem_singleton_self target)
      have hid : call.key target.strategySpecId = key := by
        rw [of_decide_eq_true hmem.2, hkey]
      rw [hts, List.map_singleton, List.map_singleton, trajectory, trajectory, hid]
      rfl
    · rw [hts, List.length_cons, List.length_cons] at hlen
      omega
  · rw [Call.targetsOf, if_neg hkey, List.filter_eq_nil_iff.mpr]
    · rfl
    · intro target _ h
      exact hkey ((call.key_eq_iff key _).mp (of_decide_eq_true h)).1

theorem optimizeWeights_eq (rows : List WeightRow) (call : Call) :
    optimizeWeights cfg rows call =
      ((call.weights cfg rows).map fun w => entered w.1 w.2).foldl Event.apply rows := by
  rw [optimizeWeights, List.foldl_map]
  rfl

theorem Call.events_filter (rows : List WeightRow) (call : Call) (key : WeightKey) :
    ((call.weights cfg rows).map fun w => entered w.1 w.2).filter (·.key = key) =
      (trajectory cfg (previousWeight cfg rows key) (call.targetsOf cfg key)).map
        (entered key) := by
  rw [List.filter_map]
  have hkey : (fun e : Event WeightKey Weight ℤ => decide (e.key = key)) ∘
      (fun w : WeightKey × Weight => entered w.1 w.2) = fun w => decide (w.1 = key) := rfl
  rw [hkey, Call.weights_filter, List.map_map]
  rfl

theorem previousWeight_of_history {rows : List WeightRow} {key : WeightKey} {ws : List Weight}
    (h : history rows key = entriesOf (ws.map (entered key))) :
    previousWeight cfg rows key = lastWeight cfg.defaultWeight ws := by
  rw [previousWeight_eq, inForce_eq h, List.getLast?_map, lastWeight]
  cases ws.getLast? <;> rfl

/-- The rows of a strategy are the smoothed targets of its own calls. -/
theorem history_optimizeAll_eq (calls : List Call) (key : WeightKey) :
    history (optimizeAll cfg calls) key =
      entriesOf ((trajectory cfg cfg.defaultWeight (targetsOf cfg calls key)).map
        (entered key)) := by
  induction calls using List.reverseRecOn with
  | nil => rfl
  | append_singleton calls call ih =>
    have hrun : optimizeAll cfg (calls ++ [call]) =
        optimizeWeights cfg (optimizeAll cfg calls) call := by
      rw [optimizeAll, List.foldl_append]
      rfl
    have htargets : targetsOf cfg (calls ++ [call]) key =
        targetsOf cfg calls key ++ call.targetsOf cfg key := by
      rw [targetsOf, List.flatMap_append, List.flatMap_singleton]
      rfl
    rw [hrun, optimizeWeights_eq, history_foldl ih, Call.events_filter,
      previousWeight_of_history cfg ih, htargets, trajectory_append, List.map_append]

theorem smoothedWeight_mem (prev target : ℚ) :
    roundTo 4 cfg.minWeight ≤ smoothedWeight cfg prev target ∧
      smoothedWeight cfg prev target ≤ roundTo 4 (max cfg.minWeight cfg.maxWeight) := by
  constructor
  · exact roundTo_mono 4 (le_max_left _ _)
  · exact roundTo_mono 4 (max_le_max le_rfl (min_le_left _ _))

theorem weight_mem_of_mem_trajectory {prev : ℚ} {ts : List (Target × ℤ)} {w : Weight}
    (h : w ∈ trajectory cfg prev ts) :
    roundTo 4 cfg.minWeight ≤ w.weight ∧
      w.weight ≤ roundTo 4 (max cfg.minWeight cfg.maxWeight) := by
  induction ts generalizing prev with
  | nil => cases h
  | cons t rest ih =>
    rcases List.mem_cons.mp h with rfl | hmem
    · exact smoothedWeight_mem cfg prev t.1.weight
    · exact ih hmem

theorem filter_entriesOf_entered (key : WeightKey) (ws : List Weight) :
    (entriesOf (ws.map (entered key))).filter (·.ended.isNone) =
      (entriesOf (ws.map (entered key))).getLast?.toList := by
  induction ws using List.reverseRecOn with
  | nil => rfl
  | append_singleton ws w =>
    have hlast : [w].map (entered key) = [entered key w] := rfl
    rw [List.map_append, hlast, filter_entriesOf_concat, entriesOf_concat]
    simp [Event.added, entered]

/-- A strategy's rows of one instrument and regime: each row ends when the next begins, the
last alone is active, and no weight leaves the bounds. -/
structure Succeeds (rows : List WeightRow) (key : WeightKey) (ws : List Weight) : Prop where
  history : history rows key = entriesOf (ws.map (entered key))
  active : inForce rows key = (Succession.history rows key).getLast?.toList
  bounded : ∀ w ∈ ws, roundTo 4 cfg.minWeight ≤ w.weight ∧
    w.weight ≤ roundTo 4 (max cfg.minWeight cfg.maxWeight)

/-- In every run the rows of a strategy are what smoothing makes of the strategy's own targets,
whatever else the run stores. -/
theorem optimizeAll_succeeds (calls : List Call) (key : WeightKey) :
    Succeeds cfg (optimizeAll cfg calls) key
      (trajectory cfg cfg.defaultWeight (targetsOf cfg calls key)) := by
  have hhistory := history_optimizeAll_eq cfg calls key
  refine ⟨hhistory, ?_, fun w hw => weight_mem_of_mem_trajectory cfg hw⟩
  rw [inForce, hhistory, filter_entriesOf_entered]

/-! ### How fast the weight follows its targets -/

section
variable {cfg} {t δ : ℚ}

theorem abs_clampWeight_sub_le (hmin : cfg.minWeight ≤ t) (hmax : t ≤ cfg.maxWeight) (x : ℚ) :
    |clampWeight cfg x - t| ≤ |x - t| := by
  have hfix : clampWeight cfg t = t := by
    rw [clampWeight, min_eq_right hmax, max_eq_right hmin]
  calc |clampWeight cfg x - t| = |clampWeight cfg x - clampWeight cfg t| := by rw [hfix]
    _ ≤ |min cfg.maxWeight x - min cfg.maxWeight t| := by
        rw [clampWeight, clampWeight, max_comm cfg.minWeight, max_comm cfg.minWeight]
        exact abs_max_sub_max_le_abs _ _ _
    _ ≤ |x - t| := by
        have hmins := abs_min_sub_min_le_max cfg.maxWeight x cfg.maxWeight t
        rwa [sub_self, abs_zero, max_eq_right (abs_nonneg _)] at hmins

/-- Half a unit of the last decimal of a weight. -/
def roundingError : ℚ := 1 / 2 / 10 ^ 4

theorem abs_smoothedWeight_sub_le (hpos : 0 < cfg.smoothingFactor)
    (hle : cfg.smoothingFactor ≤ 1) (hmin : cfg.minWeight ≤ t) (hmax : t ≤ cfg.maxWeight)
    (prev : ℚ) {target : ℚ} (htarget : |target - t| ≤ δ) :
    |smoothedWeight cfg prev target - t| ≤ cfg.smoothingFactor * δ +
      (1 - cfg.smoothingFactor) * |prev - t| + roundingError := by
  set α := cfg.smoothingFactor
  have hround := abs_roundTo_sub_le 4 (clampWeight cfg (α * target + (1 - α) * prev))
  have hclamp := abs_clampWeight_sub_le hmin hmax (α * target + (1 - α) * prev)
  have hmix : |α * target + (1 - α) * prev - t| ≤ α * δ + (1 - α) * |prev - t| :=
    calc |α * target + (1 - α) * prev - t| = |α * (target - t) + (1 - α) * (prev - t)| := by
          congr 1
          ring
      _ ≤ |α * (target - t)| + |(1 - α) * (prev - t)| := abs_add_le _ _
      _ = α * |target - t| + (1 - α) * |prev - t| := by
          rw [abs_mul, abs_mul, abs_of_pos hpos, abs_of_nonneg (sub_nonneg.mpr hle)]
      _ ≤ α * δ + (1 - α) * |prev - t| := by
          gcongr
  calc |smoothedWeight cfg prev target - t| ≤
        |smoothedWeight cfg prev target - clampWeight cfg (α * target + (1 - α) * prev)| +
          |clampWeight cfg (α * target + (1 - α) * prev) - t| := abs_sub_le _ _ _
    _ ≤ α * δ + (1 - α) * |prev - t| + roundingError := by
        rw [smoothedWeight, roundingError]
        linarith only [hround, hclamp, hmix]

/-- What the weight stays away from targets within `δ`. -/
def tolerance (cfg : Config) (δ : ℚ) : ℚ := δ + roundingError / cfg.smoothingFactor

theorem abs_lastWeight_sub_le (hpos : 0 < cfg.smoothingFactor)
    (hle : cfg.smoothingFactor ≤ 1) (hmin : cfg.minWeight ≤ t) (hmax : t ≤ cfg.maxWeight)
    {ts : List (Target × ℤ)} (hts : ∀ target ∈ ts, |target.1.weight - t| ≤ δ) (prev : ℚ) :
    |lastWeight prev (trajectory cfg prev ts) - t| ≤ tolerance cfg δ +
      (1 - cfg.smoothingFactor) ^ ts.length * (|prev - t| - tolerance cfg δ) := by
  induction ts generalizing prev with
  | nil => simp [trajectory, lastWeight]
  | cons target rest ih =>
    set α := cfg.smoothingFactor
    set w := smoothedWeight cfg prev target.1.weight
    have hstep := abs_smoothedWeight_sub_le hpos hle hmin hmax prev
      (hts target List.mem_cons_self)
    have hrest := ih (fun next hnext => hts next (List.mem_cons_of_mem target hnext)) w
    -- the tolerance is what one step leaves of itself
    have hfix : α * δ + roundingError = α * tolerance cfg δ := by
      rw [tolerance, mul_add, mul_div_cancel₀ _ hpos.ne']
    have hdecay : |w - t| - tolerance cfg δ ≤
        (1 - α) * (|prev - t| - tolerance cfg δ) := by
      calc |w - t| - tolerance cfg δ ≤
            α * δ + (1 - α) * |prev - t| + roundingError - tolerance cfg δ :=
            sub_le_sub_right hstep _
        _ = (1 - α) * (|prev - t| - tolerance cfg δ) := by
            linear_combination hfix
    have hpow : 0 ≤ (1 - α) ^ rest.length := pow_nonneg (sub_nonneg.mpr hle) _
    calc |lastWeight prev (trajectory cfg prev (target :: rest)) - t| ≤
          tolerance cfg δ + (1 - α) ^ rest.length * (|w - t| - tolerance cfg δ) := by
          rw [lastWeight_trajectory_cons]
          exact hrest
      _ ≤ tolerance cfg δ +
          (1 - α) ^ rest.length * ((1 - α) * (|prev - t| - tolerance cfg δ)) := by
          gcongr
      _ = tolerance cfg δ +
          (1 - α) ^ (target :: rest).length * (|prev - t| - tolerance cfg δ) := by
          rw [List.length_cons, pow_succ]
          ring

end

/-- After every run a strategy whose targets were within `δ` of `t` has a weight as close, but
for the rounding and what the smoothing still keeps of the default weight. -/
theorem previousWeight_near {t δ : ℚ} (hpos : 0 < cfg.smoothingFactor)
    (hle : cfg.smoothingFactor ≤ 1) (hmin : cfg.minWeight ≤ t) (hmax : t ≤ cfg.maxWeight)
    (calls : List Call) (key : WeightKey)
    (hts : ∀ target ∈ targetsOf cfg calls key, |target.1.weight - t| ≤ δ) :
    |previousWeight cfg (optimizeAll cfg calls) key - t| ≤ tolerance cfg δ +
      (1 - cfg.smoothingFactor) ^ (targetsOf cfg calls key).length *
        (|cfg.defaultWeight - t| - tolerance cfg δ) := by
  rw [previousWeight_of_history cfg (history_optimizeAll_eq cfg calls key)]
  exact abs_lastWeight_sub_le hpos hle hmin hmax hts cfg.defaultWeight

/-- Two strategies with six trades each: one wins them all, and one loses them all. -/
def leader : Performance := ⟨"a", ⟨6, 6, some 1, some 5, some 30, some 3, some 0⟩⟩

def laggard : Performance := ⟨"b", ⟨6, 0, some 0, some (-5), some (-30), some (-2), some (-25)⟩⟩

def twoStrategies : Call where
  performances := [leader, laggard]
  regimeType := "ranging"
  instrument := "BTC-USD"
  now _ := 0
  distinct := by decide

/-- Twice the mean score gives the target two, which the weight approaches. -/
theorem leader_near :
    |previousWeight defaultConfig (optimizeAll defaultConfig [twoStrategies, twoStrategies])
        ⟨"a", "BTC-USD", "ranging"⟩ - 2| ≤ tolerance defaultConfig 0 +
      (1 - 3 / 10) ^ 2 * (|1 - 2| - tolerance defaultConfig 0) :=
  previousWeight_near defaultConfig (by decide +kernel) (by decide +kernel) (by decide +kernel)
    (by decide +kernel) [twoStrategies, twoStrategies] ⟨"a", "BTC-USD", "ranging"⟩
    (by decide +kernel)

/-! ### Strategies that are always better -/

/-- A call that has enough trades of both strategies, and scores the first no lower. -/
def Call.Outperforms (call : Call) (better worse : String) : Prop :=
  ∃ p ∈ call.performances, ∃ q ∈ call.performances,
    p.strategySpecId = better ∧ q.strategySpecId = worse ∧
    cfg.minTradesRequired ≤ p.metrics.tradeCount ∧
    cfg.minTradesRequired ≤ q.metrics.tradeCount ∧
    scoreStrategy cfg q.metrics ≤ scoreStrategy cfg p.metrics

section
variable {cfg}

theorem clampWeight_mono {x y : ℚ} (h : x ≤ y) : clampWeight cfg x ≤ clampWeight cfg y :=
  max_le_max le_rfl (min_le_min le_rfl h)

theorem rawWeight_mono (avgScore : ℚ) {x y : ℚ} (h : x ≤ y) :
    rawWeight cfg avgScore x ≤ rawWeight cfg avgScore y := by
  unfold rawWeight
  split_ifs with hpos
  · exact div_le_div_of_nonneg_right h hpos.le
  · exact le_rfl

theorem smoothedWeight_mono (hnonneg : 0 ≤ cfg.smoothingFactor)
    (hle : cfg.smoothingFactor ≤ 1) {prev prev' target target' : ℚ} (hprev : prev ≤ prev')
    (htarget : target ≤ target') :
    smoothedWeight cfg prev target ≤ smoothedWeight cfg prev' target' := by
  apply roundTo_mono
  apply clampWeight_mono
  exact add_le_add (mul_le_mul_of_nonneg_left htarget hnonneg)
    (mul_le_mul_of_nonneg_left hprev (sub_nonneg.mpr hle))

theorem lastWeight_trajectory_mono (hnonneg : 0 ≤ cfg.smoothingFactor)
    (hle : cfg.smoothingFactor ≤ 1) {ts ts' : List (Target × ℤ)}
    (h : List.Forall₂ (fun t t' => t.1.weight ≤ t'.1.weight) ts ts') {prev prev' : ℚ}
    (hprev : prev ≤ prev') :
    lastWeight prev (trajectory cfg prev ts) ≤ lastWeight prev' (trajectory cfg prev' ts') := by
  induction h generalizing prev prev' with
  | nil => exact hprev
  | cons hhead _ ih =>
    rw [lastWeight_trajectory_cons, lastWeight_trajectory_cons]
    exact ih (smoothedWeight_mono hnonneg hle hprev hhead)

/-- The mean of the scores that a call normalizes with. -/
def Call.avgScore (cfg : Config) (call : Call) : ℚ :=
  let hasData := (call.performances.map (score cfg)).filter (·.hasData)
  (hasData.map (·.score)).sum / hasData.length

theorem Call.exists_mem_targets {call : Call} {p : Performance} (hp : p ∈ call.performances)
    (htrades : cfg.minTradesRequired ≤ p.metrics.tradeCount) :
    ∃ target ∈ call.targets cfg, target.strategySpecId = p.strategySpecId ∧
      target.weight = roundTo 4 (clampWeight cfg
        (rawWeight cfg (call.avgScore cfg) (scoreStrategy cfg p.metrics))) := by
  have hscore : score cfg p = ⟨p.strategySpecId, scoreStrategy cfg p.metrics, true⟩ :=
    if_neg (not_lt.mpr htrades)
  have hmem : score cfg p ∈ (call.performances.map (score cfg)).filter (·.hasData) :=
    List.mem_filter.mpr ⟨List.mem_map_of_mem hp, by rw [hscore]⟩
  refine ⟨_, List.mem_append_left _ (List.mem_map_of_mem hmem), ?_, ?_⟩
  · exact strategySpecId_score cfg p
  · rw [hscore]
    rfl

theorem Call.targetsOf_eq_singleton {call : Call} {key : WeightKey} {target : Target}
    (hkey : call.key key.strategySpecId = key) (hmem : target ∈ call.targets cfg)
    (hid : target.strategySpecId = key.strategySpecId) :
    call.targetsOf cfg key = [(target, call.now target.strategySpecId)] := by
  have hlen := call.length_targetsOf_le cfg key
  have hin : (target, call.now target.strategySpecId) ∈ call.targetsOf cfg key := by
    rw [Call.targetsOf, if_pos hkey]
    exact List.mem_map_of_mem (List.mem_filter.mpr ⟨hmem, decide_eq_true hid⟩)
  obtain ⟨x, hx⟩ := List.length_eq_one_iff.mp (hlen.antisymm (List.length_pos_of_mem hin))
  rw [hx, List.mem_singleton] at hin
  rw [hx, hin]

theorem Call.forall₂_targetsOf {call : Call} {better worse instrument regimeType : String}
    (h : call.instrument = instrument → call.regimeType = regimeType →
      call.Outperforms cfg better worse) :
    List.Forall₂ (fun t t' => t.1.weight ≤ t'.1.weight)
      (call.targetsOf cfg ⟨worse, instrument, regimeType⟩)
      (call.targetsOf cfg ⟨better, instrument, regimeType⟩) := by
  by_cases hcall : call.instrument = instrument ∧ call.regimeType = regimeType
  · obtain ⟨rfl, rfl⟩ := hcall
    obtain ⟨p, hp, q, hq, rfl, rfl, hptrades, hqtrades, hscore⟩ := h rfl rfl
    obtain ⟨target, hmem, hid, hweight⟩ := Call.exists_mem_targets hp hptrades
    obtain ⟨target', hmem', hid', hweight'⟩ := Call.exists_mem_targets hq hqtrades
    rw [Call.targetsOf_eq_singleton rfl hmem' hid', Call.targetsOf_eq_singleton rfl hmem hid]
    refine .cons ?_ .nil
    rw [hweight', hweight]
    exact roundTo_mono 4 (clampWeight_mono (rawWeight_mono _ hscore))
  · have hkey : ∀ id, call.key id ≠ ⟨id, instrument, regimeType⟩ := by
      intro id hid
      exact hcall ⟨congrArg WeightKey.instrument hid, congrArg WeightKey.regimeType hid⟩
    rw [Call.targetsOf, if_neg (hkey worse), Call.targetsOf, if_neg (hkey better)]
    exact .nil

end

/-- A strategy that is in every call, and never scores lower, never weighs less. -/
theorem previousWeight_le_of_outperforms (hnonneg : 0 ≤ cfg.smoothingFactor)
    (hle : cfg.smoothingFactor ≤ 1) (better worse instrument regimeType : String)
    (calls : List Call) (h : ∀ call ∈ calls, call.instrument = instrument →
      call.regimeType = regimeType → call.Outperforms cfg better worse) :
    previousWeight cfg (optimizeAll cfg calls) ⟨worse, instrument, regimeType⟩ ≤
      previousWeight cfg (optimizeAll cfg calls) ⟨better, instrument, regimeType⟩ := by
  rw [previousWeight_of_history cfg (history_optimizeAll_eq cfg calls _),
    previousWeight_of_history cfg (history_optimizeAll_eq cfg calls _)]
  apply lastWeight_trajectory_mono hnonneg hle _ le_rfl
  rw [targetsOf, targetsOf]
  induction calls with
  | nil => exact .nil
  | cons call calls ih =>
    rw [List.flatMap_cons, List.flatMap_cons]
    apply List.rel_append (Call.forall₂_targetsOf (h call List.mem_cons_self))
    exact ih fun next hnext => h next (List.mem_cons_of_mem call hnext)

theorem laggard_le_leader :
    previousWeight defaultConfig (optimizeAll defaultConfig [twoStrategies, twoStrategies])
        ⟨"b", "BTC-USD", "ranging"⟩ ≤
      previousWeight defaultConfig (optimizeAll defaultConfig [twoStrategies, twoStrategies])
        ⟨"a", "BTC-USD", "ranging"⟩ := by
  apply previousWeight_le_of_outperforms defaultConfig (by decide +kernel) (by decide +kernel)
  have hcall : twoStrategies.Outperforms defaultConfig "a" "b" :=
    ⟨leader, by simp [twoStrategies], laggard, by simp [twoStrategies], rfl, rfl,
      by decide, by decide, by decide +kernel⟩
  intro call hcalls _ _
  rw [List.mem_pair.mp hcalls |>.elim id id]
  exact hcall

end TradeStream.WeightOptimizer
