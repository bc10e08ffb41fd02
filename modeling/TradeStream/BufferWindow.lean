import TradeStream.SignalSessions

/-! The truncated buffer: what the engine decides from moving averages depends on the
retained candles only. -/
namespace TradeStream.StrategyExecution
open TradeStream.Backtesting TradeStream.Fallible

/-! ### The end of a list -/

section
variable {α : Type} {l : List α}

theorem rtake_drop {count k : ℕ} (h : k + count ≤ l.length) :
    (l.drop k).rtake count = l.rtake count := by
  rw [List.rtake, List.rtake, List.drop_drop, List.length_drop]
  congr 1
  omega

theorem rtake_of_length_le {count : ℕ} (h : l.length ≤ count) : l.rtake count = l := by
  rw [List.rtake, Nat.sub_eq_zero_of_le h, List.drop_zero]

theorem keepLast_eq_rtake {limit : ℕ} (h : 0 < limit) (items : List α) :
    keepLast limit items = items.rtake limit := by
  unfold keepLast lastItems
  split_ifs with hlong hzero
  · omega
  · rfl
  · rw [rtake_of_length_le (not_lt.mp hlong)]

/-- Truncating early loses nothing that a later truncation keeps. -/
theorem keepLast_concat {limit : ℕ} (h : 0 < limit) (items : List α) (item : α) :
    keepLast limit (keepLast limit items ++ [item]) = keepLast limit (items ++ [item]) := by
  obtain ⟨limit, rfl⟩ := Nat.exists_eq_add_one.mpr h
  simp only [keepLast_eq_rtake h, List.rtake_concat_succ]
  congr 1
  rcases le_or_gt items.length (limit + 1) with hshort | hlong
  · rw [rtake_of_length_le hshort]
  · rw [List.rtake.eq_1 items]
    exact rtake_drop (by omega)

theorem exists_eq_append_pair (h : 2 ≤ l.length) : ∃ before x y, l = before ++ [x, y] := by
  induction l using List.reverseRecOn with
  | nil => simp at h
  | append_singleton l y =>
    induction l using List.reverseRecOn with
    | nil => simp at h
    | append_singleton before x => exact ⟨before, x, y, by simp⟩

/-- What a condition looks at of a series. -/
def ends (series : List α) : Option (α × α) × Option α := (lastTwo series, series.getLast?)

theorem ends_append_pair (before : List α) (x y : α) :
    ends (before ++ [x, y]) = (some (x, y), some y) := by
  simp [ends, lastTwo]

theorem ends_drop {k : ℕ} (h : k + 2 ≤ l.length) : ends (l.drop k) = ends l := by
  obtain ⟨before, x, y, rfl⟩ := exists_eq_append_pair (by omega : 2 ≤ l.length)
  have hk : k ≤ before.length := by
    simp only [List.length_append, List.length_cons, List.length_nil] at h
    omega
  rw [List.drop_append_of_le_length hk, ends_append_pair, ends_append_pair]

end

/-! ### Conditions look at the ends -/

section
variable {runtime : PythonRuntime ℚ} {values : String → Option ℚ}
  {indicatorValues indicatorValues' : String → Option (List ℚ)}

theorem getIndicator_congr
    (h : ∀ id, (indicatorValues id).map ends = (indicatorValues' id).map ends)
    (value : PyValue ℚ) :
    (getIndicator indicatorValues value).map (Option.map ends) =
      (getIndicator indicatorValues' value).map (Option.map ends) := by
  cases value with
  | string s =>
    by_cases hs : s = ""
    · simp [getIndicator, hs, Except.map]
    · simp [getIndicator, hs, Except.map, h]
  | container isEmpty => cases isEmpty <;> rfl
  | _ => rfl

theorem bind_ends {β : Type} (f : List ℚ → Option β)
    (g : Option (ℚ × ℚ) × Option ℚ → Option β) (hfg : ∀ series, f series = g (ends series))
    (other : Option (List ℚ)) :
    other.bind f = (other.map ends).bind g := by
  cases other with
  | none => rfl
  | some series => exact hfg series

/-- A lookup that goes on with the ends of the series found. -/
theorem getIndicator_bind_congr {β : Type}
    (h : ∀ id, (indicatorValues id).map ends = (indicatorValues' id).map ends)
    (value : PyValue ℚ) {f : Option (List ℚ) → Except PyError β}
    (hf : ∀ other other', other.map ends = other'.map ends → f other = f other') :
    (getIndicator indicatorValues value >>= f) = (getIndicator indicatorValues' value >>= f) := by
  have hcongr := getIndicator_congr h value
  cases hleft : getIndicator indicatorValues value with
  | error e =>
    cases hright : getIndicator indicatorValues' value with
    | error e' =>
      rw [hleft, hright] at hcongr
      rw [Except.error.inj hcongr]
    | ok other' =>
      rw [hleft, hright] at hcongr
      cases hcongr
  | ok other =>
    cases hright : getIndicator indicatorValues' value with
    | error e' =>
      rw [hleft, hright] at hcongr
      cases hcongr
    | ok other' =>
      rw [hleft, hright] at hcongr
      exact hf other other' (Except.ok.inj hcongr)

theorem lastTwo_getD (other : Option (List ℚ)) :
    lastTwo (other.getD []) = other.bind lastTwo := by
  cases other <;> rfl

theorem bind_lastTwo_congr {other other' : Option (List ℚ)}
    (h : other.map ends = other'.map ends) : other.bind lastTwo = other'.bind lastTwo := by
  rw [bind_ends lastTwo Prod.fst fun _ => rfl, bind_ends lastTwo Prod.fst fun _ => rfl, h]

theorem bind_getLast?_congr {other other' : Option (List ℚ)}
    (h : other.map ends = other'.map ends) :
    other.bind List.getLast? = other'.bind List.getLast? := by
  rw [bind_ends List.getLast? Prod.snd fun _ => rfl,
    bind_ends List.getLast? Prod.snd fun _ => rfl, h]

namespace ConditionEvaluator

theorem evaluateOne_congr
    (h : ∀ id, (indicatorValues id).map ends = (indicatorValues' id).map ends)
    (cond : Condition ℚ) :
    evaluateOne runtime indicatorValues values cond =
      evaluateOne runtime indicatorValues' values cond := by
  -- a series that is not there has no last two values, like an empty one
  have hseries : lastTwo ((indicatorValues (cond.indicator.getD "")).getD []) =
      lastTwo ((indicatorValues' (cond.indicator.getD "")).getD []) := by
    rw [lastTwo_getD, lastTwo_getD, bind_lastTwo_congr (h _)]
  have hcrossed (side : SeriesRules.Side) (prev curr : ℚ) :
      crossed indicatorValues cond.params side prev curr =
        crossed indicatorValues' cond.params side prev curr := by
    apply getIndicator_bind_congr h
    intro other other' hends
    rw [bind_lastTwo_congr hends]
  have hbeyond (side : SeriesRules.Side) (curr : ℚ) :
      beyond runtime indicatorValues values cond.params side curr =
        beyond runtime indicatorValues' values cond.params side curr := by
    unfold beyond
    congr 1
    funext threshold
    cases threshold with
    | some x => rfl
    | none =>
      apply getIndicator_bind_congr h
      intro other other' hends
      rw [bind_getLast?_congr hends]
  unfold evaluateOne
  simp only [hseries, hcrossed, hbeyond]

theorem evaluate_congr
    (h : ∀ id, (indicatorValues id).map ends = (indicatorValues' id).map ends)
    (conditions : List (Condition ℚ)) :
    evaluate runtime indicatorValues values conditions =
      evaluate runtime indicatorValues' values conditions := by
  have hall : evaluateAll runtime indicatorValues values conditions =
      evaluateAll runtime indicatorValues' values conditions := by
    induction conditions with
    | nil => rfl
    | cons cond conditions ih => rw [evaluateAll, evaluateAll, evaluateOne_congr h, ih]
  rw [evaluate, evaluate, hall]

end ConditionEvaluator

end

/-! ### Moving averages -/

def mean (values : List ℚ) : ℚ := values.sum / values.length

/-- At every position the average is the mean of the last `period` values so far. -/
theorem sma_eq_map {period : ℤ} (h : 1 ≤ period) (series : List ℚ) :
    sma series period = .ok ((List.range series.length).map fun i =>
      mean ((series.take (i + 1)).rtake period.toNat)) := by
  obtain ⟨count, rfl⟩ := Int.eq_ofNat_of_zero_le (by omega : 0 ≤ period)
  apply mapM_eq_ok_map
  intro i hi
  have hlength : (series.take (i + 1)).length = i + 1 := by
    rw [List.length_take]
    have hlt := List.mem_range.mp hi
    omega
  rw [Int.toNat_natCast]
  split_ifs with hshort
  -- before `period` values the mean is of all so far
  · have hne : (i : ℚ) + 1 ≠ 0 := by positivity
    rw [rtake_of_length_le (by omega), divide, if_neg hne, mean, hlength]
    push_cast
    rfl
  · have hne : ((count : ℤ) : ℚ) ≠ 0 := by
      have hpos : 0 < count := by omega
      positivity
    have hdrop : (i - (count : ℤ) + 1).toNat = (series.take (i + 1)).length - count := by
      omega
    have hcount : ((series.take (i + 1)).rtake count).length = count := by
      rw [List.rtake, List.length_drop]
      omega
    rw [hdrop, divide, if_neg hne, mean, hcount, List.rtake]
    push_cast
    rfl

theorem ends_sma {period : ℤ} (h : 1 ≤ period) {series : List ℚ} (hlength : 2 ≤ series.length) :
    ∃ averages, sma series period = .ok averages ∧
      ends averages =
        (some (mean ((series.take (series.length - 1)).rtake period.toNat),
          mean (series.rtake period.toNat)), some (mean (series.rtake period.toNat))) := by
  refine ⟨_, sma_eq_map h series, ?_⟩
  obtain ⟨n, hn⟩ := Nat.exists_eq_add_of_le' hlength
  have htake : series.take (n + 2) = series := by rw [← hn, List.take_length]
  have hrange : List.range (n + 2) = List.range n ++ [n, n + 1] := by
    simp [List.range_succ]
  rw [hn, hrange, List.map_append, List.map_cons, List.map_singleton, ends_append_pair, htake]
  rfl

/-- The averages of the last values do not depend on what comes before them. -/
theorem ends_sma_drop {period : ℤ} (h : 1 ≤ period) {series : List ℚ} {k : ℕ}
    (hlength : k + (period.toNat + 1) ≤ series.length) :
    ∃ averages averages', sma (series.drop k) period = .ok averages ∧
      sma series period = .ok averages' ∧ ends averages = ends averages' := by
  have hdrop : (series.drop k).length = series.length - k := List.length_drop
  obtain ⟨averages, hsma, hends⟩ := ends_sma h (by omega : 2 ≤ (series.drop k).length)
  obtain ⟨averages', hsma', hends'⟩ := ends_sma h (by omega : 2 ≤ series.length)
  refine ⟨averages, averages', hsma, hsma', ?_⟩
  have hlast : (series.drop k).rtake period.toNat = series.rtake period.toNat :=
    rtake_drop (by omega)
  have hbefore : ((series.drop k).take ((series.drop k).length - 1)).rtake period.toNat =
      (series.take (series.length - 1)).rtake period.toNat := by
    have htake : (series.drop k).take ((series.drop k).length - 1) =
        (series.take (series.length - 1)).drop k := by
      rw [List.drop_take, hdrop]
      congr 1
      omega
    rw [htake]
    apply rtake_drop
    rw [List.length_take]
    omega
  rw [hends, hends', hlast, hbefore]

/-! ### Indicators of base series -/

def baseNames : List String := ["close", "high", "low", "volume", "open"]

/-- An average of `period` values, for a period of at most 199. -/
def IsSma (runtime : EngineRuntime) (values : String → Option ℚ) (ind : IndicatorConfig) :
    Prop :=
  runtime.upper ind.type = "SMA" ∧ ∃ period,
    getInt runtime (resolveParams ind.params values) "period" 20 = .ok period ∧
      1 ≤ period ∧ period ≤ 199

/-- All indicators are averages, and none of the series of an earlier one. An input that
is no series stands for the close. -/
structure SmasOfBase (runtime : EngineRuntime) (indicators : List IndicatorConfig)
    (values : String → Option ℚ) : Prop where
  isSma : ∀ ind ∈ indicators, IsSma runtime values ind
  ofBase : indicators.Pairwise fun earlier later =>
    earlier.id ≠ later.input ∧ (later.input ∉ baseNames → earlier.id ≠ "close")

theorem baseSeries_of_not_mem {name : String} (h : name ∉ baseNames) (candles : List Candle) :
    baseSeries candles name = none := by
  simp only [baseNames, List.mem_cons, List.not_mem_nil, or_false, not_or] at h
  unfold baseSeries
  split <;> simp_all

theorem exists_price (name : String) : ∃ price : Candle → ℚ, ∀ candles,
    (baseSeries candles name).getD ((baseSeries candles "close").getD []) =
      candles.map price := by
  by_cases h : name ∈ baseNames
  · simp only [baseNames, List.mem_cons, List.not_mem_nil, or_false] at h
    rcases h with rfl | rfl | rfl | rfl | rfl <;> exact ⟨_, fun _ => rfl⟩
  · refine ⟨Candle.close, ?_⟩
    intro candles
    rw [baseSeries_of_not_mem h]
    rfl

section
variable {runtime : EngineRuntime} {values : String → Option ℚ} {candles : List Candle}
  {results results' : String → Option (List ℚ)} {ind : IndicatorConfig}

/-- What the input of an indicator is looked up from is still that of the candles. -/
def ReadsBase (candles : List Candle) (results : String → Option (List ℚ))
    (ind : IndicatorConfig) : Prop :=
  results ind.input = baseSeries candles ind.input ∧
    (ind.input ∉ baseNames → results "close" = baseSeries candles "close")

theorem ReadsBase.input_eq (h : ReadsBase candles results ind) :
    (results ind.input).getD ((results "close").getD []) =
      (baseSeries candles ind.input).getD ((baseSeries candles "close").getD []) := by
  by_cases hmem : ind.input ∈ baseNames
  · rw [h.1]
    simp only [baseNames, List.mem_cons, List.not_mem_nil, or_false] at hmem
    rcases hmem with heq | heq | heq | heq | heq <;> rw [heq] <;> rfl
  · rw [h.1, h.2 hmem]

theorem ReadsBase.update (h : ReadsBase candles results ind) {id : String}
    (hid : id ≠ ind.input ∧ (ind.input ∉ baseNames → id ≠ "close")) (series : List ℚ) :
    ReadsBase candles (Function.update results id (some series)) ind := by
  refine ⟨?_, ?_⟩
  · rw [Function.update_of_ne hid.1.symm, h.1]
  · intro hmem
    rw [Function.update_of_ne (hid.2 hmem).symm, h.2 hmem]

/-- One more average, over the retained candles and over all. -/
theorem exists_addIndicator {k : ℕ} (hlength : k + 200 ≤ candles.length)
    (hsma : IsSma runtime values ind) (hreads : ReadsBase (candles.drop k) results ind)
    (hreads' : ReadsBase candles results' ind) :
    ∃ series series', addIndicator runtime values (candles.drop k) results ind =
        .ok (Function.update results ind.id (some series)) ∧
      addIndicator runtime values candles results' ind =
        .ok (Function.update results' ind.id (some series')) ∧
      ends series = ends series' := by
  obtain ⟨htype, period, hperiod, hone, hmax⟩ := hsma
  obtain ⟨price, hprice⟩ := exists_price ind.input
  obtain ⟨series, series', hseries, hseries', hends⟩ :=
    @ends_sma_drop period hone (candles.map price) k (by rw [List.length_map]; omega)
  have hcompute (input : List ℚ) (candles : List Candle) :
      computeIndicator runtime input (resolveParams ind.params values) candles ind.type =
        sma input period := by
    simp only [computeIndicator, htype, if_true, computeSma, hperiod]
    rfl
  refine ⟨series, series', ?_, ?_, hends⟩
  · rw [addIndicator, hreads.input_eq, hprice, hcompute, List.map_drop, hseries]
    rfl
  · rw [addIndicator, hreads'.input_eq, hprice, hcompute, hseries']
    rfl

theorem map_ends_update (h : ∀ id, (results id).map ends = (results' id).map ends)
    {series series' : List ℚ} (hends : ends series = ends series') (name id : String) :
    (Function.update results name (some series) id).map ends =
      (Function.update results' name (some series') id).map ends := by
  by_cases hid : id = name
  · rw [hid, Function.update_self, Function.update_self, Option.map_some, hends]
    rfl
  · rw [Function.update_of_ne hid, Function.update_of_ne hid, h]

theorem exists_foldlM_addIndicator {k : ℕ} (hlength : k + 200 ≤ candles.length)
    {indicators : List IndicatorConfig} (hsmas : SmasOfBase runtime indicators values)
    (hreads : ∀ ind ∈ indicators, ReadsBase (candles.drop k) results ind)
    (hreads' : ∀ ind ∈ indicators, ReadsBase candles results' ind)
    (hends : ∀ id, (results id).map ends = (results' id).map ends) :
    ∃ final final', indicators.foldlM (addIndicator runtime values (candles.drop k)) results =
        .ok final ∧
      indicators.foldlM (addIndicator runtime values candles) results' = .ok final' ∧
      ∀ id, (final id).map ends = (final' id).map ends := by
  -- what an indicator is stored under is no input of a later one, so these still read prices
  induction indicators generalizing results results' with
  | nil => exact ⟨results, results', rfl, rfl, hends⟩
  | cons ind indicators ih =>
    obtain ⟨hisSma, hofBase⟩ := hsmas
    rw [List.forall_mem_cons] at hisSma hreads hreads'
    rw [List.pairwise_cons] at hofBase
    obtain ⟨series, series', hadd, hadd', hseries⟩ :=
      exists_addIndicator hlength hisSma.1 hreads.1 hreads'.1
    obtain ⟨final, final', hfinal, hfinal', hends⟩ :=
      ih ⟨hisSma.2, hofBase.2⟩
        (fun later hmem => (hreads.2 later hmem).update (hofBase.1 later hmem) series)
        (fun later hmem => (hreads'.2 later hmem).update (hofBase.1 later hmem) series')
        (map_ends_update hends hseries ind.id)
    refine ⟨final, final', ?_, ?_, hends⟩
    · rw [List.foldlM_cons, hadd]
      exact hfinal
    · rw [List.foldlM_cons, hadd']
      exact hfinal'

theorem map_ends_baseSeries {k : ℕ} (hlength : k + 2 ≤ candles.length) (id : String) :
    (baseSeries (candles.drop k) id).map ends = (baseSeries candles id).map ends := by
  have hprice (price : Candle → ℚ) :
      ends ((candles.drop k).map price) = ends (candles.map price) := by
    rw [List.map_drop]
    apply ends_drop
    rwa [List.length_map]
  unfold baseSeries
  split <;> simp only [Option.map_some, Option.map_none, hprice]

/-- The retained candles give series with the same ends as the whole history. -/
theorem exists_compute_drop {k : ℕ} (hlength : k + 200 ≤ candles.length)
    {indicators : List IndicatorConfig} (hsmas : SmasOfBase runtime indicators values) :
    ∃ final final', compute runtime (candles.drop k) indicators values = .ok final ∧
      compute runtime candles indicators values = .ok final' ∧
      ∀ id, (final id).map ends = (final' id).map ends :=
  exists_foldlM_addIndicator hlength hsmas (fun _ _ => ⟨rfl, fun _ => rfl⟩)
    (fun _ _ => ⟨rfl, fun _ => rfl⟩) (map_ends_baseSeries (by omega))

end

/-! ### The engine -/

namespace Engine

section
variable {settings : EngineSettings} {runtime : EngineRuntime} {ctx : ExecutionContext}
  {candle : Candle} {now : ℚ}

theorem evaluate_drop {k : ℕ} {candles : List Candle} (hlength : k + 200 ≤ candles.length)
    (hsmas : SmasOfBase runtime ctx.config.indicators ctx.parameterValues) :
    evaluate settings runtime ctx (candles.drop k) now =
      evaluate settings runtime ctx candles now := by
  obtain ⟨final, final', hfinal, hfinal', hends⟩ := exists_compute_drop hlength hsmas
  have hlast : lastCandle (candles.drop k) = lastCandle candles := by
    have hgetLast := congrArg Prod.snd (ends_drop (by omega : k + 2 ≤ candles.length))
    simp only [ends] at hgetLast
    rw [lastCandle, lastCandle, hgetLast]
  simp only [evaluate, hfinal, hfinal', hlast, bind, Except.bind,
    ConditionEvaluator.evaluate_congr hends]

theorem process_drop {k : ℕ} {candles : List Candle} (hlength : k + 200 ≤ candles.length)
    (hsmas : SmasOfBase runtime ctx.config.indicators ctx.parameterValues) :
    process settings runtime ctx (candles.drop k) candle now =
      process settings runtime ctx candles candle now := by
  have hevaluate := @evaluate_drop settings runtime
    { ctx with state := updatePrice ctx.state candle } now k candles hlength hsmas
  have hshort : ¬ (candles.drop k).length < 2 := by
    rw [List.length_drop]
    omega
  have hshort' : ¬ candles.length < 2 := by omega
  simp only [process, if_neg hshort, if_neg hshort', hevaluate]

/-- A strategy of averages does not see the truncation. -/
theorem process_keepLast (candles : List Candle)
    (hsmas : SmasOfBase runtime ctx.config.indicators ctx.parameterValues) :
    process settings runtime ctx (keepLast 200 candles) candle now =
      process settings runtime ctx candles candle now := by
  rw [keepLast_eq_rtake (by norm_num)]
  rcases le_or_gt candles.length 200 with hshort | hlong
  · rw [rtake_of_length_le hshort]
  · exact process_drop (by omega) hsmas

/-- The limit is on what is kept, not on what is done with it. -/
theorem process_maxCandles (limit : ℕ) (buf : List Candle) :
    process { settings with maxCandles := limit } runtime ctx buf candle now =
      process settings runtime ctx buf candle now := rfl

/-- A candle changes only the state and the signals of a context. -/
structure SameStrategy (ctx ctx' : ExecutionContext) : Prop where
  config : ctx'.config = ctx.config
  parameterValues : ctx'.parameterValues = ctx.parameterValues

theorem sameStrategy_evaluate {buf : List Candle} {result : ExecutionContext × Option Signal}
    (h : evaluate settings runtime ctx buf now = .ok result) : SameStrategy ctx result.1 := by
  obtain ⟨indicatorValues, -, h⟩ := bind_eq_ok_iff.mp h
  split at h
  all_goals
    obtain ⟨met, -, h⟩ := bind_eq_ok_iff.mp h
    split at h
    · obtain ⟨candle', -, h⟩ := bind_eq_ok_iff.mp h
      obtain rfl := Except.ok.inj h
      exact ⟨rfl, rfl⟩
    · obtain rfl := Except.ok.inj h
      exact ⟨rfl, rfl⟩

theorem sameStrategy_process (buf : List Candle) :
    SameStrategy ctx (process settings runtime ctx buf candle now).1 := by
  unfold process
  dsimp only
  split
  -- closed by stop loss or take profit, else evaluated
  next ctx' signal hrisk =>
    unfold checkRiskManagement at hrisk
    split at hrisk
    next =>
      dsimp only at hrisk
      split_ifs at hrisk
      · obtain rfl := congrArg Prod.fst (Option.some.inj hrisk)
        exact ⟨rfl, rfl⟩
      · obtain rfl := congrArg Prod.fst (Option.some.inj hrisk)
        exact ⟨rfl, rfl⟩
    next => cases hrisk
  next =>
    split_ifs
    · exact ⟨rfl, rfl⟩
    · split
      next result hresult =>
        obtain ⟨hconfig, hvalues⟩ := sameStrategy_evaluate hresult
        exact ⟨hconfig, hvalues⟩
      next => exact ⟨rfl, rfl⟩

end

/-! ### Two limits -/

/-- The first engine has of every buffer what is left of the second one's, which holds
no more than the candles so far. -/
structure Truncates (runtime : EngineRuntime) (engine whole : Engine) (calls : ℕ) : Prop where
  contexts : engine.contexts = whole.contexts
  buffers : ∀ id, (engine.candleBuffers id).getD [] =
    keepLast 200 ((whole.candleBuffers id).getD [])
  length_le : ∀ id, ((whole.candleBuffers id).getD []).length ≤ calls
  smas : ∀ id ctx, engine.contexts id = some ctx →
    SmasOfBase runtime ctx.config.indicators ctx.parameterValues

section
variable {settings : EngineSettings} {runtime : EngineRuntime} {engine whole : Engine}
  {calls limit : ℕ}

theorem Truncates.succ (h : Truncates runtime engine whole calls) :
    Truncates runtime engine whole (calls + 1) :=
  ⟨h.contexts, h.buffers, fun id => (h.length_le id).trans (Nat.le_succ calls), h.smas⟩

/-- A context and its buffer are replaced in both engines. -/
theorem Truncates.put (h : Truncates runtime engine whole calls) (id : String)
    {ctx : ExecutionContext} {buf : List Candle} (hlength : buf.length ≤ calls + 1)
    (hsmas : SmasOfBase runtime ctx.config.indicators ctx.parameterValues) :
    Truncates runtime
      { contexts := Function.update engine.contexts id (some ctx)
        candleBuffers := Function.update engine.candleBuffers id (some (keepLast 200 buf)) }
      { contexts := Function.update whole.contexts id (some ctx)
        candleBuffers := Function.update whole.candleBuffers id (some buf) } (calls + 1) := by
  -- of every other strategy nothing changes
  constructor
  · simp only [h.contexts]
  · intro id'
    by_cases hid : id' = id
    · subst hid
      simp only [Function.update_self, Option.getD_some]
    · simpa only [Function.update_of_ne hid] using h.buffers id'
  · intro id'
    by_cases hid : id' = id
    · subst hid
      simpa only [Function.update_self, Option.getD_some] using hlength
    · simpa only [Function.update_of_ne hid] using h.succ.length_le id'
  · intro id' ctx' hctx'
    by_cases hid : id' = id
    · subst hid
      simp only [Function.update_self, Option.some.injEq] at hctx'
      subst hctx'
      exact hsmas
    · simp only [Function.update_of_ne hid] at hctx'
      exact h.smas id' ctx' hctx'

theorem truncates_start (h : Truncates runtime engine whole calls) {id : String}
    {config : StrategyConfig} {symbol timeframe : String} {overrides : String → Option ℚ}
    (hsmas : SmasOfBase runtime config.indicators (startValues config overrides)) :
    Truncates runtime
      (engine.call { settings with maxCandles := 200 } runtime
        (.start id config symbol timeframe overrides)).1
      (whole.call { settings with maxCandles := limit } runtime
        (.start id config symbol timeframe overrides)).1 (calls + 1) := by
  have hrunning : whole.isRunning id = engine.isRunning id := by
    rw [isRunning, isRunning, h.contexts]
  simp only [call, startStrategy, hrunning]
  cases engine.isRunning id with
  | true => exact h.succ
  | false =>
    refine @Truncates.put runtime engine whole calls h id _ [] (Nat.zero_le _) ?_
    exact hsmas

theorem truncates_stop (h : Truncates runtime engine whole calls) (id : String) :
    Truncates runtime
      (engine.call { settings with maxCandles := 200 } runtime (.stop id)).1
      (whole.call { settings with maxCandles := limit } runtime (.stop id)).1 (calls + 1) := by
  simp only [call, stopStrategy, ← h.contexts]
  cases hctx : engine.contexts id with
  | none => exact h.succ
  | some ctx =>
    refine ⟨rfl, h.buffers, h.succ.length_le, ?_⟩
    intro id' ctx' hctx'
    by_cases hid : id' = id
    · subst hid
      simp only [Function.update_self, Option.some.injEq] at hctx'
      subst hctx'
      exact h.smas id' ctx hctx
    · simp only [Function.update_of_ne hid] at hctx'
      exact h.smas id' ctx' hctx'

/-- A candle goes the same way in both engines. -/
theorem truncates_onCandle (h : Truncates runtime engine whole calls) (hlimit : calls < limit)
    (id : String) (candle : Candle) (now : ℚ) :
    (engine.call { settings with maxCandles := 200 } runtime (.onCandle id candle now)).2 =
        (whole.call { settings with maxCandles := limit } runtime
          (.onCandle id candle now)).2 ∧
      Truncates runtime
        (engine.call { settings with maxCandles := 200 } runtime (.onCandle id candle now)).1
        (whole.call { settings with maxCandles := limit } runtime
          (.onCandle id candle now)).1 (calls + 1) := by
  simp only [call, onCandle, ← h.contexts]
  cases hctx : engine.contexts id with
  | none => exact ⟨rfl, h.succ⟩
  | some ctx =>
    by_cases hrunning : ctx.state.status = .running
    · have hlength := h.length_le id
      -- so far the other limit has cut nothing off
      have hwhole : keepLast limit ((whole.candleBuffers id).getD [] ++ [candle]) =
          (whole.candleBuffers id).getD [] ++ [candle] := by
        rw [keepLast, if_neg]
        simp only [List.length_append, List.length_singleton]
        omega
      have hsmas := h.smas id ctx hctx
      simp only [if_pos hrunning, h.buffers id, keepLast_concat (by norm_num : 0 < 200), hwhole]
      simp only [process_maxCandles, process_keepLast _ hsmas]
      obtain ⟨hconfig, hvalues⟩ :=
        @sameStrategy_process settings runtime ctx candle now
          ((whole.candleBuffers id).getD [] ++ [candle])
      rw [← hconfig, ← hvalues] at hsmas
      have hbuf : ((whole.candleBuffers id).getD [] ++ [candle]).length ≤ calls + 1 := by
        rw [List.length_append, List.length_singleton]
        omega
      have hput := @Truncates.put runtime engine whole calls h id _ _ hbuf hsmas
      rw [← h.contexts] at hput
      exact ⟨trivial, hput⟩
    · simp only [if_neg hrunning]
      exact ⟨trivial, h.succ⟩

theorem signalsFrom_eq {calls : List Call} {n : ℕ} (h : Truncates runtime engine whole n)
    (hlimit : n + calls.length ≤ limit)
    (hsmas : ∀ id config symbol timeframe overrides,
      .start id config symbol timeframe overrides ∈ calls →
        SmasOfBase runtime config.indicators (startValues config overrides)) :
    engine.signalsFrom { settings with maxCandles := 200 } runtime calls =
      whole.signalsFrom { settings with maxCandles := limit } runtime calls := by
  induction calls generalizing engine whole n with
  | nil => rfl
  | cons c calls ih =>
    rw [List.length_cons] at hlimit
    -- one call answers alike, and makes the longer buffer at most one candle longer
    have hstep : (engine.call { settings with maxCandles := 200 } runtime c).2 =
          (whole.call { settings with maxCandles := limit } runtime c).2 ∧
        Truncates runtime (engine.call { settings with maxCandles := 200 } runtime c).1
          (whole.call { settings with maxCandles := limit } runtime c).1 (n + 1) := by
      cases c with
      | start id config symbol timeframe overrides =>
        refine ⟨?_, truncates_start h (hsmas _ _ _ _ _ List.mem_cons_self)⟩
        simp only [call]
        split <;> split <;> rfl
      | stop id =>
        refine ⟨?_, truncates_stop h id⟩
        simp only [call]
        split <;> split <;> rfl
      | onCandle id candle now => exact truncates_onCandle h (by omega) id candle now
    rw [signalsFrom, signalsFrom, hstep.1]
    congr 1
    exact ih hstep.2 (by omega) fun id config symbol timeframe overrides hmem =>
      hsmas id config symbol timeframe overrides (List.mem_cons_of_mem c hmem)

end

/-- The signals are those of an engine whose limit no buffer ever reaches. -/
theorem signals_eq_of_whole_history (settings : EngineSettings) (runtime : EngineRuntime)
    (calls : List Call)
    (hsmas : ∀ id config symbol timeframe overrides,
      .start id config symbol timeframe overrides ∈ calls →
        SmasOfBase runtime config.indicators (startValues config overrides))
    (limit : ℕ) (hlimit : calls.length ≤ limit) :
    Engine.empty.signalsFrom { settings with maxCandles := 200 } runtime calls =
      Engine.empty.signalsFrom { settings with maxCandles := limit } runtime calls := by
  have hempty : Truncates runtime .empty .empty 0 := by
    refine ⟨rfl, fun _ => rfl, fun _ => le_rfl, ?_⟩
    intro id ctx hctx
    cases hctx
  exact signalsFrom_eq hempty (by omega) hsmas

end Engine

/-- Two averages of the close that cross. -/
def crossConfig : StrategyConfig where
  name := "cross"
  indicators := [
    ⟨"fast", "SMA", "close", fun key => if key = "period" then some (.number 3) else none⟩,
    ⟨"slow", "SMA", "close", fun _ => none⟩]
  entryConditions := [⟨some "CROSSED_UP", some "fast", fun key =>
    if key = "crosses" then .string "slow" else .none⟩]
  exitConditions := [⟨some "UNDER", some "close", fun key =>
    if key = "other" then .string "slow" else .none⟩]
  parameters := []

/-- More candles than the buffer holds. -/
def crossCalls : List Call :=
  .start "s" crossConfig "BTC/USD" "1m" (fun _ => none) ::
    List.replicate 300 (.onCandle "s" (flatCandle 100) 0)

theorem crossConfig_smas : SmasOfBase enginePython crossConfig.indicators fun _ => none := by
  constructor
  · simp only [crossConfig, List.forall_mem_cons, List.not_mem_nil, false_implies,
      implies_true, and_true]
    constructor
    · refine ⟨rfl, 3, ?_, by norm_num, by norm_num⟩
      norm_num [getInt, resolveParams, EngineRuntime.int]
    · refine ⟨rfl, 20, ?_, by norm_num, by norm_num⟩
      norm_num [getInt, resolveParams, EngineRuntime.int]
  · simp [crossConfig]

theorem crossCalls_signals :
    Engine.empty.signalsFrom { twoPercent with maxCandles := 200 } enginePython crossCalls =
      Engine.empty.signalsFrom { twoPercent with maxCandles := 301 } enginePython
        crossCalls := by
  refine Engine.signals_eq_of_whole_history twoPercent enginePython crossCalls ?_ 301 ?_
  · intro id config symbol timeframe overrides hmem
    simp only [crossCalls, List.mem_cons, List.mem_replicate, reduceCtorEq, and_false,
      or_false, Call.start.injEq] at hmem
    obtain ⟨-, rfl, -, -, rfl⟩ := hmem
    exact crossConfig_smas
  · rw [crossCalls, List.length_cons, List.length_replicate]

end TradeStream.StrategyExecution
