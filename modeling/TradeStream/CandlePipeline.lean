import TradeStream.CandleIntervals
import TradeStream.OrderedGroups

/-! `CandleAggregationPipeline.java` over `InMemoryCandleStore.java`: one aggregator
for each timeframe, all fed with the same calls, their candles filed in the store
under pair and timeframe. -/
namespace TradeStream.MarketData
open TradeStream.Transducer

variable {K : Type*} [LinearOrder K] [AddCommMonoid K]

def makeKey (currencyPair : String) (tf : Timeframe) : String :=
  currencyPair ++ "|" ++ tf.getLabel

theorem bar_notMem_label (tf : Timeframe) : '|' ∉ tf.getLabel.toList := by
  cases tf <;> decide

theorem getLabel_injective {tf tf' : Timeframe} (h : tf.getLabel = tf'.getLabel) : tf = tf' := by
  revert h
  cases tf <;> cases tf' <;> decide

theorem append_bar_inj {l l' r r' : List Char} (hl : '|' ∉ l) (hl' : '|' ∉ l')
    (h : l ++ '|' :: r = l' ++ '|' :: r') : l = l' ∧ r = r' := by
  induction l generalizing l' with
  | nil =>
    cases l' with
    | nil => exact ⟨rfl, (List.cons.inj h).2⟩
    | cons c l' => exact absurd ((List.cons.inj h).1 ▸ List.mem_cons_self) hl'
  | cons c l ih =>
    cases l' with
    | nil => exact absurd ((List.cons.inj h).1 ▸ List.mem_cons_self) hl
    | cons c' l' =>
      obtain ⟨hc, h⟩ := List.cons.inj h
      obtain ⟨h1, h2⟩ := ih (fun hm => hl (List.mem_cons_of_mem _ hm))
        (fun hm => hl' (List.mem_cons_of_mem _ hm)) h
      exact ⟨by rw [hc, h1], h2⟩

/-- No label contains the separator, so keys of different series differ. -/
theorem makeKey_inj {p p' : String} {tf tf' : Timeframe} :
    makeKey p tf = makeKey p' tf' ↔ p = p' ∧ tf = tf' := by
  constructor
  · intro h
    -- Read from the end: label, separator, pair.
    have hr := congrArg (fun s : String => s.toList.reverse) h
    simp only [makeKey, String.toList_append, List.reverse_append] at hr
    obtain ⟨h1, h2⟩ := append_bar_inj (by simpa using bar_notMem_label tf)
      (by simpa using bar_notMem_label tf') hr
    exact ⟨String.toList_inj.mp (List.reverse_injective h2),
      getLabel_injective (String.toList_inj.mp (List.reverse_injective h1))⟩
  · rintro ⟨rfl, rfl⟩
    rfl

/-- `InMemoryCandleStore`: the candles of each key, oldest first. -/
structure InMemoryCandleStore (K : Type*) where
  candles : AList (fun _ : String => List (Candle K))

namespace InMemoryCandleStore

def empty : InMemoryCandleStore K := ⟨∅⟩

/-- `store.getOrDefault(makeKey(pair, timeframe), emptyList())`. -/
def series (s : InMemoryCandleStore K) (p : String) (tf : Timeframe) : List (Candle K) :=
  (s.candles.lookup (makeKey p tf)).getD []

def store (s : InMemoryCandleStore K) (tf : Timeframe) (candle : Candle K) :
    InMemoryCandleStore K :=
  ⟨s.candles.insert (makeKey candle.currencyPair tf) (s.series candle.currencyPair tf ++ [candle])⟩

omit [LinearOrder K] [AddCommMonoid K] in
theorem store_series (s : InMemoryCandleStore K) (tf tf' : Timeframe) (c : Candle K) (p : String) :
    (s.store tf c).series p tf' =
      if tf = tf' ∧ c.currencyPair = p then s.series p tf' ++ [c] else s.series p tf' := by
  by_cases h : tf = tf' ∧ c.currencyPair = p
  · obtain ⟨rfl, rfl⟩ := h
    simp [store, series]
  · have hk : makeKey p tf' ≠ makeKey c.currencyPair tf := fun he =>
      h ⟨(makeKey_inj.mp he).2.symm, (makeKey_inj.mp he).1.symm⟩
    rw [if_neg h]
    simp [store, series, hk]

omit [LinearOrder K] [AddCommMonoid K] in
theorem foldl_store_series (cs : List (Candle K)) (s : InMemoryCandleStore K)
    (tf tf' : Timeframe) (p : String) :
    (cs.foldl (fun s c => s.store tf c) s).series p tf' =
      if tf = tf' then s.series p tf' ++ cs.filter (fun c => c.currencyPair = p)
      else s.series p tf' := by
  induction cs generalizing s with
  | nil => simp
  | cons c cs ih =>
    rw [List.foldl_cons, ih, store_series]
    by_cases h : tf = tf' <;> by_cases hp : c.currencyPair = p <;> simp [h, hp]

end InMemoryCandleStore

/-- The calls a pipeline receives. Each aggregator flushes in an order of its own. -/
inductive PipelineCall (K : Type*) where
  | onTrade (trade : Trade K)
  | flush (order : Timeframe → IterationOrder (Sigma fun _ : String => CandleBuilder K))

/-- What a call of the pipeline is for the aggregator of one timeframe. -/
def PipelineCall.forTimeframe (tf : Timeframe) : PipelineCall K → Call K
  | .onTrade trade => .onTrade trade
  | .flush order => .flush (order tf)

/-- The aggregators in the insertion order of the `ImmutableMap`, and the store. -/
structure CandleAggregationPipeline (K : Type*) where
  aggregators : List (CandleAggregator K)
  candleStore : InMemoryCandleStore K
  distinct : (aggregators.map CandleAggregator.timeframe).Nodup

namespace CandleAggregationPipeline

/-- `none` stands for the `IllegalArgumentException` of `ImmutableMap.Builder.build`
on a repeated timeframe. -/
def new (store : InMemoryCandleStore K) (timeframes : List Timeframe) :
    Option (CandleAggregationPipeline K) :=
  if h : timeframes.Nodup then
    some ⟨timeframes.map .new, store, by
      rw [List.map_map]
      exact (List.map_id' timeframes).symm ▸ h⟩
  else none

/-- The listener of each aggregator stores what it emits under its timeframe. -/
def step (pl : CandleAggregationPipeline K) (call : PipelineCall K) :
    CandleAggregationPipeline K where
  aggregators := pl.aggregators.map fun agg => (agg.step (call.forTimeframe agg.timeframe)).1
  candleStore := pl.aggregators.foldl (fun s agg =>
    (agg.step (call.forTimeframe agg.timeframe)).2.foldl (fun s c => s.store agg.timeframe c) s)
    pl.candleStore
  distinct := by
    rw [List.map_map]
    convert pl.distinct using 2
    funext agg
    exact agg.step_timeframe _

def runCalls (pl : CandleAggregationPipeline K) (calls : List (PipelineCall K)) :
    CandleAggregationPipeline K :=
  calls.foldl step pl

/-- The pipeline a fresh one becomes over some calls: its aggregators, one for each
timeframe, know nothing of each other. -/
structure Splits (timeframes : List Timeframe) (calls : List (PipelineCall K))
    (pl : CandleAggregationPipeline K) : Prop where
  aggregators : pl.aggregators = timeframes.map fun tf =>
    (run CandleAggregator.step (.new tf) (calls.map (PipelineCall.forTimeframe tf))).1
  series : ∀ tf ∈ timeframes, ∀ p, pl.candleStore.series p tf =
    emittedFor tf (calls.map (PipelineCall.forTimeframe tf)) p

theorem foldl_aggregators_series (aggs : List (CandleAggregator K)) (call : PipelineCall K)
    (s : InMemoryCandleStore K) (hnd : (aggs.map CandleAggregator.timeframe).Nodup)
    (agg : CandleAggregator K) (hagg : agg ∈ aggs) (p : String) :
    (aggs.foldl (fun s a => (a.step (call.forTimeframe a.timeframe)).2.foldl
        (fun s c => s.store a.timeframe c) s) s).series p agg.timeframe =
      s.series p agg.timeframe ++
        (agg.step (call.forTimeframe agg.timeframe)).2.filter (fun c => c.currencyPair = p) := by
  -- The other aggregators have other timeframes, hence other keys.
  have hother (as : List (CandleAggregator K)) (s : InMemoryCandleStore K)
      (h : agg.timeframe ∉ as.map CandleAggregator.timeframe) :
      (as.foldl (fun s a => (a.step (call.forTimeframe a.timeframe)).2.foldl
        (fun s c => s.store a.timeframe c) s) s).series p agg.timeframe =
        s.series p agg.timeframe := by
    induction as generalizing s with
    | nil => rfl
    | cons a as ih =>
      rw [List.map_cons, List.mem_cons, not_or] at h
      rw [List.foldl_cons, ih _ h.2, InMemoryCandleStore.foldl_store_series, if_neg (Ne.symm h.1)]
  induction aggs generalizing s with
  | nil => simp at hagg
  | cons a as ih =>
    rw [List.map_cons, List.nodup_cons] at hnd
    rw [List.foldl_cons]
    rcases List.mem_cons.mp hagg with rfl | hagg
    · rw [hother as _ hnd.1, InMemoryCandleStore.foldl_store_series, if_pos rfl]
    · have hne : a.timeframe ≠ agg.timeframe := fun he =>
        hnd.1 (he ▸ List.mem_map_of_mem hagg)
      rw [ih _ hnd.2 hagg, InMemoryCandleStore.foldl_store_series, if_neg hne]

theorem run_timeframe (tf : Timeframe) (calls : List (Call K)) :
    (run CandleAggregator.step (.new tf) calls).1.timeframe = tf :=
  run_invariant CandleAggregator.step (fun a => a.timeframe = tf)
    (fun a call h => (a.step_timeframe call).trans h) _ calls rfl

theorem Splits.step {timeframes : List Timeframe} {calls : List (PipelineCall K)}
    {pl : CandleAggregationPipeline K} (h : Splits timeframes calls pl) (call : PipelineCall K) :
    Splits timeframes (calls ++ [call]) (pl.step call) where
  aggregators := by
    simp only [CandleAggregationPipeline.step, h.aggregators, List.map_map]
    apply List.map_congr_left
    intro tf _
    simp only [Function.comp_apply, List.map_append, List.map_singleton, run_concat, run_timeframe]
  series := by
    intro tf htf p
    set agg := (run CandleAggregator.step (.new tf) (calls.map (PipelineCall.forTimeframe tf))).1
      with hdef
    have hagg : agg ∈ pl.aggregators := by
      rw [h.aggregators]
      exact List.mem_map_of_mem (f := fun tf =>
        (run CandleAggregator.step (.new tf) (calls.map (PipelineCall.forTimeframe tf))).1) htf
    have htime : agg.timeframe = tf := run_timeframe tf _
    have hfold := foldl_aggregators_series pl.aggregators call pl.candleStore pl.distinct agg hagg p
    rw [htime, h.series tf htf p] at hfold
    simp only [CandleAggregationPipeline.step, hfold, emittedFor, List.map_append,
      List.map_singleton, run_concat, List.filter_append]
    rw [← hdef]

/-- A fresh pipeline over an empty store, run on any calls. -/
theorem runCalls_splits {timeframes : List Timeframe} {pl : CandleAggregationPipeline K}
    (hnew : new .empty timeframes = some pl) (calls : List (PipelineCall K)) :
    Splits timeframes calls (pl.runCalls calls) := by
  induction calls using List.reverseRecOn with
  | nil =>
    unfold new at hnew
    split_ifs at hnew
    obtain rfl := Option.some.inj hnew
    exact ⟨rfl, fun tf _ p => rfl⟩
  | append_singleton calls call ih =>
    rw [runCalls, List.foldl_append]
    exact ih.step call

end CandleAggregationPipeline

end TradeStream.MarketData
