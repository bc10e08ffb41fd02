import TradeStream.CandlePipeline

/-! Agreement of the timeframes of one pipeline: a coarse candle is the roll-up of
the one-minute candles in its interval. -/
namespace TradeStream.MarketData
open TradeStream.Transducer TradeStream.OrderedGroups

variable {K : Type*} [LinearOrder K] [AddCommMonoid K]

/-- `c` is the OHLCV roll-up of the candles `ms`, oldest first. -/
def RollsUp (ms : List (Candle K)) (c : Candle K) : Prop :=
  IsOhlcv (ms.map Candle.openPrice) (ms.map Candle.close) (ms.map Candle.high)
    (ms.map Candle.low) (ms.map Candle.volume) c

/-- Candles that summarise groups of trades roll up to what summarises the trades
of all groups together. -/
theorem rollsUp_of_summarizes (ms : List (Candle K)) (g : Candle K → List (Trade K))
    (hg : ∀ m ∈ ms, Summarizes (g m) m) (c : Candle K) (hc : Summarizes (ms.flatMap g) c) :
    RollsUp ms c := by
  have hopen : ((ms.flatMap g).map Trade.price).head? = (ms.map Candle.openPrice).head? := by
    cases ms with
    | nil => rfl
    | cons m ms =>
      rw [List.flatMap_cons, List.map_append, List.head?_append,
        (hg m List.mem_cons_self).openPrice]
      rfl
  have hclose : ((ms.flatMap g).map Trade.price).getLast? = (ms.map Candle.close).getLast? := by
    induction ms using List.reverseRecOn with
    | nil => rfl
    | append_singleton ms m _ =>
      rw [List.flatMap_append, List.flatMap_singleton, List.map_append, List.getLast?_append,
        (hg m (by simp)).close]
      simp
  -- what has no order is taken over minute by minute
  have hrest : ((ms.flatMap g).map Trade.price).maximum = (ms.map Candle.high).maximum ∧
      ((ms.flatMap g).map Trade.price).minimum = (ms.map Candle.low).minimum ∧
      ((ms.flatMap g).map Trade.volume).sum = (ms.map Candle.volume).sum := by
    clear hc hopen hclose
    induction ms with
    | nil => exact ⟨rfl, rfl, rfl⟩
    | cons m ms ih =>
      obtain ⟨h1, h2, h3⟩ := ih fun k hk => hg k (List.mem_cons_of_mem _ hk)
      have hm := hg m List.mem_cons_self
      simp only [List.flatMap_cons, List.map_append, List.maximum_append, List.minimum_append,
        List.sum_append, List.map_cons, List.maximum_cons, List.minimum_cons, List.sum_cons,
        h1, h2, h3, hm.high, hm.low, hm.volume, and_self]
  exact ⟨hopen ▸ hc.openPrice, hclose ▸ hc.close, hrest.1 ▸ hc.high, hrest.2.1 ▸ hc.low,
    hrest.2.2 ▸ hc.volume⟩

/-- The one-minute candles with trades that start in the interval of `c`. -/
def minutesWithin (tf : Timeframe) (ts : List (Trade K)) (minutes : List (Candle K))
    (c : Candle K) : List (Candle K) :=
  minutes.filter fun m => c.start ≤ m.start ∧ m.start < c.start + tf.durationMillis ∧
    received .ONE_MINUTE ts m ≠ []

theorem minute_dvd (tf : Timeframe) :
    Timeframe.ONE_MINUTE.durationMillis ∣ tf.durationMillis := by
  cases tf <;> decide

omit [LinearOrder K] [AddCommMonoid K] in
/-- Where no alignment rounds up, a trade is in a coarse interval just when its
one-minute interval starts there. -/
theorem minute_start_within (tf : Timeframe) (t : Trade K) {s : ℤ} (hs : tf.durationMillis ∣ s)
    (hmin : t.intervalStart .ONE_MINUTE ≤ t.millis) (htf : t.intervalStart tf ≤ t.millis) :
    t.intervalStart tf = s ↔
      s ≤ t.intervalStart .ONE_MINUTE ∧ t.intervalStart .ONE_MINUTE < s + tf.durationMillis := by
  have hiff := tf.alignToInterval_eq_iff htf hs
  change t.intervalStart tf = s ↔ _ at hiff
  have hlt : t.millis < t.intervalStart .ONE_MINUTE + Timeframe.ONE_MINUTE.durationMillis :=
    Timeframe.ONE_MINUTE.lt_alignToInterval_add t.millis
  have hm : Timeframe.ONE_MINUTE.durationMillis ∣ t.intervalStart .ONE_MINUTE :=
    Timeframe.ONE_MINUTE.durationMillis_dvd_align t.millis
  rw [hiff]
  constructor
  · rintro ⟨h1, h2⟩
    refine ⟨?_, by omega⟩
    by_contra hlt'
    -- Two multiples of a minute that differ do so by a minute at least.
    have := Int.le_of_dvd (by omega) (((minute_dvd tf).trans hs).sub hm)
    omega
  · rintro ⟨h1, h2⟩
    refine ⟨by omega, ?_⟩
    have hd : Timeframe.ONE_MINUTE.durationMillis ∣
        s + tf.durationMillis - t.intervalStart .ONE_MINUTE :=
      (((minute_dvd tf).trans hs).add (minute_dvd tf)).sub hm
    have := Int.le_of_dvd (by omega) hd
    omega

section
variable {tf : Timeframe} {p : String} {ts : List (Trade K)} {minutes : List (Candle K)}
  {c m : Candle K}

theorem mem_minutesWithin_iff (hmin : CandleSeries .ONE_MINUTE p ts minutes)
    (hts : ∀ t ∈ ts, t.intervalStart .ONE_MINUTE ≤ t.millis) :
    m ∈ minutesWithin tf ts minutes c ↔ m ∈ minutes ∧ c.start ≤ m.start ∧
      m.start < c.start + tf.durationMillis ∧ tradesAt .ONE_MINUTE m.start ts ≠ [] := by
  rw [minutesWithin, List.mem_filter, decide_eq_true_iff]
  apply and_congr_right
  intro hm
  rw [received_eq_tradesAt .ONE_MINUTE ts m hts (hmin.aligned m hm)]

/-- The trades of the minutes within an interval are the trades of the interval. -/
theorem flatMap_minutesWithin (hmin : CandleSeries .ONE_MINUTE p ts minutes)
    (hc : tf.durationMillis ∣ c.start)
    (hsorted : ts.Pairwise fun t u =>
      t.intervalStart .ONE_MINUTE ≤ u.intervalStart .ONE_MINUTE)
    (hts : ∀ t ∈ ts, t.intervalStart .ONE_MINUTE ≤ t.millis ∧ t.intervalStart tf ≤ t.millis) :
    ((minutesWithin tf ts minutes c).flatMap fun m => tradesAt .ONE_MINUTE m.start ts) =
      tradesAt tf c.start ts := by
  have hmem {m : Candle K} :=
    @mem_minutesWithin_iff K _ _ tf p ts minutes c m hmin fun t ht => (hts t ht).1
  have hwithin (t : Trade K) (ht : t ∈ ts) : t.intervalStart tf = c.start ↔
      c.start ≤ t.intervalStart .ONE_MINUTE ∧
        t.intervalStart .ONE_MINUTE < c.start + tf.durationMillis :=
    minute_start_within tf t hc (hts t ht).1 (hts t ht).2
  -- The trades of a minute are a group of those of the interval.
  have hpart (m : Candle K) (hm : m ∈ minutesWithin tf ts minutes c) :
      (tradesAt tf c.start ts).filter (fun t => t.intervalStart .ONE_MINUTE = m.start) =
        tradesAt .ONE_MINUTE m.start ts := by
    obtain ⟨_, h2, h3, _⟩ := hmem.mp hm
    rw [tradesAt, tradesAt, List.filter_filter]
    apply List.filter_congr
    intro t ht
    rw [← Bool.decide_and, decide_eq_decide]
    constructor
    · exact And.left
    · intro he
      exact ⟨he, (hwithin t ht).mpr (by rw [he]; exact ⟨h2, h3⟩)⟩
  have hstarts : ((minutesWithin tf ts minutes c).map Candle.start).Pairwise (· < ·) := by
    rw [List.pairwise_map]
    exact hmin.increasing.filter _
  -- No trade is left out: its minute has a candle, and lies within.
  have hcover : ∀ t ∈ tradesAt tf c.start ts,
      t.intervalStart .ONE_MINUTE ∈ (minutesWithin tf ts minutes c).map Candle.start := by
    intro t ht
    obtain ⟨ht, he⟩ := List.mem_filter.mp ht
    obtain ⟨m, hm, hme⟩ := hmin.covered t ht
    obtain ⟨h1, h2⟩ := (hwithin t ht).mp (of_decide_eq_true he)
    refine List.mem_map.mpr ⟨m, hmem.mpr ⟨hm, ?_, ?_, ?_⟩, hme⟩
    · rw [hme]
      exact h1
    · rw [hme]
      exact h2
    · exact List.ne_nil_of_mem (List.mem_filter.mpr ⟨ht, by simp [hme]⟩)
  have hgroups := OrderedGroups.flatMap_filter_eq
    (fun t : Trade K => t.intervalStart .ONE_MINUTE) (tradesAt tf c.start ts)
    (hsorted.filter _) _ hstarts hcover
  rw [List.flatMap_map] at hgroups
  refine Eq.trans ?_ hgroups
  apply List.flatMap_congr
  intro m hm
  exact (hpart m hm).symm

end

/-- Two series over the same trades agree on every interval that has trades. -/
theorem series_rollsUp (tf : Timeframe) (p : String) (ts : List (Trade K))
    (minutes coarse : List (Candle K)) (hmin : CandleSeries .ONE_MINUTE p ts minutes)
    (hcoarse : CandleSeries tf p ts coarse)
    (hsorted : ts.Pairwise fun t u =>
      t.intervalStart .ONE_MINUTE ≤ u.intervalStart .ONE_MINUTE)
    (hts : ∀ t ∈ ts, t.intervalStart .ONE_MINUTE ≤ t.millis ∧ t.intervalStart tf ≤ t.millis)
    (c : Candle K) (hc : c ∈ coarse) (hne : received tf ts c ≠ []) :
    RollsUp (minutesWithin tf ts minutes c) c := by
  have hcd := hcoarse.aligned c hc
  rw [received_eq_tradesAt tf ts c (fun t ht => (hts t ht).2) hcd] at hne
  apply rollsUp_of_summarizes _ fun m => tradesAt .ONE_MINUTE m.start ts
  · intro m hm
    obtain ⟨hmem, -, -, htraded⟩ :=
      (mem_minutesWithin_iff hmin fun t ht => (hts t ht).1).mp hm
    exact hmin.summary m hmem htraded
  · rw [flatMap_minutesWithin hmin hcd hsorted hts]
    exact hcoarse.summary c hc hne

namespace CandleAggregationPipeline

/-- Every candle of timeframe `tf` whose interval received trades is the roll-up of
the one-minute candles with trades in that interval. -/
def RollUpAgreement (pl : CandleAggregationPipeline K) (trades : List (Trade K)) : Prop :=
  ∀ agg ∈ pl.aggregators, ∀ (p : String), ∀ c ∈ pl.candleStore.series p agg.timeframe,
    received agg.timeframe (trades.filter fun t => t.currencyPair = p) c ≠ [] →
      RollsUp (minutesWithin agg.timeframe (trades.filter fun t => t.currencyPair = p)
        (pl.candleStore.series p .ONE_MINUTE) c) c

/-- The final state after some trades and a flush. -/
def afterTrades (pl : CandleAggregationPipeline K) (trades : List (Trade K))
    (order : Timeframe → IterationOrder (Sigma fun _ : String => CandleBuilder K)) :
    CandleAggregationPipeline K :=
  pl.runCalls (trades.map .onTrade ++ [.flush order])

omit [LinearOrder K] [AddCommMonoid K] in
theorem map_forTimeframe (tf : Timeframe) (trades : List (Trade K))
    (order : Timeframe → IterationOrder (Sigma fun _ : String => CandleBuilder K)) :
    (trades.map PipelineCall.onTrade ++ [PipelineCall.flush order]).map
        (PipelineCall.forTimeframe tf) =
      trades.map Call.onTrade ++ [Call.flush (order tf)] := by
  rw [List.map_append, List.map_map]
  rfl

/-- Roll-up agreement for every chronological stream none of whose trades is
aligned to an interval that starts after it. -/
theorem rollUp_of_alignment_not_after {timeframes : List Timeframe}
    {pl : CandleAggregationPipeline K} (hnew : new .empty timeframes = some pl)
    (hminute : Timeframe.ONE_MINUTE ∈ timeframes) (trades : List (Trade K))
    (order : Timeframe → IterationOrder (Sigma fun _ : String => CandleBuilder K))
    (hchron : ChronologicalPerPair trades)
    (halign : ∀ t ∈ trades, ∀ tf ∈ timeframes, tf.alignToInterval t.millis ≤ t.millis) :
    (pl.afterTrades trades order).RollUpAgreement trades := by
  have hsplit := runCalls_splits hnew (trades.map .onTrade ++ [.flush order])
  intro agg hagg p c hc hne
  -- an aggregator keeps the timeframe that it was made with
  have htf : agg.timeframe ∈ timeframes := by
    rw [afterTrades, hsplit.aggregators] at hagg
    obtain ⟨tf, htf, rfl⟩ := List.mem_map.mp hagg
    rw [run_timeframe]
    exact htf
  have hseries (tf : Timeframe) (h : tf ∈ timeframes) :
      CandleSeries tf p (trades.filter fun t => t.currencyPair = p)
        ((pl.afterTrades trades order).candleStore.series p tf) := by
    rw [afterTrades, hsplit.series tf h p, map_forTimeframe]
    exact emittedFor_series tf trades (order tf) hchron p
  refine series_rollsUp agg.timeframe p _ _ _ (hseries _ hminute) (hseries _ htf)
    (hchron.intervals _ p) ?_ c hc hne
  intro t ht
  have ht := (List.mem_filter.mp ht).1
  exact ⟨halign t ht _ hminute, halign t ht _ htf⟩

def tradesAfterEpoch : List (Trade ℤ) :=
  [⟨⟨0, 0⟩, "BTC/USD", 10, 1, Timestamp.valid_epoch⟩, ⟨⟨200, 0⟩, "BTC/USD", 20, 1, by decide⟩]

theorem rollUp_of_tradesAfterEpoch : ∃ pl : CandleAggregationPipeline ℤ,
    new .empty [.ONE_MINUTE, .FIVE_MINUTES] = some pl ∧
      (pl.afterTrades tradesAfterEpoch fun _ => .insertion _).RollUpAgreement tradesAfterEpoch := by
  have hnew : (new .empty [.ONE_MINUTE, .FIVE_MINUTES] :
      Option (CandleAggregationPipeline ℤ)) = some _ := rfl
  refine ⟨_, hnew, rollUp_of_alignment_not_after hnew (by decide) _ _ ?_ (by decide)⟩
  unfold ChronologicalPerPair
  decide

def tradesAroundEpoch : List (Trade ℤ) :=
  [⟨⟨-120, 0⟩, "BTC/USD", 10, 1, by decide⟩, ⟨⟨0, 0⟩, "BTC/USD", 20, 1, Timestamp.valid_epoch⟩]

theorem rollUp_fails_around_epoch : ∃ pl : CandleAggregationPipeline ℤ,
    new .empty [.ONE_MINUTE, .FIVE_MINUTES] = some pl ∧ ChronologicalPerPair tradesAroundEpoch ∧
      ¬ (pl.afterTrades tradesAroundEpoch fun _ => .insertion _).RollUpAgreement
        tradesAroundEpoch := by
  refine ⟨_, rfl, ?_, ?_⟩
  · unfold ChronologicalPerPair
    decide
  · intro h
    -- The five-minute candle of the epoch opens with the trade from two minutes before it.
    have hopen := (h _ (.tail _ (.head _)) "BTC/USD" ⟨⟨0, 0⟩, "BTC/USD", 10, 20, 10, 20, 2⟩
      (by decide) (by decide)).openPrice
    revert hopen
    decide

end CandleAggregationPipeline

end TradeStream.MarketData
