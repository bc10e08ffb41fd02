import TradeStream.CandlePipeline

/-! The order of the stored candles under any calls, flushes in the middle and late
trades included. -/
namespace TradeStream.MarketData
open TradeStream.Transducer

section Calls
variable {K : Type*}

/-- A trade of `calls` after which a flush came. -/
def FlushedIn (calls : List (PairCall K)) (t : Trade K) : Prop :=
  ∃ before after, calls = before ++ after ∧ .onTrade t ∈ before ∧ .flush ∈ after

/-- `u` may arrive after `pre`: its interval is not before that of an earlier trade,
and after that of every flushed one. -/
def InTime (tf : Timeframe) (pre : List (PairCall K)) (u : Trade K) : Prop :=
  (∀ t, .onTrade t ∈ pre → t.intervalStart tf ≤ u.intervalStart tf) ∧
    ∀ t, FlushedIn pre t → t.intervalStart tf < u.intervalStart tf

/-- Every trade of the calls arrives in time. -/
def InOrder (tf : Timeframe) (calls : List (PairCall K)) : Prop :=
  ∀ pre u, pre ++ [.onTrade u] <+: calls → InTime tf pre u

theorem flushedIn_concat_trade (calls : List (PairCall K)) (u t : Trade K) :
    FlushedIn (calls ++ [.onTrade u]) t ↔ FlushedIn calls t := by
  constructor
  · rintro ⟨a, b, he, ha, hb⟩
    -- The flush is in `b`, so `b` ends with the new trade and has more before it.
    induction b using List.reverseRecOn with
    | nil => simp at hb
    | append_singleton b c _ =>
      rw [← List.append_assoc] at he
      obtain ⟨hab, hc⟩ := List.append_inj' he rfl
      obtain rfl := List.singleton_inj.mp hc
      refine ⟨a, b, hab, ha, ?_⟩
      simpa using hb
  · rintro ⟨a, b, rfl, ha, hb⟩
    exact ⟨a, b ++ [.onTrade u], by simp, ha, by simp [hb]⟩

theorem flushedIn_concat_flush (calls : List (PairCall K)) (t : Trade K) :
    FlushedIn (calls ++ [.flush]) t ↔ .onTrade t ∈ calls := by
  constructor
  · rintro ⟨a, b, he, ha, hb⟩
    have ht : PairCall.onTrade t ∈ calls ++ [.flush] := by
      rw [he]
      exact List.mem_append_left _ ha
    simpa using ht
  · intro ht
    exact ⟨calls, [.flush], rfl, ht, List.mem_singleton_self _⟩

theorem inOrder_concat (tf : Timeframe) (calls : List (PairCall K)) (call : PairCall K) :
    InOrder tf (calls ++ [call]) ↔
      InOrder tf calls ∧ ∀ u, call = .onTrade u → InTime tf calls u := by
  constructor
  · intro h
    refine ⟨fun pre u hp => h pre u (hp.trans (List.prefix_append _ _)), ?_⟩
    intro u hu
    exact h calls u (by rw [hu])
  · rintro ⟨h, hu⟩ pre u hp
    rcases List.prefix_concat_iff.mp hp with he | hp
    · obtain ⟨rfl, hc⟩ := List.append_inj' he rfl
      exact hu u (List.singleton_inj.mp hc).symm
    · exact h pre u hp

/-- What holds of one pair's builder `b` and candles `out` after calls in order. -/
structure OrderedSeries (tf : Timeframe) (calls : List (PairCall K))
    (b : Option (CandleBuilder K)) (out : List (Candle K)) : Prop where
  increasing : (out ++ b.toList.map CandleBuilder.build).Pairwise fun a c => a.start < c.start
  covered : ∀ t, .onTrade t ∈ calls →
    ∃ c ∈ out ++ b.toList.map CandleBuilder.build, c.start = t.intervalStart tf
  flushed : ∀ t, FlushedIn calls t → ∃ c ∈ out, c.start = t.intervalStart tf
  closed : b = none → ∀ c ∈ out, ∃ t, FlushedIn calls t ∧ c.start ≤ t.intervalStart tf
  current : ∀ b₀ ∈ b, ∃ t, .onTrade t ∈ calls ∧ t.intervalStart tf = b₀.intervalStart

theorem OrderedSeries.flush {tf : Timeframe} {calls : List (PairCall K)}
    {b : Option (CandleBuilder K)} {out : List (Candle K)} (h : OrderedSeries tf calls b out) :
    OrderedSeries tf (calls ++ [.flush]) none (out ++ b.toList.map CandleBuilder.build) where
  increasing := by simpa using h.increasing
  covered := by
    intro t ht
    simpa using h.covered t (by simpa using ht)
  flushed := by
    intro t ht
    exact h.covered t ((flushedIn_concat_flush calls t).mp ht)
  closed := by
    intro _ c hc
    cases b with
    | none =>
      obtain ⟨t, ⟨pre, post, he, ht, _⟩, hle⟩ := h.closed rfl c (by simpa using hc)
      exact ⟨t, (flushedIn_concat_flush calls t).mpr (by simp [he, ht]), hle⟩
    | some b₀ =>
      -- The open candle is the last one, and some trade opened it.
      obtain ⟨t, ht, hs⟩ := h.current b₀ rfl
      refine ⟨t, (flushedIn_concat_flush calls t).mpr ht, ?_⟩
      rw [hs]
      rcases List.mem_append.mp hc with hc | hc
      · have hlt := (List.pairwise_append.mp h.increasing).2.2 c hc b₀.build (by simp)
        rw [CandleBuilder.build_start] at hlt
        exact hlt.le
      · obtain rfl : c = b₀.build := by simpa using hc
        exact (CandleBuilder.build_start b₀).le
  current := by simp

/-- The first trade after a flush, or of all: it opens a candle after all others. -/
theorem OrderedSeries.opening {tf : Timeframe} {calls : List (PairCall K)}
    {out : List (Candle K)} (h : OrderedSeries tf calls none out) (u : Trade K)
    (hu : InTime tf calls u) :
    OrderedSeries tf (calls ++ [.onTrade u]) (some (.ofTrade tf u)) out where
  increasing := by
    have hout : out.Pairwise fun a c => a.start < c.start := by simpa using h.increasing
    refine List.pairwise_append.mpr ⟨hout, List.pairwise_singleton _ _, ?_⟩
    intro c hc d hd
    obtain rfl : d = (CandleBuilder.ofTrade tf u).build := by simpa using hd
    -- every candle so far was closed by a call that the trade comes after
    obtain ⟨t, ht, hle⟩ := h.closed rfl c hc
    have hlt := hu.2 t ht
    rw [CandleBuilder.build_start]
    exact hle.trans_lt hlt
  covered := by
    intro t ht
    have ht' : PairCall.onTrade t ∈ calls ∨ t = u := by simpa using ht
    rcases ht' with ht | rfl
    · obtain ⟨c, hc, he⟩ := h.covered t ht
      exact ⟨c, List.mem_append_left _ (by simpa using hc), he⟩
    · exact ⟨(CandleBuilder.ofTrade tf t).build, by simp, CandleBuilder.build_start _⟩
  flushed := by
    intro t ht
    exact h.flushed t ((flushedIn_concat_trade calls u t).mp ht)
  closed := by simp
  current := by
    intro b₀ hb
    obtain rfl := Option.some.inj hb
    exact ⟨u, by simp, rfl⟩

end Calls

variable {K : Type*} [LinearOrder K] [AddCommMonoid K]

omit [LinearOrder K] in
theorem gapFill_increasing (tf : Timeframe) (pair : String) (price : K) (n g : ℤ) :
    (gapFill tf pair price n g).Pairwise fun a c => a.start < c.start := by
  have hd := tf.durationMillis_pos
  induction hk : (n - g).toNat using Nat.strong_induction_on generalizing g with
  | _ k ih =>
    rw [gapFill_eq]
    by_cases hg : g < n
    · rw [if_pos hg, List.pairwise_cons]
      refine ⟨?_, ih _ (by omega) _ rfl⟩
      intro c hc
      have hle := (gapFill_mem tf pair price n _ c hc).1
      have hs : (buildGapCandle pair g price : Candle K).start = g := by
        simp [buildGapCandle, Candle.start]
      omega
    · rw [if_neg hg]
      exact List.Pairwise.nil

/-- A trade of the open interval. -/
theorem OrderedSeries.update {tf : Timeframe} {calls : List (PairCall K)} {b : CandleBuilder K}
    {out : List (Candle K)} (h : OrderedSeries tf calls (some b) out) (u : Trade K)
    (hu : b.intervalStart = u.intervalStart tf) :
    OrderedSeries tf (calls ++ [.onTrade u]) (some (b.update u.price u.volume)) out where
  increasing := by
    obtain ⟨h1, _, h3⟩ := List.pairwise_append.mp h.increasing
    refine List.pairwise_append.mpr ⟨h1, List.pairwise_singleton _ _, ?_⟩
    intro c hc d hd
    obtain rfl : d = (b.update u.price u.volume).build := by simpa using hd
    -- the open candle starts where it did
    have hlt := h3 c hc b.build (by simp)
    rw [CandleBuilder.build_start] at hlt ⊢
    exact hlt
  covered := by
    intro t ht
    have ht' : PairCall.onTrade t ∈ calls ∨ t = u := by simpa using ht
    have hlast : (b.update u.price u.volume).build ∈
        out ++ [(b.update u.price u.volume).build] := by simp
    rcases ht' with ht | rfl
    · obtain ⟨c, hc, he⟩ := h.covered t ht
      rcases List.mem_append.mp hc with hc | hc
      · exact ⟨c, List.mem_append_left _ hc, he⟩
      · obtain rfl : c = b.build := by simpa using hc
        rw [CandleBuilder.build_start] at he
        exact ⟨_, hlast, (CandleBuilder.build_start _).trans he⟩
    · exact ⟨_, hlast, (CandleBuilder.build_start _).trans hu⟩
  flushed := by
    intro t ht
    exact h.flushed t ((flushedIn_concat_trade calls u t).mp ht)
  closed := by simp
  current := by
    intro b₀ hb
    obtain rfl := Option.some.inj hb
    exact ⟨u, by simp, hu.symm⟩

omit [LinearOrder K] in
/-- A trade of a later interval: the closed candle, the gap and the new candle
follow each other. -/
theorem OrderedSeries.advance {tf : Timeframe} {calls : List (PairCall K)} {b : CandleBuilder K}
    {out : List (Candle K)} (h : OrderedSeries tf calls (some b) out) (u : Trade K)
    (hu : b.intervalStart < u.intervalStart tf) :
    OrderedSeries tf (calls ++ [.onTrade u]) (some (.ofTrade tf u))
      (out ++ emitWithGapFill tf u.currencyPair b (u.intervalStart tf)) := by
  have hd := tf.durationMillis_pos
  set gap := gapFill tf u.currencyPair b.build.close (u.intervalStart tf)
    (b.intervalStart + tf.durationMillis) with hgapdef
  set new := (CandleBuilder.ofTrade tf u).build with hnewdef
  have hnew : new.start = u.intervalStart tf := CandleBuilder.build_start _
  have hgap (c : Candle K) (hc : c ∈ gap) :
      b.intervalStart < c.start ∧ c.start < u.intervalStart tf := by
    obtain ⟨h1, h2, _⟩ := gapFill_mem tf _ _ _ _ c hc
    exact ⟨by omega, h2⟩
  have hsplit : out ++ emitWithGapFill tf u.currencyPair b (u.intervalStart tf) =
      (out ++ [b.build]) ++ gap := by simp [emitWithGapFill, hgapdef]
  have hold : (out ++ [b.build]).Pairwise fun a c => a.start < c.start := h.increasing
  -- The open candle is the greatest of the old ones.
  have hmax (c : Candle K) (hc : c ∈ out ++ [b.build]) : c.start ≤ b.intervalStart := by
    rcases List.mem_append.mp hc with hc | hc
    · have hlt := (List.pairwise_append.mp hold).2.2 c hc b.build (by simp)
      rw [CandleBuilder.build_start] at hlt
      exact hlt.le
    · rw [List.mem_singleton.mp hc, CandleBuilder.build_start]
  refine { increasing := ?_, covered := ?_, flushed := ?_, closed := by simp, current := ?_ }
  · rw [hsplit, List.append_assoc]
    refine List.pairwise_append.mpr ⟨hold, ?_, ?_⟩
    · refine List.pairwise_append.mpr
        ⟨gapFill_increasing tf _ _ _ _, List.pairwise_singleton _ _, ?_⟩
      intro c hc d hd
      obtain rfl : d = new := by simpa using hd
      rw [hnew]
      exact (hgap c hc).2
    · intro a ha c hc
      have hle := hmax a ha
      rcases List.mem_append.mp hc with hc | hc
      · have := (hgap c hc).1
        omega
      · obtain rfl : c = new := by simpa using hc
        omega
  · intro t ht
    have ht' : PairCall.onTrade t ∈ calls ∨ t = u := by simpa using ht
    rw [hsplit]
    rcases ht' with ht | rfl
    · obtain ⟨c, hc, he⟩ := h.covered t ht
      exact ⟨c, List.mem_append_left _ (List.mem_append_left _ hc), he⟩
    · exact ⟨new, by simp [hnewdef], hnew⟩
  · intro t ht
    obtain ⟨c, hc, he⟩ := h.flushed t ((flushedIn_concat_trade calls u t).mp ht)
    exact ⟨c, List.mem_append_left _ hc, he⟩
  · intro b₀ hb
    obtain rfl := Option.some.inj hb
    exact ⟨u, by simp, rfl⟩

/-- One call that is in time keeps the series ordered. -/
theorem OrderedSeries.step {tf : Timeframe} {calls : List (PairCall K)}
    {b : Option (CandleBuilder K)} {out : List (Candle K)} (h : OrderedSeries tf calls b out)
    (call : PairCall K) (hcall : ∀ u, call = .onTrade u → InTime tf calls u) :
    OrderedSeries tf (calls ++ [call]) (pairStep tf b call).1 (out ++ (pairStep tf b call).2) := by
  cases call with
  | flush => exact h.flush
  | onTrade u =>
    have hu := hcall u rfl
    cases b with
    | none => simpa [pairStep] using h.opening u hu
    | some b =>
      obtain ⟨t, ht, hs⟩ := h.current b rfl
      have hle : b.intervalStart ≤ u.intervalStart tf := hs ▸ hu.1 t ht
      by_cases heq : b.intervalStart = u.intervalStart tf
      · simpa [pairStep, heq] using h.update u heq
      · simpa [pairStep, heq] using h.advance u (lt_of_le_of_ne hle heq)

theorem run_orderedSeries (tf : Timeframe) (calls : List (PairCall K)) (h : InOrder tf calls) :
    OrderedSeries tf calls (run (pairStep tf) none calls).1 (run (pairStep tf) none calls).2 := by
  induction calls using List.reverseRecOn with
  | nil => constructor <;> simp [FlushedIn]
  | append_singleton calls call ih =>
    obtain ⟨hcalls, hcall⟩ := (inOrder_concat tf calls call).mp h
    rw [run_concat]
    exact (ih hcalls).step call hcall

/-- A trade that is not in time gets a candle that does not come after all others. -/
theorem OrderedSeries.not_increasing_of_late {tf : Timeframe} {calls : List (PairCall K)}
    {b : Option (CandleBuilder K)} {out : List (Candle K)} (h : OrderedSeries tf calls b out)
    (u : Trade K) (hu : ¬ InTime tf calls u) :
    ¬ (out ++ (run (pairStep tf) b [.onTrade u, .flush]).2).Pairwise
      fun a c => a.start < c.start := by
  -- Some candle up to now starts at or after the interval of `u`, in `out` if `u` meets it.
  have hlate : ∃ c ∈ out ++ b.toList.map CandleBuilder.build, u.intervalStart tf ≤ c.start ∧
      ((∃ b₀ ∈ b, b₀.intervalStart = u.intervalStart tf) → c ∈ out ∨
        u.intervalStart tf < c.start) := by
    by_cases h1 : ∀ t, .onTrade t ∈ calls → t.intervalStart tf ≤ u.intervalStart tf
    · have h2 : ¬ ∀ t, FlushedIn calls t → t.intervalStart tf < u.intervalStart tf :=
        fun h2 => hu ⟨h1, h2⟩
      push Not at h2
      obtain ⟨t, ht, hle⟩ := h2
      obtain ⟨c, hc, he⟩ := h.flushed t ht
      exact ⟨c, List.mem_append_left _ hc, by omega, fun _ => Or.inl hc⟩
    · push Not at h1
      obtain ⟨t, ht, hlt⟩ := h1
      obtain ⟨c, hc, he⟩ := h.covered t ht
      exact ⟨c, hc, by omega, fun _ => Or.inr (by omega)⟩
  obtain ⟨c, hc, hle, hmeets⟩ := hlate
  have hnew : (CandleBuilder.ofTrade tf u).build.start = u.intervalStart tf :=
    CandleBuilder.build_start _
  intro hinc
  cases b with
  | none =>
    have hlt := (List.pairwise_append.mp hinc).2.2 c (by simpa using hc)
      (CandleBuilder.ofTrade tf u).build (by simp [run, pairStep])
    omega
  | some b =>
    by_cases heq : b.intervalStart = u.intervalStart tf
    · -- Then the open candle is the last one, and `c` cannot lie at or after it.
      have hlast : c ∈ out ∨ c = b.build := by simpa using hc
      have hbs : b.build.start = u.intervalStart tf := (CandleBuilder.build_start b).trans heq
      rcases hlast with hc | rfl
      · have hlt := (List.pairwise_append.mp h.increasing).2.2 c hc b.build (by simp)
        omega
      · rcases hmeets ⟨b, rfl, heq⟩ with hc | hlt
        · have hlt := (List.pairwise_append.mp h.increasing).2.2 _ hc b.build (by simp)
          exact lt_irrefl _ hlt
        · omega
    · have hrun : (run (pairStep tf) (some b) [.onTrade u, .flush]).2 =
          emitWithGapFill tf u.currencyPair b (u.intervalStart tf) ++
            [(CandleBuilder.ofTrade tf u).build] := by simp [run, pairStep, heq]
      rw [hrun, ← List.append_assoc] at hinc
      have hmem : c ∈ out ++ emitWithGapFill tf u.currencyPair b (u.intervalStart tf) := by
        have hc' : c ∈ out ∨ c = b.build := by simpa using hc
        rcases hc' with hc | rfl
        · exact List.mem_append_left _ hc
        · simp [emitWithGapFill]
      have hlt := (List.pairwise_append.mp hinc).2.2 c hmem _ (List.mem_singleton_self _)
      omega

/-- The series of a pair stays increasing, wherever a flush comes, just when its
trades are in order. -/
theorem inOrder_iff_increasing (tf : Timeframe) (calls : List (PairCall K)) :
    InOrder tf calls ↔ ∀ pre, pre <+: calls →
      (run (pairStep tf) none (pre ++ [.flush])).2.Pairwise fun a c => a.start < c.start := by
  constructor
  · intro h pre hpre
    have hser := run_orderedSeries tf pre fun p u hp => h p u (hp.trans hpre)
    rw [run_concat]
    exact hser.increasing
  · intro h
    induction calls using List.reverseRecOn with
    | nil =>
      intro pre u hp
      simp at hp
    | append_singleton calls call ih =>
      have hcalls := ih fun pre hpre => h pre (hpre.trans (List.prefix_append _ _))
      refine (inOrder_concat tf calls call).mpr ⟨hcalls, ?_⟩
      rintro u rfl
      by_contra hu
      apply (run_orderedSeries tf calls hcalls).not_increasing_of_late u hu
      have hall := h (calls ++ [.onTrade u]) (List.prefix_refl _)
      rw [List.append_assoc, run_append] at hall
      exact hall

/-- The part of a pipeline's call that one pair takes notice of. -/
def PipelineCall.forPair (p : String) : PipelineCall K → Option (PairCall K)
  | .onTrade trade => if trade.currencyPair = p then some (.onTrade trade) else none
  | .flush _ => some .flush

omit [LinearOrder K] [AddCommMonoid K] in
theorem filterMap_forTimeframe (tf : Timeframe) (p : String) (calls : List (PipelineCall K)) :
    (calls.map (PipelineCall.forTimeframe tf)).filterMap (Call.forPair p) =
      calls.filterMap (PipelineCall.forPair p) := by
  rw [List.filterMap_map]
  apply List.filterMap_congr
  intro call _
  cases call <;> rfl

namespace CandleAggregationPipeline

/-- The stored candles of every pair and timeframe have strictly increasing open times. -/
def StoreIncreasing (pl : CandleAggregationPipeline K) : Prop :=
  ∀ agg ∈ pl.aggregators, ∀ p,
    (pl.candleStore.series p agg.timeframe).Pairwise fun a c => a.start < c.start

theorem storeIncreasing_iff {timeframes : List Timeframe} {pl : CandleAggregationPipeline K}
    (hnew : new .empty timeframes = some pl) (calls : List (PipelineCall K)) :
    (pl.runCalls calls).StoreIncreasing ↔ ∀ tf ∈ timeframes, ∀ p,
      (run (pairStep tf) none (calls.filterMap (PipelineCall.forPair p))).2.Pairwise
        fun a c => a.start < c.start := by
  have hsplit := runCalls_splits hnew calls
  have hseries (tf : Timeframe) (htf : tf ∈ timeframes) (p : String) :
      (pl.runCalls calls).candleStore.series p tf =
        (run (pairStep tf) none (calls.filterMap (PipelineCall.forPair p))).2 := by
    rw [hsplit.series tf htf p, emittedFor_eq, filterMap_forTimeframe]
  constructor
  · -- each timeframe has its aggregator, which is where it comes from
    intro h tf htf p
    rw [← hseries tf htf p]
    have hagg : (run CandleAggregator.step (.new tf)
        (calls.map (PipelineCall.forTimeframe tf))).1 ∈ (pl.runCalls calls).aggregators := by
      rw [hsplit.aggregators]
      exact List.mem_map.mpr ⟨tf, htf, rfl⟩
    have hp := h _ hagg p
    rw [run_timeframe] at hp
    exact hp
  · intro h agg hagg p
    rw [hsplit.aggregators] at hagg
    obtain ⟨tf, htf, rfl⟩ := List.mem_map.mp hagg
    rw [run_timeframe, hseries tf htf p]
    exact h tf htf p

/-- The trades of every pair are in order for every timeframe of the pipeline. -/
def CallsInOrder (timeframes : List Timeframe) (calls : List (PipelineCall K)) : Prop :=
  ∀ tf ∈ timeframes, ∀ p, InOrder tf (calls.filterMap (PipelineCall.forPair p))

/-- Calls in order keep the store increasing in every state reached; and a flush at
any point leaves it so only then. -/
theorem store_increasing_of_calls_in_order {timeframes : List Timeframe}
    {pl : CandleAggregationPipeline K} (hnew : new .empty timeframes = some pl)
    (calls : List (PipelineCall K))
    (order : Timeframe → IterationOrder (Sigma fun _ : String => CandleBuilder K)) :
    (CallsInOrder timeframes calls →
        ∀ pre, pre <+: calls → (pl.runCalls pre).StoreIncreasing) ∧
      (CallsInOrder timeframes calls ↔
        ∀ pre, pre <+: calls → (pl.runCalls (pre ++ [.flush order])).StoreIncreasing) := by
  constructor
  · intro h pre hpre
    rw [storeIncreasing_iff hnew]
    intro tf htf p
    have hord : InOrder tf (pre.filterMap (PipelineCall.forPair p)) := fun q u hq =>
      h tf htf p q u (hq.trans (hpre.filterMap _))
    exact (List.pairwise_append.mp (run_orderedSeries tf _ hord).increasing).1
  · constructor
    · intro h pre hpre
      rw [storeIncreasing_iff hnew]
      intro tf htf p
      rw [List.filterMap_append]
      exact (inOrder_iff_increasing tf _).mp (h tf htf p) _ (hpre.filterMap _)
    · intro h tf htf p
      rw [inOrder_iff_increasing]
      intro pre hpre
      -- What one pair sees by then is what it sees of some prefix of all calls.
      obtain ⟨calls', hcalls', rfl⟩ := List.prefix_filterMap_iff.mp hpre
      have hinc := (storeIncreasing_iff hnew _).mp (h calls' hcalls') tf htf p
      rw [List.filterMap_append] at hinc
      exact hinc

def callsNextMinute : List (PipelineCall ℤ) :=
  [.onTrade ⟨⟨0, 0⟩, "BTC/USD", 10, 1, Timestamp.valid_epoch⟩, .flush fun _ => .insertion _,
    .onTrade ⟨⟨60, 0⟩, "BTC/USD", 20, 1, by decide⟩]

theorem store_increasing_of_callsNextMinute : ∃ pl : CandleAggregationPipeline ℤ,
    new .empty [.ONE_MINUTE] = some pl ∧
      ∀ pre, pre <+: callsNextMinute → (pl.runCalls pre).StoreIncreasing := by
  have hnew : (new .empty [.ONE_MINUTE] : Option (CandleAggregationPipeline ℤ)) = some _ := rfl
  refine ⟨_, hnew, (store_increasing_of_calls_in_order hnew callsNextMinute
    fun _ => .insertion _).1 ?_⟩
  intro tf htf p
  obtain rfl := List.mem_singleton.mp htf
  rw [inOrder_iff_increasing]
  -- all other pairs see nothing but the flush
  by_cases hp : "BTC/USD" = p
  · subst hp
    have hall : ∀ pre ∈ (callsNextMinute.filterMap (PipelineCall.forPair "BTC/USD")).inits,
        (run (pairStep .ONE_MINUTE) none (pre ++ [.flush])).2.Pairwise
          fun a c => a.start < c.start := by decide
    intro pre hpre
    exact hall pre ((List.mem_inits _ _).mpr hpre)
  · have hnil : callsNextMinute.filterMap (PipelineCall.forPair p) = [.flush] := by
      simp [callsNextMinute, PipelineCall.forPair, hp]
    have hall : ∀ pre ∈ ([.flush] : List (PairCall ℤ)).inits,
        (run (pairStep .ONE_MINUTE) none (pre ++ [.flush])).2.Pairwise
          fun a c => a.start < c.start := by decide
    rw [hnil]
    intro pre hpre
    exact hall pre ((List.mem_inits _ _).mpr hpre)

def callsAfterFlush : List (PipelineCall ℤ) :=
  [.onTrade ⟨⟨0, 0⟩, "BTC/USD", 10, 1, Timestamp.valid_epoch⟩, .flush fun _ => .insertion _,
    .onTrade ⟨⟨5, 0⟩, "BTC/USD", 20, 1, by decide⟩, .flush fun _ => .insertion _]

theorem store_not_increasing_of_callsAfterFlush : ∃ pl : CandleAggregationPipeline ℤ,
    new .empty [.ONE_MINUTE] = some pl ∧ ¬ (pl.runCalls callsAfterFlush).StoreIncreasing := by
  refine ⟨_, rfl, ?_⟩
  intro h
  have hpair := h _ (.head _) "BTC/USD"
  revert hpair
  decide

end CandleAggregationPipeline

end TradeStream.MarketData
