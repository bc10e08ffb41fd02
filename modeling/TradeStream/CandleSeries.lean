import TradeStream.CandleAggregator

/-! One currency pair of an aggregator seen on its own: the builder of that pair
and the candles emitted for it. -/
namespace TradeStream.MarketData
open TradeStream.Transducer

variable {K : Type*} [LinearOrder K] [AddCommMonoid K]

/-- The calls that concern one pair. -/
inductive PairCall (K : Type*) where
  | onTrade (trade : Trade K)
  | flush

/-- `onTrade` and `flush` on the entry of one pair. -/
def pairStep (tf : Timeframe) (builder : Option (CandleBuilder K)) :
    PairCall K → Option (CandleBuilder K) × List (Candle K)
  | .onTrade trade =>
    match builder with
    | none => (some (.ofTrade tf trade), [])
    | some b =>
      if b.intervalStart ≠ trade.intervalStart tf then
        (some (.ofTrade tf trade),
          emitWithGapFill tf trade.currencyPair b (trade.intervalStart tf))
      else (some (b.update trade.price trade.volume), [])
  | .flush => (none, builder.toList.map CandleBuilder.build)

/-- The part of a call that one pair takes notice of. -/
def Call.forPair (p : String) : Call K → Option (PairCall K)
  | .onTrade trade => if trade.currencyPair = p then some (.onTrade trade) else none
  | .flush _ => some .flush

omit [LinearOrder K] in
theorem gapFill_currencyPair (tf : Timeframe) (pair : String) (lastClose : K) (n g : ℤ) :
    ∀ c ∈ gapFill tf pair lastClose n g, c.currencyPair = pair := by
  unfold gapFill
  generalize (n - g).toNat = fuel
  induction fuel generalizing g with
  | zero => simp [gapLoop]
  | succ fuel ih =>
    intro c hc
    rw [gapLoop] at hc
    split_ifs at hc
    · rcases List.mem_cons.mp hc with rfl | hc
      · rfl
      · exact ih _ c hc
    · simp at hc

omit [LinearOrder K] in
theorem emitWithGapFill_currencyPair (tf : Timeframe) (b : CandleBuilder K) (n : ℤ) :
    ∀ c ∈ emitWithGapFill tf b.pair b n, c.currencyPair = b.pair := by
  intro c hc
  rcases List.mem_cons.mp hc with rfl | hc
  · rfl
  · exact gapFill_currencyPair tf _ _ _ _ c hc

omit [LinearOrder K] [AddCommMonoid K] in
/-- Among entries filed under their own pair, a pair has the candle of its own
builder only. -/
theorem filter_built_entries (p : String) (l : List (Sigma fun _ : String => CandleBuilder K))
    (hk : l.NodupKeys) (hf : ∀ e ∈ l, e.2.pair = e.1) :
    (l.map fun e => e.2.build).filter (fun c => c.currencyPair = p) =
      (l.dlookup p).toList.map CandleBuilder.build := by
  rw [← List.lookupAll_eq_dlookup p hk]
  clear hk
  induction l with
  | nil => rfl
  | cons e l ih =>
    obtain ⟨q, b⟩ := e
    have hb : b.pair = q := hf ⟨q, b⟩ List.mem_cons_self
    have hl := ih fun e he => hf e (List.mem_cons_of_mem _ he)
    by_cases hq : p = q
    · subst hq
      rw [List.lookupAll_cons_eq, List.map_cons,
        List.filter_cons_of_pos (by simp [CandleBuilder.build, hb]), hl, List.map_cons]
    · rw [List.lookupAll_cons_ne _ _ hq, List.map_cons,
        List.filter_cons_of_neg (by simp [CandleBuilder.build, hb, Ne.symm hq]), hl]

namespace CandleAggregator

omit [LinearOrder K] [AddCommMonoid K] in
@[simp] theorem put_timeframe (agg : CandleAggregator K) (b : CandleBuilder K) :
    (agg.put b).timeframe = agg.timeframe := rfl

omit [LinearOrder K] [AddCommMonoid K] in
theorem put_lookup (agg : CandleAggregator K) (b : CandleBuilder K) (p : String) :
    (agg.put b).activeCandles.lookup p =
      if p = b.pair then some b else agg.activeCandles.lookup p := by
  by_cases hp : p = b.pair
  · subst hp
    rw [if_pos rfl]
    exact AList.lookup_insert _
  · rw [if_neg hp]
    exact AList.lookup_insert_ne hp

omit [LinearOrder K] [AddCommMonoid K] in
theorem filed_entries (agg : CandleAggregator K) :
    ∀ e ∈ agg.activeCandles.entries, e.2.pair = e.1 := by
  rintro ⟨p, b⟩ he
  exact agg.filed p b (AList.mem_lookup_iff.mpr he)

theorem step_timeframe (agg : CandleAggregator K) (call : Call K) :
    (agg.step call).1.timeframe = agg.timeframe := by
  cases call with
  | flush order => rfl
  | onTrade trade =>
    simp only [step, onTrade]
    split
    · rfl
    · split_ifs <;> rfl

omit [LinearOrder K] [AddCommMonoid K] in
theorem flush_forPair (agg : CandleAggregator K)
    (order : IterationOrder (Sigma fun _ : String => CandleBuilder K)) (p : String) :
    (agg.flush order).2.filter (fun c => c.currencyPair = p) =
      (agg.activeCandles.lookup p).toList.map CandleBuilder.build := by
  have hl := filter_built_entries p agg.activeCandles.entries agg.activeCandles.nodupKeys
    agg.filed_entries
  have hperm : ((agg.flush order).2.filter fun c => c.currencyPair = p).Perm
      ((agg.activeCandles.lookup p).toList.map CandleBuilder.build) := by
    have h := ((order.perm agg.activeCandles.entries).map fun e => e.2.build).filter
      fun c => decide (c.currencyPair = p)
    rw [hl] at h
    exact h
  -- At most one candle is left, so its place in the iteration does not matter.
  cases hb : agg.activeCandles.lookup p with
  | none => simpa [hb] using hperm
  | some b => simpa [hb] using hperm

theorem onTrade_forPair (agg : CandleAggregator K) (trade : Trade K) :
    (agg.onTrade trade).1.activeCandles.lookup trade.currencyPair =
        (pairStep agg.timeframe (agg.activeCandles.lookup trade.currencyPair) (.onTrade trade)).1 ∧
      (agg.onTrade trade).2 =
        (pairStep agg.timeframe (agg.activeCandles.lookup trade.currencyPair)
          (.onTrade trade)).2 := by
  simp only [onTrade, pairStep]
  cases hb : agg.activeCandles.lookup trade.currencyPair with
  | none => exact ⟨by simp [put_lookup, CandleBuilder.ofTrade], rfl⟩
  | some b =>
    have hp := agg.filed _ _ hb
    by_cases hi : b.intervalStart = trade.intervalStart agg.timeframe
    · simp [hi, put_lookup, CandleBuilder.update, hp]
    · simp [hi, put_lookup, CandleBuilder.ofTrade]

theorem onTrade_pair (agg : CandleAggregator K) (trade : Trade K) :
    ∀ c ∈ (agg.onTrade trade).2, c.currencyPair = trade.currencyPair := by
  intro c hc
  rw [(onTrade_forPair agg trade).2] at hc
  cases hb : agg.activeCandles.lookup trade.currencyPair with
  | none => simp [hb, pairStep] at hc
  | some b =>
    have hp := agg.filed _ _ hb
    simp only [hb, pairStep] at hc
    split_ifs at hc
    · rw [← hp] at hc ⊢
      exact emitWithGapFill_currencyPair _ b _ c hc
    · simp at hc

theorem onTrade_lookup_other (agg : CandleAggregator K) (trade : Trade K) {p : String}
    (hp : trade.currencyPair ≠ p) :
    (agg.onTrade trade).1.activeCandles.lookup p = agg.activeCandles.lookup p := by
  simp only [onTrade]
  split
  · simp [put_lookup, CandleBuilder.ofTrade, hp.symm]
  · rename_i b hb
    have hb' := agg.filed _ _ hb
    split_ifs
    · simp [put_lookup, CandleBuilder.ofTrade, hp.symm]
    · simp [put_lookup, CandleBuilder.update, hb', hp.symm]

/-- The calls for one pair, and the candles of that pair, do not depend on any
other pair. -/
theorem run_forPair (tf : Timeframe) (p : String) (agg : CandleAggregator K)
    (htf : agg.timeframe = tf) (calls : List (Call K)) :
    (run step agg calls).1.activeCandles.lookup p =
        (run (pairStep tf) (agg.activeCandles.lookup p) (calls.filterMap (Call.forPair p))).1 ∧
      (run step agg calls).2.filter (fun c => c.currencyPair = p) =
        (run (pairStep tf) (agg.activeCandles.lookup p) (calls.filterMap (Call.forPair p))).2 := by
  -- A pair sees its own trades and every flush.
  refine run_project step (pairStep tf) (fun a => a.timeframe = tf)
    (fun a => a.activeCandles.lookup p) (Call.forPair p) (fun c => c.currencyPair = p)
    (fun a call h => (a.step_timeframe call).trans h) ?_ ?_ agg calls htf
  · intro a call _ hs
    cases call with
    | flush order => simp [Call.forPair] at hs
    | onTrade trade =>
      have hp : trade.currencyPair ≠ p := by simpa [Call.forPair] using hs
      refine ⟨onTrade_lookup_other a trade hp, ?_⟩
      apply List.filter_eq_nil_iff.mpr
      intro c hc
      simp only [decide_eq_true_eq]
      rw [onTrade_pair a trade c hc]
      exact hp
  · intro a call k ha hs
    subst ha
    cases call with
    | flush order =>
      obtain rfl : PairCall.flush = k := by simpa [Call.forPair] using hs
      exact ⟨by simp [step, flush, pairStep], flush_forPair a order p⟩
    | onTrade trade =>
      have hp : trade.currencyPair = p := by
        by_contra hne
        simp [Call.forPair, hne] at hs
      obtain rfl : PairCall.onTrade trade = k := by simpa [Call.forPair, hp] using hs
      subst hp
      refine ⟨(onTrade_forPair a trade).1, ?_⟩
      rw [← (onTrade_forPair a trade).2]
      apply List.filter_eq_self.mpr
      intro c hc
      simpa using onTrade_pair a trade c hc

end CandleAggregator

end TradeStream.MarketData
