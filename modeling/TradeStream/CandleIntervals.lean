import TradeStream.CandleSeries

/-! What the candles of one pair say about its trades, for a stream of trades in
chronological order: the series has no hole, every interval with trades is
summarised and every other one is flat. -/
namespace TradeStream.MarketData
open TradeStream.Transducer

variable {K : Type*} [LinearOrder K] [AddCommMonoid K]

/-- `c` carries the first of `opens`, the last of `closes`, the greatest of
`highs`, the least of `lows` and the sum of `volumes`. -/
structure IsOhlcv (opens closes highs lows volumes : List K) (c : Candle K) : Prop where
  openPrice : opens.head? = some c.openPrice
  close : closes.getLast? = some c.close
  high : highs.maximum = c.high
  low : lows.minimum = c.low
  volume : volumes.sum = c.volume

/-- `c` is the OHLCV candle of the trades `ts`, oldest first. -/
def Summarizes (ts : List (Trade K)) (c : Candle K) : Prop :=
  IsOhlcv (ts.map Trade.price) (ts.map Trade.price) (ts.map Trade.price) (ts.map Trade.price)
    (ts.map Trade.volume) c

/-- A candle without movement at `price`. -/
def FlatAt (price : K) (c : Candle K) : Prop :=
  c.openPrice = price ∧ c.high = price ∧ c.low = price ∧ c.close = price ∧ c.volume = 0

/-- The trades whose interval starts at `s`. -/
def tradesAt (tf : Timeframe) (s : ℤ) (ts : List (Trade K)) : List (Trade K) :=
  ts.filter fun t => t.intervalStart tf = s

theorem summarizes_ofTrade (tf : Timeframe) (t : Trade K) :
    Summarizes [t] (CandleBuilder.ofTrade tf t).build where
  openPrice := rfl
  close := rfl
  high := List.maximum_singleton _
  low := List.minimum_singleton _
  volume := List.sum_singleton

theorem summarizes_update (ts : List (Trade K)) (t : Trade K) (b : CandleBuilder K)
    (h : Summarizes ts b.build) :
    Summarizes (ts ++ [t]) (b.update t.price t.volume).build where
  openPrice := by
    rw [List.map_append, List.head?_append, h.openPrice]
    rfl
  close := by simp [CandleBuilder.update, CandleBuilder.build]
  high := by
    have hh : (ts.map Trade.price).maximum = (b.high : WithBot K) := h.high
    rw [List.map_append, List.map_singleton, List.maximum_concat, hh, ← WithBot.coe_max,
      WithBot.coe_inj]
    simp only [CandleBuilder.update, CandleBuilder.build]
    -- the builder compares, where the maximum is taken
    split_ifs with hp
    · exact max_eq_right hp.le
    · exact max_eq_left (not_lt.mp hp)
  low := by
    have hl : (ts.map Trade.price).minimum = (b.low : WithTop K) := h.low
    rw [List.map_append, List.map_singleton, List.minimum_concat, hl, ← WithTop.coe_min,
      WithTop.coe_inj]
    simp only [CandleBuilder.update, CandleBuilder.build]
    split_ifs with hp
    · exact min_eq_right hp.le
    · exact min_eq_left (not_lt.mp hp)
  volume := by
    have hv : (ts.map Trade.volume).sum = b.volume := h.volume
    rw [List.map_append, List.map_singleton, List.sum_append, List.sum_singleton, hv]
    rfl

omit [AddCommMonoid K] [LinearOrder K] in
theorem tradesAt_concat_self (tf : Timeframe) (ts : List (Trade K)) (t : Trade K) :
    tradesAt tf (t.intervalStart tf) (ts ++ [t]) = tradesAt tf (t.intervalStart tf) ts ++ [t] := by
  simp [tradesAt]

omit [AddCommMonoid K] [LinearOrder K] in
theorem tradesAt_concat_of_ne (tf : Timeframe) (ts : List (Trade K)) (t : Trade K) {s : ℤ}
    (h : t.intervalStart tf ≠ s) : tradesAt tf s (ts ++ [t]) = tradesAt tf s ts := by
  simp [tradesAt, h]

omit [AddCommMonoid K] [LinearOrder K] in
theorem tradesAt_eq_nil (tf : Timeframe) (ts : List (Trade K)) {s : ℤ} :
    tradesAt tf s ts = [] ↔ ∀ t ∈ ts, t.intervalStart tf ≠ s := by
  simp [tradesAt]

/-- The step from one candle to the next. -/
def Follows (tf : Timeframe) (ts : List (Trade K)) (a c : Candle K) : Prop :=
  c.start = a.start + tf.durationMillis ∧ (tradesAt tf c.start ts = [] → FlatAt a.close c)

/-- `cs` is the gapless candle series of the trades `ts` of pair `p`. -/
structure CandleSeries (tf : Timeframe) (p : String) (ts : List (Trade K))
    (cs : List (Candle K)) : Prop where
  pair : ∀ c ∈ cs, c.currencyPair = p
  chain : cs.IsChain (Follows tf ts)
  first : ∀ c ∈ cs.head?, tradesAt tf c.start ts ≠ []
  aligned : ∀ c ∈ cs, tf.durationMillis ∣ c.start
  summary : ∀ c ∈ cs, tradesAt tf c.start ts ≠ [] → Summarizes (tradesAt tf c.start ts) c
  covered : ∀ t ∈ ts, ∃ c ∈ cs, c.start = t.intervalStart tf

theorem CandleSeries.increasing {tf : Timeframe} {p : String} {ts : List (Trade K)}
    {cs : List (Candle K)} (h : CandleSeries tf p ts cs) :
    cs.Pairwise fun a c => a.start < c.start := by
  have hd := tf.durationMillis_pos
  have hlt : cs.IsChain fun a c => a.start < c.start :=
    h.chain.imp fun a c hac => by rw [hac.1]; linarith
  have htrans : IsTrans (Candle K) fun a c => a.start < c.start := ⟨fun _ _ _ => lt_trans⟩
  exact hlt.pairwise

omit [LinearOrder K] in
theorem gapFill_mem (tf : Timeframe) (pair : String) (price : K) (n g : ℤ) :
    ∀ c ∈ gapFill tf pair price n g,
      g ≤ c.start ∧ c.start < n ∧ tf.durationMillis ∣ c.start - g := by
  have hd := tf.durationMillis_pos
  unfold gapFill
  generalize (n - g).toNat = fuel
  induction fuel generalizing g with
  | zero => simp [gapLoop]
  | succ fuel ih =>
    intro c hc
    rw [gapLoop] at hc
    split_ifs at hc with hg
    · rcases List.mem_cons.mp hc with rfl | hc
      · simp [buildGapCandle, Candle.start, hg]
      · obtain ⟨h1, h2, h3⟩ := ih _ c hc
        refine ⟨by linarith, h2, ?_⟩
        have he : c.start - g = c.start - (g + tf.durationMillis) + tf.durationMillis := by ring
        rw [he]
        exact h3.add (dvd_refl _)
    · simp at hc

omit [LinearOrder K] in
/-- The gap candles lead from the completed candle to the new one without a hole. -/
theorem gapFill_chain (tf : Timeframe) (p : String) (ts : List (Trade K)) (new : Candle K)
    (hnew : tradesAt tf new.start ts ≠ []) (g : ℤ) (hg : g ≤ new.start)
    (hdvd : tf.durationMillis ∣ new.start - g)
    (hnone : ∀ s, g ≤ s → s < new.start → tradesAt tf s ts = []) (a : Candle K)
    (ha : g = a.start + tf.durationMillis) :
    (a :: (gapFill tf p a.close new.start g ++ [new])).IsChain (Follows tf ts) := by
  have hd := tf.durationMillis_pos
  -- Induction on the distance the loop still has to go.
  induction hk : (new.start - g).toNat using Nat.strong_induction_on generalizing g a with
  | _ k ih =>
    rw [gapFill_eq]
    by_cases hlt : g < new.start
    · rw [if_pos hlt, List.cons_append, List.isChain_cons_cons]
      have hgap : (buildGapCandle p g a.close : Candle K).start = g := by
        simp [buildGapCandle, Candle.start]
      have hle : g + tf.durationMillis ≤ new.start := by
        have := Int.le_of_dvd (by linarith) hdvd
        linarith
      refine ⟨⟨hgap.trans ha, fun _ => ⟨rfl, rfl, rfl, rfl, rfl⟩⟩, ?_⟩
      have hdvd' : tf.durationMillis ∣ new.start - (g + tf.durationMillis) := by
        rw [← sub_sub]
        exact hdvd.sub (dvd_refl _)
      exact ih _ (by omega) (g + tf.durationMillis) hle hdvd'
        (fun s h1 h2 => hnone s (by linarith) h2) (buildGapCandle p g a.close)
        (by rw [hgap]) rfl
    · have he : g = new.start := le_antisymm hg (not_lt.mp hlt)
      rw [if_neg hlt, List.nil_append, List.isChain_cons_cons]
      refine ⟨⟨he ▸ ha, fun h => absurd h hnew⟩, List.isChain_singleton _⟩

omit [LinearOrder K] in
/-- A chain of candles depends only on the trades of its own intervals. -/
theorem isChain_follows_congr {tf : Timeframe} {ts ts' : List (Trade K)} {cs : List (Candle K)}
    (h : cs.IsChain (Follows tf ts))
    (hold : ∀ c ∈ cs, tradesAt tf c.start ts' = tradesAt tf c.start ts) :
    cs.IsChain (Follows tf ts') := by
  refine h.imp_of_mem_imp fun a c _ hc hac => ⟨hac.1, ?_⟩
  rw [hold c hc]
  exact hac.2

omit [LinearOrder K] in
/-- The last candle of a chain can be replaced by one of the same interval that has trades. -/
theorem isChain_follows_replaceLast {tf : Timeframe} {ts ts' : List (Trade K)}
    {out : List (Candle K)} {last last' : Candle K}
    (h : (out ++ [last]).IsChain (Follows tf ts))
    (hold : ∀ c ∈ out, tradesAt tf c.start ts' = tradesAt tf c.start ts)
    (hstart : last'.start = last.start) (hne : tradesAt tf last'.start ts' ≠ []) :
    (out ++ [last']).IsChain (Follows tf ts') := by
  obtain ⟨hout, _, hlink⟩ := List.isChain_append.mp h
  refine List.isChain_append.mpr
    ⟨isChain_follows_congr hout hold, List.isChain_singleton _, ?_⟩
  intro a ha c hc
  obtain rfl : last' = c := by simpa using hc
  have hnext := (hlink a ha last (by simp)).1
  exact ⟨hstart.trans hnext, fun hnil => absurd hnil hne⟩

/-- The series of the trades so far, with the builder that is still open as its
last candle. -/
structure OpenSeries (tf : Timeframe) (p : String) (ts : List (Trade K)) (b : CandleBuilder K)
    (out : List (Candle K)) : Prop extends CandleSeries tf p ts (out ++ [b.build]) where
  latest : ∀ t ∈ ts, t.intervalStart tf ≤ b.intervalStart
  current : tradesAt tf b.intervalStart ts ≠ []

theorem OpenSeries.mem_lt {tf : Timeframe} {p : String} {ts : List (Trade K)}
    {b : CandleBuilder K} {out : List (Candle K)} (h : OpenSeries tf p ts b out) :
    ∀ c ∈ out, c.start < b.intervalStart := by
  intro c hc
  have hlt := (List.pairwise_append.mp h.increasing).2.2 c hc b.build (List.mem_singleton_self _)
  rwa [CandleBuilder.build_start] at hlt

theorem OpenSeries.first_trade (tf : Timeframe) (t : Trade K) :
    OpenSeries tf t.currencyPair [t] (.ofTrade tf t) [] := by
  have hs : (CandleBuilder.ofTrade tf t).build.start = t.intervalStart tf :=
    CandleBuilder.build_start _
  have hat : tradesAt tf (t.intervalStart tf) [t] = [t] := by simp [tradesAt]
  have hmem (c : Candle K) (hc : c ∈ [(CandleBuilder.ofTrade tf t).build]) :
      c = (CandleBuilder.ofTrade tf t).build := List.mem_singleton.mp hc
  exact {
    pair := fun c hc => by rw [hmem c hc]; rfl
    chain := List.isChain_singleton _
    first := fun c hc => by
      obtain rfl : (CandleBuilder.ofTrade tf t).build = c := by simpa using hc
      simp [hs, hat]
    aligned := fun c hc => by
      rw [hmem c hc, hs]
      exact tf.durationMillis_dvd_align _
    summary := fun c hc _ => by
      rw [hmem c hc, hs, hat]
      exact summarizes_ofTrade tf t
    covered := fun u hu => ⟨_, List.mem_singleton_self _, by rw [hs, List.mem_singleton.mp hu]⟩
    latest := fun u hu => by rw [List.mem_singleton.mp hu]; rfl
    current := by simp [CandleBuilder.ofTrade, hat] }

/-- A trade of the open interval only touches the open candle. -/
theorem OpenSeries.update {tf : Timeframe} {p : String} {ts : List (Trade K)}
    {b : CandleBuilder K} {out : List (Candle K)} (h : OpenSeries tf p ts b out) (t : Trade K)
    (ht : t.intervalStart tf = b.intervalStart) :
    OpenSeries tf p (ts ++ [t]) (b.update t.price t.volume) out := by
  have hs : (b.update t.price t.volume).build.start = b.intervalStart :=
    CandleBuilder.build_start _
  have hold (c : Candle K) (hc : c ∈ out) :
      tradesAt tf c.start (ts ++ [t]) = tradesAt tf c.start ts :=
    tradesAt_concat_of_ne tf ts t (by rw [ht]; exact (h.mem_lt c hc).ne')
  have hnow : tradesAt tf b.intervalStart (ts ++ [t]) = tradesAt tf b.intervalStart ts ++ [t] := by
    rw [← ht]
    exact tradesAt_concat_self tf ts t
  have hne : tradesAt tf b.intervalStart (ts ++ [t]) ≠ [] := by simp [hnow]
  have hcases (c : Candle K) (hc : c ∈ out ++ [(b.update t.price t.volume).build]) :
      c ∈ out ∨ c = (b.update t.price t.volume).build := by simpa using hc
  have hout (c : Candle K) (hc : c ∈ out) : c ∈ out ++ [b.build] := List.mem_append_left _ hc
  have hb : b.build ∈ out ++ [b.build] := by simp
  have hlast : (b.update t.price t.volume).build ∈ out ++ [(b.update t.price t.volume).build] :=
    by simp
  refine { pair := ?_, chain := ?_, first := ?_, aligned := ?_, summary := ?_, covered := ?_,
           latest := ?_, current := hne }
  · intro c hc
    rcases hcases c hc with hc | rfl
    · exact h.pair c (hout c hc)
    · exact h.pair b.build hb
  · -- The last candle starts where it did, and now it has trades.
    refine isChain_follows_replaceLast h.chain hold ?_ ?_
    · rw [hs, CandleBuilder.build_start]
    · rw [hs]
      exact hne
  · intro c hc
    cases out with
    | nil =>
      obtain rfl : (b.update t.price t.volume).build = c := by simpa using hc
      rw [hs]
      exact hne
    | cons a out =>
      obtain rfl : a = c := by simpa using hc
      rw [hold a List.mem_cons_self]
      exact h.first a (by simp)
  · -- no candle moves, so that all stay aligned
    intro c hc
    rcases hcases c hc with hc | rfl
    · exact h.aligned c (hout c hc)
    · rw [hs, ← CandleBuilder.build_start]
      exact h.aligned _ hb
  · -- the earlier candles keep their trades; the last has one more
    intro c hc hc0
    rcases hcases c hc with hc | rfl
    · rw [hold c hc] at hc0 ⊢
      exact h.summary c (hout c hc) hc0
    · rw [hs, hnow]
      have hsum := h.summary _ hb (by rw [CandleBuilder.build_start]; exact h.current)
      rw [CandleBuilder.build_start] at hsum
      exact summarizes_update _ t b hsum
  · intro u hu
    have hu' : u ∈ ts ∨ u = t := by simpa using hu
    rcases hu' with hu | rfl
    · obtain ⟨c, hc, he⟩ := h.covered u hu
      rcases List.mem_append.mp hc with hc | hc
      · exact ⟨c, List.mem_append_left _ hc, he⟩
      · obtain rfl := List.mem_singleton.mp hc
        exact ⟨_, hlast, by rw [hs, ← he, CandleBuilder.build_start]⟩
    · exact ⟨_, hlast, by rw [hs, ht]⟩
  · intro u hu
    have hu' : u ∈ ts ∨ u = t := by simpa using hu
    rcases hu' with hu | rfl
    · exact h.latest u hu
    · exact ht.le

/-- A trade of a later interval closes the open candle and fills the gap. -/
theorem OpenSeries.advance {tf : Timeframe} {p : String} {ts : List (Trade K)}
    {b : CandleBuilder K} {out : List (Candle K)} (h : OpenSeries tf p ts b out) (t : Trade K)
    (htp : t.currencyPair = p) (ht : b.intervalStart < t.intervalStart tf) :
    OpenSeries tf p (ts ++ [t]) (.ofTrade tf t)
      (out ++ emitWithGapFill tf p b (t.intervalStart tf)) := by
  have hd := tf.durationMillis_pos
  set new := (CandleBuilder.ofTrade tf t).build with hnewdef
  have hns : new.start = t.intervalStart tf := CandleBuilder.build_start _
  set gap := gapFill tf p b.close (t.intervalStart tf) (b.intervalStart + tf.durationMillis)
    with hgapdef
  have hsplit : out ++ emitWithGapFill tf p b (t.intervalStart tf) ++ [new] =
      (out ++ [b.build]) ++ (gap ++ [new]) := by
    simp [emitWithGapFill, hgapdef, CandleBuilder.build]
  have hb : b.build ∈ out ++ [b.build] := by simp
  -- Candles of the old series lie before the new interval, so their trades are unchanged.
  have hold (c : Candle K) (hc : c ∈ out ++ [b.build]) :
      tradesAt tf c.start (ts ++ [t]) = tradesAt tf c.start ts := by
    apply tradesAt_concat_of_ne
    rcases List.mem_append.mp hc with hc | hc
    · have := h.mem_lt c hc
      omega
    · rw [List.mem_singleton.mp hc, CandleBuilder.build_start]
      omega
  have hnow : tradesAt tf (t.intervalStart tf) (ts ++ [t]) = [t] := by
    rw [tradesAt_concat_self, (tradesAt_eq_nil tf ts).mpr, List.nil_append]
    intro u hu
    have := h.latest u hu
    omega
  have hbetween (s : ℤ) (h1 : b.intervalStart < s) (h2 : s < t.intervalStart tf) :
      tradesAt tf s (ts ++ [t]) = [] := by
    rw [tradesAt_concat_of_ne tf ts t h2.ne', tradesAt_eq_nil]
    intro u hu
    have := h.latest u hu
    omega
  have hta : tf.durationMillis ∣ t.intervalStart tf := tf.durationMillis_dvd_align _
  have hbs : tf.durationMillis ∣ b.intervalStart := by
    rw [← CandleBuilder.build_start]
    exact h.aligned b.build hb
  have hdvd : tf.durationMillis ∣ t.intervalStart tf - (b.intervalStart + tf.durationMillis) :=
    hta.sub (hbs.add (dvd_refl _))
  have hle : b.intervalStart + tf.durationMillis ≤ t.intervalStart tf := by
    have := Int.le_of_dvd (sub_pos.mpr ht) (hta.sub hbs)
    omega
  have hgap (c : Candle K) (hc : c ∈ gap) : b.intervalStart < c.start ∧
      c.start < t.intervalStart tf ∧ tf.durationMillis ∣ c.start := by
    obtain ⟨h1, h2, h3⟩ := gapFill_mem tf p b.close _ _ c hc
    exact ⟨by omega, h2, (dvd_sub_left (hbs.add (dvd_refl _))).mp h3⟩
  have hcases (c : Candle K) (hc : c ∈ (out ++ [b.build]) ++ (gap ++ [new])) :
      c ∈ out ++ [b.build] ∨ c ∈ gap ∨ c = new := by
    rcases List.mem_append.mp hc with hc | hc
    · exact Or.inl hc
    · rcases List.mem_append.mp hc with hc | hc
      · exact Or.inr (Or.inl hc)
      · exact Or.inr (Or.inr (List.mem_singleton.mp hc))
  refine { toCandleSeries := ?_, latest := ?_, current := by simp [CandleBuilder.ofTrade, hnow] }
  · rw [hsplit]
    refine { pair := ?_, chain := ?_, first := ?_, aligned := ?_, summary := ?_, covered := ?_ }
    · intro c hc
      rcases hcases c hc with hc | hc | rfl
      · exact h.pair c hc
      · exact gapFill_currencyPair tf p _ _ _ c hc
      · exact htp
    · have hleft : (out ++ [b.build]).IsChain (Follows tf (ts ++ [t])) :=
        isChain_follows_congr h.chain hold
      have hright : ([b.build] ++ (gap ++ [new])).IsChain (Follows tf (ts ++ [t])) := by
        have := gapFill_chain tf p (ts ++ [t]) new (by simp [hns, hnow])
          (b.intervalStart + tf.durationMillis) (by rw [hns]; exact hle) (by rw [hns]; exact hdvd)
          (fun s h1 h2 => hbetween s (by omega) (by rw [hns] at h2; exact h2)) b.build
          (by rw [CandleBuilder.build_start])
        rw [hns] at this
        exact this
      exact hleft.append_overlap hright (List.cons_ne_nil _ _)
    · intro c hc
      have hc' : c ∈ (out ++ [b.build]).head? := by
        rw [List.head?_append] at hc
        cases out <;> simpa using hc
      rw [hold c (List.mem_of_mem_head? hc')]
      exact h.first c hc'
    · intro c hc
      rcases hcases c hc with hc | hc | rfl
      · exact h.aligned c hc
      · exact (hgap c hc).2.2
      · rw [hns]
        exact tf.durationMillis_dvd_align _
    · intro c hc hc0
      rcases hcases c hc with hc | hc | rfl
      · rw [hold c hc] at hc0 ⊢
        exact h.summary c hc hc0
      · exact absurd (hbetween c.start (hgap c hc).1 (hgap c hc).2.1) hc0
      · rw [hns, hnow]
        exact summarizes_ofTrade tf t
    · intro u hu
      rcases List.mem_append.mp hu with hu | hu
      · obtain ⟨c, hc, he⟩ := h.covered u hu
        exact ⟨c, List.mem_append_left _ hc, he⟩
      · rw [List.mem_singleton.mp hu]
        exact ⟨new, by simp, hns⟩
  · intro u hu
    rcases List.mem_append.mp hu with hu | hu
    · exact (h.latest u hu).trans ht.le
    · rw [List.mem_singleton.mp hu]
      rfl

/-- After any non-empty run of trades of one pair in interval order, that pair has
an open builder, and with it the emitted candles form a gapless series. -/
theorem run_trades_openSeries (tf : Timeframe) (p : String) (ts : List (Trade K))
    (hp : ∀ t ∈ ts, t.currencyPair = p)
    (hs : ts.Pairwise fun t u => t.intervalStart tf ≤ u.intervalStart tf) (hne : ts ≠ []) :
    ∃ b, (run (pairStep tf) none (ts.map .onTrade)).1 = some b ∧
      OpenSeries tf p ts b (run (pairStep tf) none (ts.map .onTrade)).2 := by
  induction ts using List.reverseRecOn with
  | nil => exact absurd rfl hne
  | append_singleton ts t ih =>
    have htp : t.currencyPair = p := hp t (by simp)
    obtain ⟨hs1, _, hs2⟩ := List.pairwise_append.mp hs
    rw [List.map_append, List.map_singleton, run_concat]
    by_cases hts : ts = []
    · subst hts htp
      exact ⟨_, rfl, OpenSeries.first_trade tf t⟩
    · obtain ⟨b, hb, hser⟩ := ih (fun u hu => hp u (by simp [hu])) hs1 hts
      have hle : b.intervalStart ≤ t.intervalStart tf := by
        obtain ⟨u, hu⟩ := List.exists_mem_of_ne_nil _ hser.current
        obtain ⟨hu, he⟩ := List.mem_filter.mp hu
        rw [← of_decide_eq_true he]
        exact hs2 u hu t (List.mem_singleton_self t)
      -- In order, so the trade is of the open interval or of a later one.
      rw [hb]
      by_cases heq : b.intervalStart = t.intervalStart tf
      · refine ⟨b.update t.price t.volume, by simp [pairStep, heq], ?_⟩
        simpa [pairStep, heq] using hser.update t heq.symm
      · refine ⟨.ofTrade tf t, by simp [pairStep, heq], ?_⟩
        simpa [pairStep, heq, htp] using hser.advance t htp (lt_of_le_of_ne hle heq)

/-- The same after the final flush, which emits the open candle as well. -/
theorem run_trades_flush_series (tf : Timeframe) (p : String) (ts : List (Trade K))
    (hp : ∀ t ∈ ts, t.currencyPair = p)
    (hs : ts.Pairwise fun t u => t.intervalStart tf ≤ u.intervalStart tf) :
    CandleSeries tf p ts (run (pairStep tf) none (ts.map .onTrade ++ [.flush])).2 := by
  rw [run_concat]
  by_cases hts : ts = []
  · subst hts
    constructor <;> simp [pairStep]
  · obtain ⟨b, hb, hser⟩ := run_trades_openSeries tf p ts hp hs hts
    rw [hb]
    exact hser.toCandleSeries

/-- The trades of `ts` in the time interval of a candle. -/
def received (tf : Timeframe) (ts : List (Trade K)) (c : Candle K) : List (Trade K) :=
  ts.filter fun t => c.start ≤ t.millis ∧ t.millis < c.start + tf.durationMillis

omit [LinearOrder K] [AddCommMonoid K] in
theorem received_eq_tradesAt (tf : Timeframe) (ts : List (Trade K)) (c : Candle K)
    (hts : ∀ t ∈ ts, t.intervalStart tf ≤ t.millis) (hc : tf.durationMillis ∣ c.start) :
    received tf ts c = tradesAt tf c.start ts := by
  apply List.filter_congr
  intro t ht
  rw [decide_eq_decide]
  exact (tf.alignToInterval_eq_iff (hts t ht) hc).symm

/-- Each pair's trades arrive in chronological order; pairs may interleave. -/
def ChronologicalPerPair (trades : List (Trade K)) : Prop :=
  trades.Pairwise fun t u => t.currencyPair = u.currencyPair → t.timestamp.NotAfter u.timestamp

/-- What the candles `cs` of one pair have to say about its trades `ts`. -/
structure CoversTrades (tf : Timeframe) (ts : List (Trade K)) (cs : List (Candle K)) : Prop where
  consecutive : cs.IsChain fun a c => c.start = a.start + tf.durationMillis
  aligned : ∀ c ∈ cs, tf.durationMillis ∣ c.start
  traded : ∀ c ∈ cs, received tf ts c ≠ [] → Summarizes (received tf ts c) c
  untraded : cs.IsChain fun a c => received tf ts c = [] → FlatAt a.close c
  first : ∀ c ∈ cs.head?, received tf ts c ≠ []
  complete : ∀ t ∈ ts, ∃ c ∈ cs, t ∈ received tf ts c

theorem CandleSeries.coversTrades {tf : Timeframe} {p : String} {ts : List (Trade K)}
    {cs : List (Candle K)} (h : CandleSeries tf p ts cs)
    (hts : ∀ t ∈ ts, t.intervalStart tf ≤ t.millis) : CoversTrades tf ts cs := by
  have hrec (c : Candle K) (hc : c ∈ cs) := received_eq_tradesAt tf ts c hts (h.aligned c hc)
  refine { consecutive := h.chain.imp fun _ _ => And.left, aligned := h.aligned, traded := ?_,
           untraded := ?_, first := ?_, complete := ?_ }
  · intro c hc
    rw [hrec c hc]
    exact h.summary c hc
  · refine h.chain.imp_of_mem_imp fun a c _ hc hac => ?_
    rw [hrec c hc]
    exact hac.2
  · intro c hc
    rw [hrec c (List.mem_of_mem_head? hc)]
    exact h.first c hc
  · intro t ht
    obtain ⟨c, hc, he⟩ := h.covered t ht
    refine ⟨c, hc, ?_⟩
    rw [hrec c hc]
    exact List.mem_filter.mpr ⟨ht, by simp [he]⟩

/-- The candles that an aggregator emits for pair `p` over some calls. -/
def emittedFor (tf : Timeframe) (calls : List (Call K)) (p : String) : List (Candle K) :=
  (run CandleAggregator.step (.new tf) calls).2.filter fun c => c.currencyPair = p

theorem emittedFor_eq (tf : Timeframe) (calls : List (Call K)) (p : String) :
    emittedFor tf calls p = (run (pairStep tf) none (calls.filterMap (Call.forPair p))).2 :=
  (CandleAggregator.run_forPair tf p (.new tf) rfl calls).2

omit [LinearOrder K] [AddCommMonoid K] in
theorem filterMap_forPair_trades (p : String) (trades : List (Trade K)) :
    (trades.map Call.onTrade).filterMap (Call.forPair p) =
      (trades.filter fun t => t.currencyPair = p).map PairCall.onTrade := by
  induction trades with
  | nil => rfl
  | cons t ts ih =>
    by_cases hp : t.currencyPair = p
    · simpa [Call.forPair, hp] using ih
    · simpa [Call.forPair, hp] using ih

omit [LinearOrder K] [AddCommMonoid K] in
theorem filterMap_forPair_flushed (p : String) (trades : List (Trade K))
    (order : IterationOrder (Sigma fun _ : String => CandleBuilder K)) :
    (trades.map Call.onTrade ++ [Call.flush order]).filterMap (Call.forPair p) =
      (trades.filter fun t => t.currencyPair = p).map PairCall.onTrade ++ [PairCall.flush] := by
  rw [List.filterMap_append, filterMap_forPair_trades]
  rfl

omit [LinearOrder K] [AddCommMonoid K] in
theorem ChronologicalPerPair.intervals {trades : List (Trade K)} (h : ChronologicalPerPair trades)
    (tf : Timeframe) (p : String) :
    (trades.filter fun t => t.currencyPair = p).Pairwise
      fun t u => t.intervalStart tf ≤ u.intervalStart tf := by
  refine (h.filter _).imp_of_mem ?_
  intro t u ht hu htu
  have htp := of_decide_eq_true (List.mem_filter.mp ht).2
  have hup := of_decide_eq_true (List.mem_filter.mp hu).2
  exact tf.alignToInterval_mono
    (toEpochMillis_mono t.timestamp_valid u.timestamp_valid (htu (htp.trans hup.symm)))

/-- A chronological stream, whatever its division into pairs, leaves every pair
with a gapless series, for trades whose interval start does not lie after them. -/
theorem emittedFor_series (tf : Timeframe) (trades : List (Trade K))
    (order : IterationOrder (Sigma fun _ : String => CandleBuilder K))
    (h : ChronologicalPerPair trades) (p : String) :
    CandleSeries tf p (trades.filter fun t => t.currencyPair = p)
      (emittedFor tf (trades.map .onTrade ++ [.flush order]) p) := by
  rw [emittedFor_eq, filterMap_forPair_flushed]
  apply run_trades_flush_series tf p _ _ (h.intervals tf p)
  intro t ht
  exact of_decide_eq_true (List.mem_filter.mp ht).2

omit [LinearOrder K] [AddCommMonoid K] in
theorem Trade.millis_nonneg (t : Trade K) (h : 0 ≤ t.timestamp.seconds) : 0 ≤ t.millis := by
  have hv := t.timestamp_valid
  rw [millis, toEpochMillis_eq hv]
  have := hv.2.2.1
  positivity

/-- The candles of chronological trades from the epoch on: for every pair they are
consecutive, aligned, summarise exactly their own trades and are flat without
trades, and they depend on the trades of that pair only. -/
theorem aggregator_candles_cover_trades (tf : Timeframe) (trades : List (Trade K))
    (order : IterationOrder (Sigma fun _ : String => CandleBuilder K))
    (hchron : ChronologicalPerPair trades) (hepoch : ∀ t ∈ trades, 0 ≤ t.timestamp.seconds)
    (p : String) :
    CoversTrades tf (trades.filter fun t => t.currencyPair = p)
        (emittedFor tf (trades.map .onTrade ++ [.flush order]) p) ∧
      ∀ (others : List (Trade K))
        (order' : IterationOrder (Sigma fun _ : String => CandleBuilder K)),
        (others.filter fun t => t.currencyPair = p) = (trades.filter fun t => t.currencyPair = p) →
        emittedFor tf (others.map .onTrade ++ [.flush order']) p =
          emittedFor tf (trades.map .onTrade ++ [.flush order]) p := by
  constructor
  · apply (emittedFor_series tf trades order hchron p).coversTrades
    intro t ht
    exact tf.alignToInterval_le (t.millis_nonneg (hepoch t (List.mem_filter.mp ht).1))
  · intro others order' he
    rw [emittedFor_eq, emittedFor_eq, filterMap_forPair_flushed, filterMap_forPair_flushed, he]

/-- Two pairs interleaved, with a gap of one minute in the first. -/
def interleavedTrades : List (Trade ℤ) :=
  [⟨⟨0, 0⟩, "BTC/USD", 10, 1, Timestamp.valid_epoch⟩, ⟨⟨10, 0⟩, "ETH/USD", 3, 1, by decide⟩,
    ⟨⟨130, 0⟩, "BTC/USD", 12, 2, by decide⟩]

theorem aggregator_candles_cover_interleavedTrades :
    CoversTrades .ONE_MINUTE (interleavedTrades.filter fun t => t.currencyPair = "BTC/USD")
      (emittedFor .ONE_MINUTE (interleavedTrades.map .onTrade ++ [.flush (.insertion _)])
        "BTC/USD") := by
  have hchron : ChronologicalPerPair interleavedTrades := by
    unfold ChronologicalPerPair
    decide
  exact (aggregator_candles_cover_trades .ONE_MINUTE interleavedTrades (.insertion _) hchron
    (by decide) "BTC/USD").1

end TradeStream.MarketData
