import TradeStream.InsertionDict
import TradeStream.WeightedMean

/-! `MultiExchangeCandleClient`: the candles of several exchanges, combined by timestamp, in
exact arithmetic. -/
namespace TradeStream.CandleAggregation
open TradeStream.InsertionDict TradeStream.WeightedMean

/-- A row of `fetch_ohlcv`; `none` is the `None` that some exchanges report. -/
structure Ohlcv where
  timestampMs : ℤ
  openPrice : Option ℚ
  high : Option ℚ
  low : Option ℚ
  close : Option ℚ
  volume : Option ℚ
  deriving DecidableEq, Repr

structure Candle where
  timestampMs : ℤ
  openPrice : ℚ
  high : ℚ
  low : ℚ
  close : ℚ
  volume : ℚ
  currencyPair : String
  exchange : String
  sourceExchanges : Option (List String)
  deriving DecidableEq, Repr

/-- A client as it answers one request. -/
structure CCXTCandleClient where
  exchangeName : String
  isSymbolSupported : Bool
  /-- `none` where `fetch_ohlcv` still raises after its retries. -/
  fetchOhlcv : Option (List Ohlcv)
  deriving DecidableEq, Repr

/-- The clients are in a dictionary by the name of their exchange. -/
structure MultiExchangeCandleClient where
  exchanges : List CCXTCandleClient
  minExchangesRequired : ℤ := 2
  nodup : (exchanges.map CCXTCandleClient.exchangeName).Nodup

/-- A turn of `_format_candles`. -/
def formatCandle (exchangeName symbol : String) (row : Ohlcv) : Option Candle :=
  match row.openPrice, row.high, row.low, row.close with
  | some openPrice, some high, some low, some close =>
    -- zero is not a price either
    if openPrice = 0 ∨ high = 0 ∨ low = 0 ∨ close = 0 ∨ high < low then none
    else some
      { timestampMs := row.timestampMs
        openPrice, high, low, close
        volume := row.volume.getD 0
        currencyPair := symbol
        exchange := exchangeName
        sourceExchanges := none }
  | _, _, _, _ => none

def formatCandles (exchangeName symbol : String) (ohlcv : List Ohlcv) : List Candle :=
  ohlcv.filterMap (formatCandle exchangeName symbol)

def CCXTCandleClient.getHistoricalCandles (client : CCXTCandleClient) (symbol : String) :
    Option (List Candle) :=
  if client.isSymbolSupported then
    client.fetchOhlcv.map (formatCandles client.exchangeName symbol)
  else some []

def simpleAverage (candles : List Candle) (symbol : String) : Candle :=
  { timestampMs := (candles.map (·.timestampMs)).headD 0
    openPrice := (candles.map (·.openPrice)).sum / candles.length
    high := ((candles.map (·.high)).max?).getD 0
    low := ((candles.map (·.low)).min?).getD 0
    close := (candles.map (·.close)).sum / candles.length
    volume := (candles.map (·.volume)).sum
    currencyPair := symbol
    exchange := "averaged"
    sourceExchanges := some (candles.map (·.exchange)) }

def volumeWeightedAverage (candles : List Candle) (symbol : String) : Candle :=
  let totalVolume := (candles.map (·.volume)).sum
  if totalVolume = 0 then simpleAverage candles symbol
  else
    { timestampMs := (candles.map (·.timestampMs)).headD 0
      openPrice := (candles.map fun c => c.openPrice * c.volume).sum / totalVolume
      high := ((candles.map (·.high)).max?).getD 0
      low := ((candles.map (·.low)).min?).getD 0
      close := (candles.map fun c => c.close * c.volume).sum / totalVolume
      volume := totalVolume
      currencyPair := symbol
      exchange := "aggregated"
      sourceExchanges := some (candles.map (·.exchange)) }

/-- The dictionary of groups, filled exchange by exchange. -/
def timestampGroups (exchangeCandles : List (String × List Candle)) :
    List (ℤ × List Candle) :=
  exchangeCandles.foldl (fun groups e => e.2.foldl (appendTo Candle.timestampMs) groups) []

def aggregateCandles (exchangeCandles : List (String × List Candle)) (symbol : String) :
    List Candle :=
  -- two candles count as several exchanges, whatever the minimum
  let aggregated := (timestampGroups exchangeCandles).filterMap fun group =>
    if 2 ≤ group.2.length then some (volumeWeightedAverage group.2 symbol) else none
  aggregated.insertionSort fun a b => a.timestampMs ≤ b.timestampMs

/-- The candles of the exchanges that support the symbol, do not raise and have any. -/
def MultiExchangeCandleClient.exchangeCandles (client : MultiExchangeCandleClient)
    (symbol : String) : List (String × List Candle) :=
  client.exchanges.filterMap fun exchange =>
    if exchange.isSymbolSupported then
      match exchange.getHistoricalCandles symbol with
      | some candles => if candles = [] then none else some (exchange.exchangeName, candles)
      | none => none
    else none

def MultiExchangeCandleClient.getAggregatedCandles (client : MultiExchangeCandleClient)
    (symbol : String) : List Candle :=
  let exchangeCandles := client.exchangeCandles symbol
  if exchangeCandles.length < client.minExchangesRequired then
    -- the candles of one exchange in their stead
    (exchangeCandles.map Prod.snd).headD []
  else aggregateCandles exchangeCandles symbol

/-! ### What a candle is backed by -/

def candlesAt (delivered : List Candle) (timestamp : ℤ) : List Candle :=
  delivered.filter fun c => c.timestampMs = timestamp

/-- The distinct exchanges with a candle for the timestamp. -/
def exchangesAt (delivered : List Candle) (timestamp : ℤ) : List String :=
  ((candlesAt delivered timestamp).map (·.exchange)).dedup

/-- The open and the close are between the low and the high. -/
def Candle.Ordered (c : Candle) : Prop :=
  (c.low ≤ c.openPrice ∧ c.openPrice ≤ c.high) ∧ c.low ≤ c.close ∧ c.close ≤ c.high

/-- What the candles made of those delivered have to be. -/
structure Sound (minExchanges : ℤ) (delivered result : List Candle) : Prop where
  increasing : result.Pairwise fun a b => a.timestampMs < b.timestampMs
  backed : ∀ c ∈ result, minExchanges ≤ (exchangesAt delivered c.timestampMs).length
  volume : ∀ c ∈ result, c.volume = ((candlesAt delivered c.timestampMs).map (·.volume)).sum
  ordered : ∀ c ∈ result,
    (∀ d ∈ candlesAt delivered c.timestampMs, d.Ordered ∧ 0 ≤ d.volume) → c.Ordered

/-- All candles that the exchanges deliver. -/
def MultiExchangeCandleClient.delivered (client : MultiExchangeCandleClient) (symbol : String) :
    List Candle :=
  (client.exchangeCandles symbol).flatMap Prod.snd

/-! ### The average of one timestamp -/

section
variable {candles : List Candle} {timestamp : ℤ}

theorem mem_candlesAt {delivered : List Candle} {c : Candle} :
    c ∈ candlesAt delivered timestamp ↔ c ∈ delivered ∧ c.timestampMs = timestamp := by
  simp [candlesAt]

theorem low_le_of_mem {c : Candle} (h : c ∈ candles) :
    ((candles.map (·.low)).min?).getD 0 ≤ c.low := by
  have hmem : c.low ∈ candles.map (·.low) := List.mem_map_of_mem h
  obtain ⟨low, hlow⟩ := Option.ne_none_iff_exists'.mp
    (mt List.min?_eq_none_iff.mp (List.ne_nil_of_mem hmem))
  rw [hlow, Option.getD_some]
  exact (List.min?_eq_some_iff.mp hlow).2 _ hmem

theorem le_high_of_mem {c : Candle} (h : c ∈ candles) :
    c.high ≤ ((candles.map (·.high)).max?).getD 0 := by
  have hmem : c.high ∈ candles.map (·.high) := List.mem_map_of_mem h
  obtain ⟨high, hhigh⟩ := Option.ne_none_iff_exists'.mp
    (mt List.max?_eq_none_iff.mp (List.ne_nil_of_mem hmem))
  rw [hhigh, Option.getD_some]
  exact (List.max?_eq_some_iff.mp hhigh).2 _ hmem

variable (symbol : String)

theorem volumeWeightedAverage_volume :
    (volumeWeightedAverage candles symbol).volume = (candles.map (·.volume)).sum := by
  rw [volumeWeightedAverage]
  split_ifs <;> rfl

theorem volumeWeightedAverage_timestampMs (hne : candles ≠ [])
    (hat : ∀ c ∈ candles, c.timestampMs = timestamp) :
    (volumeWeightedAverage candles symbol).timestampMs = timestamp := by
  have hhead : (candles.map (·.timestampMs)).headD 0 = timestamp := by
    obtain ⟨first, rest, rfl⟩ := List.exists_cons_of_ne_nil hne
    exact hat first List.mem_cons_self
  rw [volumeWeightedAverage]
  split_ifs <;> exact hhead

/-- Traded or not, the average of ordered candles is ordered. -/
theorem volumeWeightedAverage_ordered (hne : candles ≠ [])
    (h : ∀ c ∈ candles, c.Ordered ∧ 0 ≤ c.volume) :
    (volumeWeightedAverage candles symbol).Ordered := by
  let low := ((candles.map (·.low)).min?).getD 0
  let high := ((candles.map (·.high)).max?).getD 0
  have hopen : (∀ c ∈ candles, low ≤ c.openPrice) ∧ ∀ c ∈ candles, c.openPrice ≤ high :=
    ⟨fun c hc => (low_le_of_mem hc).trans (h c hc).1.1.1,
      fun c hc => (h c hc).1.1.2.trans (le_high_of_mem hc)⟩
  have hclose : (∀ c ∈ candles, low ≤ c.close) ∧ ∀ c ∈ candles, c.close ≤ high :=
    ⟨fun c hc => (low_le_of_mem hc).trans (h c hc).1.2.1,
      fun c hc => (h c hc).1.2.2.trans (le_high_of_mem hc)⟩
  have hvolume : ∀ c ∈ candles, 0 ≤ c.volume := fun c hc => (h c hc).2
  rw [volumeWeightedAverage]
  split_ifs with hzero
  · exact ⟨simple_average_bounds hne hopen.1 hopen.2,
      simple_average_bounds hne hclose.1 hclose.2⟩
  · have htotal : 0 < (candles.map (·.volume)).sum := by
      apply lt_of_le_of_ne' _ hzero
      apply List.sum_nonneg
      simpa only [List.forall_mem_map] using hvolume
    exact ⟨weighted_average_bounds hvolume htotal hopen.1 hopen.2,
      weighted_average_bounds hvolume htotal hclose.1 hclose.2⟩

end

/-! ### All timestamps -/

section
variable {exchangeCandles : List (String × List Candle)} {symbol : String}

theorem timestampGroups_eq : timestampGroups exchangeCandles =
    groupsOf Candle.timestampMs (exchangeCandles.flatMap Prod.snd) := by
  rw [timestampGroups, groupsOf, List.foldl_flatMap]

/-- A timestamp with two candles or more has a candle, their average. -/
theorem mem_aggregateCandles_iff {c : Candle} :
    c ∈ aggregateCandles exchangeCandles symbol ↔
      ∃ timestamp, 2 ≤ (candlesAt (exchangeCandles.flatMap Prod.snd) timestamp).length ∧
        c = volumeWeightedAverage (candlesAt (exchangeCandles.flatMap Prod.snd) timestamp)
          symbol := by
  rw [aggregateCandles, List.mem_insertionSort, timestampGroups_eq, List.mem_filterMap]
  constructor
  · rintro ⟨⟨timestamp, group⟩, hgroup, hc⟩
    obtain ⟨-, rfl⟩ := (mem_groupsOf_iff _).mp hgroup
    split_ifs at hc with htwo
    exact ⟨timestamp, htwo, (Option.some.inj hc).symm⟩
  · rintro ⟨timestamp, htwo, rfl⟩
    refine ⟨(timestamp, candlesAt (exchangeCandles.flatMap Prod.snd) timestamp), ?_, if_pos htwo⟩
    rw [mem_groupsOf_iff]
    have hpos : 0 < (candlesAt (exchangeCandles.flatMap Prod.snd) timestamp).length := by omega
    obtain ⟨d, hd⟩ := List.exists_mem_of_length_pos hpos
    obtain ⟨hd, htime⟩ := mem_candlesAt.mp hd
    exact ⟨htime ▸ List.mem_map_of_mem hd, rfl⟩

theorem timestampMs_of_two {delivered : List Candle} {timestamp : ℤ}
    (htwo : 2 ≤ (candlesAt delivered timestamp).length) :
    (volumeWeightedAverage (candlesAt delivered timestamp) symbol).timestampMs = timestamp := by
  apply volumeWeightedAverage_timestampMs
  · exact List.ne_nil_of_length_pos (by omega)
  · exact fun c hc => (mem_candlesAt.mp hc).2

theorem aggregateCandles_increasing :
    (aggregateCandles exchangeCandles symbol).Pairwise
      fun a b => a.timestampMs < b.timestampMs := by
  let aggregated := (timestampGroups exchangeCandles).filterMap fun group =>
    if 2 ≤ group.2.length then some (volumeWeightedAverage group.2 symbol) else none
  have hdistinct : aggregated.Pairwise fun a b => a.timestampMs ≠ b.timestampMs := by
    have hkeys := nodup_map_fst_groupsOf Candle.timestampMs (exchangeCandles.flatMap Prod.snd)
    rw [List.Nodup, List.pairwise_map, ← timestampGroups_eq] at hkeys
    rw [List.pairwise_filterMap]
    apply hkeys.imp_of_mem
    intro g h hg hh hne a ha b hb
    rw [timestampGroups_eq] at hg hh
    obtain ⟨-, hg⟩ := (mem_groupsOf_iff _).mp hg
    obtain ⟨-, hh⟩ := (mem_groupsOf_iff _).mp hh
    split_ifs at ha hb with htwo htwo'
    obtain rfl := Option.some.inj ha
    obtain rfl := Option.some.inj hb
    rw [hg] at htwo ⊢
    rw [hh] at htwo' ⊢
    rw [← candlesAt, timestampMs_of_two htwo, ← candlesAt, timestampMs_of_two htwo']
    exact hne
  have hsorted : (aggregateCandles exchangeCandles symbol).Pairwise
      fun a b => a.timestampMs ≤ b.timestampMs := List.pairwise_insertionSort _ _
  have hperm : (aggregateCandles exchangeCandles symbol).Perm aggregated :=
    List.perm_insertionSort _ _
  have hdistinct' := (hperm.pairwise_iff fun h => Ne.symm h).mpr hdistinct
  exact (hsorted.and hdistinct').imp fun h => lt_of_le_of_ne h.1 h.2

/-- All but the number of exchanges, which is another condition for each timestamp. -/
theorem sound_aggregateCandles_iff (minExchanges : ℤ) :
    Sound minExchanges (exchangeCandles.flatMap Prod.snd)
        (aggregateCandles exchangeCandles symbol) ↔
      ∀ timestamp, 2 ≤ (candlesAt (exchangeCandles.flatMap Prod.snd) timestamp).length →
        minExchanges ≤ (exchangesAt (exchangeCandles.flatMap Prod.snd) timestamp).length := by
  constructor
  · intro h timestamp htwo
    have hmem : volumeWeightedAverage (candlesAt (exchangeCandles.flatMap Prod.snd) timestamp) symbol
        ∈ aggregateCandles exchangeCandles symbol :=
      mem_aggregateCandles_iff.mpr ⟨timestamp, htwo, rfl⟩
    have hbacked := h.backed _ hmem
    rwa [timestampMs_of_two htwo] at hbacked
  · intro h
    refine ⟨aggregateCandles_increasing, ?_, ?_, ?_⟩
    · intro c hc
      obtain ⟨timestamp, htwo, rfl⟩ := mem_aggregateCandles_iff.mp hc
      rw [timestampMs_of_two htwo]
      exact h timestamp htwo
    · intro c hc
      obtain ⟨timestamp, htwo, rfl⟩ := mem_aggregateCandles_iff.mp hc
      rw [timestampMs_of_two htwo, volumeWeightedAverage_volume]
    · intro c hc hordered
      obtain ⟨timestamp, htwo, rfl⟩ := mem_aggregateCandles_iff.mp hc
      rw [timestampMs_of_two htwo] at hordered
      exact volumeWeightedAverage_ordered symbol (List.ne_nil_of_length_pos (by omega)) hordered

end

/-! ### The exchanges that deliver -/

variable (client : MultiExchangeCandleClient) (symbol : String)

/-- An exchange delivers candles of its own, and some. -/
theorem of_mem_exchangeCandles {e : String × List Candle}
    (h : e ∈ client.exchangeCandles symbol) : e.2 ≠ [] ∧ ∀ c ∈ e.2, c.exchange = e.1 := by
  obtain ⟨exchange, -, he⟩ := List.mem_filterMap.mp h
  split_ifs at he with hsupported
  simp only [CCXTCandleClient.getHistoricalCandles, if_pos hsupported] at he
  cases hfetch : exchange.fetchOhlcv with
  | none => simp [hfetch] at he
  | some rows =>
    simp only [hfetch, Option.map_some] at he
    split_ifs at he with hnone
    obtain rfl := Option.some.inj he
    refine ⟨hnone, ?_⟩
    intro c hc
    obtain ⟨row, -, hrow⟩ := List.mem_filterMap.mp hc
    rw [formatCandle] at hrow
    split at hrow
    · split_ifs at hrow
      obtain rfl := Option.some.inj hrow
      rfl
    · cases hrow

/-- No timestamp has more exchanges than deliver. -/
theorem length_exchangesAt_le (timestamp : ℤ) :
    (exchangesAt (client.delivered symbol) timestamp).length ≤
      (client.exchangeCandles symbol).length := by
  have hsubset : exchangesAt (client.delivered symbol) timestamp ⊆
      (client.exchangeCandles symbol).map Prod.fst := by
    intro name hname
    rw [exchangesAt, List.mem_dedup, List.mem_map] at hname
    obtain ⟨c, hc, rfl⟩ := hname
    obtain ⟨e, he, hce⟩ := List.mem_flatMap.mp (mem_candlesAt.mp hc).1
    rw [(of_mem_exchangeCandles client symbol he).2 c hce]
    exact List.mem_map_of_mem he
  have hle := ((List.nodup_dedup _).subperm hsubset).length_le
  rwa [List.length_map] at hle

/-- The candles are what they have to be just where no exchange delivers any, or the minimum
of exchanges do and every timestamp with two candles has that many exchanges. -/
theorem sound_getAggregatedCandles_iff :
    Sound client.minExchangesRequired (client.delivered symbol)
        (client.getAggregatedCandles symbol) ↔
      client.delivered symbol = [] ∨
        (client.minExchangesRequired ≤ (client.exchangeCandles symbol).length ∧
          ∀ timestamp, 2 ≤ (candlesAt (client.delivered symbol) timestamp).length →
            client.minExchangesRequired ≤
              (exchangesAt (client.delivered symbol) timestamp).length) := by
  rw [MultiExchangeCandleClient.getAggregatedCandles]
  by_cases hfew : ((client.exchangeCandles symbol).length : ℤ) < client.minExchangesRequired
  · rw [if_pos hfew]
    cases hdeliver : client.exchangeCandles symbol with
    | nil =>
      have hnone : client.delivered symbol = [] := by
        rw [MultiExchangeCandleClient.delivered, hdeliver, List.flatMap_nil]
      refine iff_of_true ?_ (Or.inl hnone)
      constructor <;> simp
    | cons e rest =>
      -- the candles of one exchange, at timestamps with fewer than the minimum
      have he : e ∈ client.exchangeCandles symbol := hdeliver ▸ List.mem_cons_self
      obtain ⟨c, hc⟩ := List.exists_mem_of_ne_nil _ (of_mem_exchangeCandles client symbol he).1
      have hdelivered : c ∈ client.delivered symbol := List.mem_flatMap_of_mem he hc
      apply iff_of_false
      · intro h
        have hbacked := h.backed c hc
        have hle := length_exchangesAt_le client symbol c.timestampMs
        omega
      · rw [not_or]
        rw [hdeliver] at hfew
        exact ⟨List.ne_nil_of_mem hdelivered, fun h => absurd h.1 (not_le.mpr hfew)⟩
  · rw [if_neg hfew, MultiExchangeCandleClient.delivered, sound_aggregateCandles_iff]
    rw [not_lt] at hfew
    constructor
    · exact fun h => Or.inr ⟨hfew, h⟩
    · rintro (hnone | h)
      · intro timestamp htwo
        rw [hnone] at htwo
        simp [candlesAt] at htwo
      · exact h.2

/-- A row with these prices. -/
def flatRow (timestampMs : ℤ) (price : ℚ) : Ohlcv :=
  ⟨timestampMs, some price, some price, some price, some price, some 1⟩

/-- Three exchanges, all of which have to have a timestamp; the last one has another. -/
def threeExchanges : MultiExchangeCandleClient where
  exchanges := [⟨"binance", true, some [flatRow 1 100]⟩, ⟨"coinbasepro", true, some [flatRow 1 101]⟩,
    ⟨"kraken", true, some [flatRow 2 102]⟩]
  minExchangesRequired := 3
  nodup := by decide

theorem threeExchanges_not_sound :
    ¬ Sound 3 (threeExchanges.delivered "btcusd")
      (threeExchanges.getAggregatedCandles "btcusd") := by
  intro h
  have hresult : (threeExchanges.getAggregatedCandles "btcusd").map (·.timestampMs) = [1] := by
    decide +kernel
  obtain ⟨c, hc, htime⟩ := List.mem_map.mp (hresult ▸ List.mem_singleton_self (1 : ℤ))
  have hbacked := h.backed c hc
  rw [htime] at hbacked
  have htwo : (exchangesAt (threeExchanges.delivered "btcusd") 1).length = 2 := by decide +kernel
  rw [htwo] at hbacked
  exact absurd hbacked (by decide)

end TradeStream.CandleAggregation
