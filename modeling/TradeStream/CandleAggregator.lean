import TradeStream.Transducer
import TradeStream.Timestamp

/-! `CandleAggregator.java` and `Timeframe.java`: raw trades are aggregated into
OHLCV candles, one active builder per currency pair. Prices and volumes are exact
numbers of an ordered type `K`; times are integers, as nothing the aggregator
computes from a valid timestamp leaves the range of a Java `long`. -/
namespace TradeStream.MarketData

/-- Java's `/` truncates, hence `tdiv`. -/
def toEpochMillis (ts : Timestamp) : ℤ :=
  ts.seconds * 1000 + ts.nanos.tdiv 1000000

def fromEpochMillis (millis : ℤ) : Timestamp :=
  ⟨millis.tdiv 1000, millis.tmod 1000 * 1000000⟩

@[simp] theorem toEpochMillis_fromEpochMillis (millis : ℤ) :
    toEpochMillis (fromEpochMillis millis) = millis := by
  simp only [toEpochMillis, fromEpochMillis]
  rw [Int.mul_tdiv_cancel _ (by decide)]
  exact Int.tdiv_mul_add_tmod millis 1000

theorem toEpochMillis_eq {ts : Timestamp} (h : ts.Valid) :
    toEpochMillis ts = ts.seconds * 1000 + ts.nanos / 1000000 := by
  rw [toEpochMillis, Int.tdiv_eq_ediv_of_nonneg h.2.2.1]

theorem toEpochMillis_mono {a b : Timestamp} (ha : a.Valid) (hb : b.Valid) (h : a.NotAfter b) :
    toEpochMillis a ≤ toEpochMillis b := by
  rw [toEpochMillis_eq ha, toEpochMillis_eq hb]
  obtain ⟨_, _, ha0, ha1⟩ := ha
  obtain ⟨_, _, hb0, hb1⟩ := hb
  rcases h with h | ⟨h, hn⟩ <;> omega

inductive Timeframe where
  | ONE_MINUTE
  | FIVE_MINUTES
  | FIFTEEN_MINUTES
  | ONE_HOUR
  | FOUR_HOURS
  | ONE_DAY
  deriving DecidableEq, Repr

namespace Timeframe

/-- `Timeframe.values()`, in declaration order. -/
def values : List Timeframe :=
  [ONE_MINUTE, FIVE_MINUTES, FIFTEEN_MINUTES, ONE_HOUR, FOUR_HOURS, ONE_DAY]

/-- `getDuration().toMillis()`. -/
def durationMillis : Timeframe → ℤ
  | ONE_MINUTE => 60000
  | FIVE_MINUTES => 300000
  | FIFTEEN_MINUTES => 900000
  | ONE_HOUR => 3600000
  | FOUR_HOURS => 14400000
  | ONE_DAY => 86400000

def getLabel : Timeframe → String
  | ONE_MINUTE => "1m"
  | FIVE_MINUTES => "5m"
  | FIFTEEN_MINUTES => "15m"
  | ONE_HOUR => "1h"
  | FOUR_HOURS => "4h"
  | ONE_DAY => "1d"

def alignToInterval (tf : Timeframe) (epochMillis : ℤ) : ℤ :=
  epochMillis.tdiv tf.durationMillis * tf.durationMillis

theorem durationMillis_pos (tf : Timeframe) : 0 < tf.durationMillis := by
  cases tf <;> decide

theorem durationMillis_dvd_align (tf : Timeframe) (m : ℤ) :
    tf.durationMillis ∣ tf.alignToInterval m :=
  Dvd.intro_left _ rfl

/-- Truncating division is monotone, before the epoch as well as after it. -/
theorem alignToInterval_mono (tf : Timeframe) {a b : ℤ} (h : a ≤ b) :
    tf.alignToInterval a ≤ tf.alignToInterval b := by
  have hd := tf.durationMillis_pos
  exact Int.mul_le_mul_of_nonneg_right (Int.tdiv_le_tdiv hd h) hd.le

theorem alignToInterval_le (tf : Timeframe) {m : ℤ} (hm : 0 ≤ m) : tf.alignToInterval m ≤ m := by
  rw [alignToInterval, Int.tdiv_eq_ediv_of_nonneg hm]
  exact Int.ediv_mul_le m tf.durationMillis_pos.ne'

theorem lt_alignToInterval_add (tf : Timeframe) (m : ℤ) :
    m < tf.alignToInterval m + tf.durationMillis := by
  have hd := tf.durationMillis_pos
  have hm := Int.tmod_lt_of_pos m hd
  have he := Int.mul_tdiv_add_tmod m tf.durationMillis
  rw [alignToInterval, mul_comm]
  linarith

/-- Where the alignment does not round up, the aligned start is the start of the
interval that contains the instant. Before the epoch Java's division rounds up. -/
theorem alignToInterval_eq_iff (tf : Timeframe) {m s : ℤ} (hm : tf.alignToInterval m ≤ m)
    (hs : tf.durationMillis ∣ s) :
    tf.alignToInterval m = s ↔ s ≤ m ∧ m < s + tf.durationMillis := by
  have hlt := tf.lt_alignToInterval_add m
  constructor
  · rintro rfl
    exact ⟨hm, hlt⟩
  · rintro ⟨h1, h2⟩
    have hd := (tf.durationMillis_dvd_align m).sub hs
    have habs : |tf.alignToInterval m - s| < tf.durationMillis := by
      rw [abs_lt]
      constructor <;> linarith
    exact sub_eq_zero.mp (Int.eq_zero_of_abs_lt_dvd hd habs)

end Timeframe

/-- A raw trade: the fields the aggregator reads, with a well-formed timestamp. -/
structure Trade (K : Type*) where
  timestamp : Timestamp
  currencyPair : String
  price : K
  volume : K
  timestamp_valid : timestamp.Valid

structure Candle (K : Type*) where
  timestamp : Timestamp
  currencyPair : String
  openPrice : K
  high : K
  low : K
  close : K
  volume : K
  deriving DecidableEq, Repr

/-- The opening time of a candle in epoch milliseconds. -/
def Candle.start {K : Type*} (c : Candle K) : ℤ := toEpochMillis c.timestamp

/-- `CandleBuilder`: OHLCV data accumulated within one interval. -/
structure CandleBuilder (K : Type*) where
  pair : String
  intervalStart : ℤ
  openPrice : K
  high : K
  low : K
  close : K
  volume : K

section Aggregator
variable {K : Type*} [LinearOrder K] [AddCommMonoid K]

/-- The time of a trade in epoch milliseconds. -/
def Trade.millis (trade : Trade K) : ℤ := toEpochMillis trade.timestamp

/-- The interval of a trade, as `onTrade` computes it. -/
def Trade.intervalStart (tf : Timeframe) (trade : Trade K) : ℤ :=
  tf.alignToInterval trade.millis

namespace CandleBuilder

/-- The builder `onTrade` creates for the first trade of an interval. -/
def ofTrade (tf : Timeframe) (trade : Trade K) : CandleBuilder K :=
  ⟨trade.currencyPair, trade.intervalStart tf, trade.price, trade.price, trade.price,
    trade.price, trade.volume⟩

def update (b : CandleBuilder K) (price tradeVolume : K) : CandleBuilder K :=
  { b with
    high := if price > b.high then price else b.high
    low := if price < b.low then price else b.low
    close := price
    volume := b.volume + tradeVolume }

def build (b : CandleBuilder K) : Candle K :=
  ⟨fromEpochMillis b.intervalStart, b.pair, b.openPrice, b.high, b.low, b.close, b.volume⟩

omit [LinearOrder K] [AddCommMonoid K] in
@[simp] theorem build_start (b : CandleBuilder K) : b.build.start = b.intervalStart := by
  simp [build, Candle.start]

end CandleBuilder

def buildGapCandle (pair : String) (intervalStart : ℤ) (lastClose : K) : Candle K :=
  ⟨fromEpochMillis intervalStart, pair, lastClose, lastClose, lastClose, lastClose, 0⟩

/-- The `while` loop of `emitWithGapFill`. `fuel` bounds the iterations. -/
def gapLoop (tf : Timeframe) (pair : String) (lastClose : K) (newIntervalStart : ℤ) :
    ℕ → ℤ → List (Candle K)
  | 0, _ => []
  | fuel + 1, gapStart =>
    if gapStart < newIntervalStart then
      buildGapCandle pair gapStart lastClose ::
        gapLoop tf pair lastClose newIntervalStart fuel (gapStart + tf.durationMillis)
    else []

/-- The loop run to its end: the distance left is always fuel enough. -/
def gapFill (tf : Timeframe) (pair : String) (lastClose : K) (newIntervalStart gapStart : ℤ) :
    List (Candle K) :=
  gapLoop tf pair lastClose newIntervalStart (newIntervalStart - gapStart).toNat gapStart

def emitWithGapFill (tf : Timeframe) (pair : String) (completedBuilder : CandleBuilder K)
    (newIntervalStart : ℤ) : List (Candle K) :=
  let completed := completedBuilder.build
  completed :: gapFill tf pair completed.close newIntervalStart
    (completedBuilder.intervalStart + tf.durationMillis)

omit [LinearOrder K] in
theorem gapLoop_fuel (tf : Timeframe) (pair : String) (lastClose : K) (n g : ℤ) (fuel : ℕ)
    (hf : (n - g).toNat ≤ fuel) :
    gapLoop tf pair lastClose n fuel g = gapLoop tf pair lastClose n (n - g).toNat g := by
  have hd := tf.durationMillis_pos
  induction fuel using Nat.strong_induction_on generalizing g with
  | _ fuel ih =>
    by_cases hg : g < n
    · obtain ⟨k, hk⟩ : ∃ k, (n - g).toNat = k + 1 := ⟨(n - g).toNat - 1, by omega⟩
      obtain ⟨f, rfl⟩ : ∃ f, fuel = f + 1 := ⟨fuel - 1, by omega⟩
      have h1 := ih f (by omega) (g + tf.durationMillis) (by omega)
      have h2 := ih k (by omega) (g + tf.durationMillis) (by omega)
      rw [hk]
      simp only [gapLoop, if_pos hg, h1, h2]
    · have hz : (n - g).toNat = 0 := by omega
      rw [hz]
      cases fuel with
      | zero => rfl
      | succ f => simp only [gapLoop, if_neg hg]

omit [LinearOrder K] in
/-- `gapFill` satisfies the equation of the source's loop, without fuel. -/
theorem gapFill_eq (tf : Timeframe) (pair : String) (lastClose : K) (n g : ℤ) :
    gapFill tf pair lastClose n g =
      if g < n then
        buildGapCandle pair g lastClose :: gapFill tf pair lastClose n (g + tf.durationMillis)
      else [] := by
  have hd := tf.durationMillis_pos
  by_cases hg : g < n
  · obtain ⟨k, hk⟩ : ∃ k, (n - g).toNat = k + 1 := ⟨(n - g).toNat - 1, by omega⟩
    rw [if_pos hg, gapFill, hk, gapLoop, if_pos hg, gapFill,
      gapLoop_fuel tf pair lastClose n (g + tf.durationMillis) k (by omega)]
  · have hz : (n - g).toNat = 0 := by omega
    rw [if_neg hg, gapFill, hz, gapLoop]

/-- The state of an aggregator: at most one active builder for each pair, filed
under its own pair. -/
structure CandleAggregator (K : Type*) where
  timeframe : Timeframe
  activeCandles : AList (fun _ : String => CandleBuilder K)
  filed : ∀ p b, activeCandles.lookup p = some b → b.pair = p

/-- The order in which a `ConcurrentHashMap` iterates over its entries is not
specified: any rearrangement may happen at a given call. -/
structure IterationOrder (α : Type*) where
  arrange : List α → List α
  perm : ∀ l, (arrange l).Perm l

def IterationOrder.insertion (α : Type*) : IterationOrder α := ⟨id, fun l => .refl l⟩

namespace CandleAggregator

def new (tf : Timeframe) : CandleAggregator K := ⟨tf, ∅, by simp⟩

/-- `activeCandles.put(pair, builder)` for a builder of that pair. -/
def put (agg : CandleAggregator K) (b : CandleBuilder K) : CandleAggregator K where
  timeframe := agg.timeframe
  activeCandles := agg.activeCandles.insert b.pair b
  filed := by
    intro p b' h
    by_cases hp : p = b.pair
    · subst hp
      rw [AList.lookup_insert] at h
      rw [Option.some.inj h]
    · rw [AList.lookup_insert_ne hp] at h
      exact agg.filed p b' h

def onTrade (agg : CandleAggregator K) (trade : Trade K) :
    CandleAggregator K × List (Candle K) :=
  let pair := trade.currencyPair
  let intervalStart := trade.intervalStart agg.timeframe
  match agg.activeCandles.lookup pair with
  | none => (agg.put (.ofTrade agg.timeframe trade), [])
  | some builder =>
    if builder.intervalStart ≠ intervalStart then
      (agg.put (.ofTrade agg.timeframe trade),
        emitWithGapFill agg.timeframe pair builder intervalStart)
    else (agg.put (builder.update trade.price trade.volume), [])

def flush (agg : CandleAggregator K)
    (order : IterationOrder (Sigma fun _ : String => CandleBuilder K)) :
    CandleAggregator K × List (Candle K) :=
  (⟨agg.timeframe, ∅, by simp⟩,
    (order.arrange agg.activeCandles.entries).map fun entry => entry.2.build)

end CandleAggregator

/-- The calls an aggregator or a pipeline receives. -/
inductive Call (K : Type*) where
  | onTrade (trade : Trade K)
  | flush (order : IterationOrder (Sigma fun _ : String => CandleBuilder K))

def CandleAggregator.step (agg : CandleAggregator K) : Call K → CandleAggregator K × List (Candle K)
  | .onTrade trade => agg.onTrade trade
  | .flush order => agg.flush order

end Aggregator

end TradeStream.MarketData
