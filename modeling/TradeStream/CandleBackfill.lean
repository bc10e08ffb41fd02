import TradeStream.CandleIngestor
import TradeStream.SortedWindow

/-! The watermark of a backfill, over an exchange client that keeps its contract: a request
returns the first candles from a timestamp on, no more than its limit. -/
namespace TradeStream.CandleIngestor
open TradeStream.RunSteps

/-- A row of `fetch_ohlcv`. -/
structure Ohlcv where
  timestampMs : ℤ
  openPrice : Option ℚ
  high : Option ℚ
  low : Option ℚ
  close : Option ℚ
  volume : Option ℚ
  deriving DecidableEq

/-- A row of `_format_candles`, which skips invalid candles. -/
def formatCandle (symbol : String) (row : Ohlcv) : Option Candle :=
  match row.openPrice, row.high, row.low, row.close with
  | some openPrice, some high, some low, some close =>
    if (openPrice ≠ 0 ∧ high ≠ 0 ∧ low ≠ 0 ∧ close ≠ 0) ∧ ¬ high < low then
      some ⟨row.timestampMs, openPrice, high, low, close, row.volume.getD 0, symbol⟩
    else none
  | _, _, _, _ => none

/-- An exchange: its markets and the history of each, a row a timestamp. -/
structure Exchange where
  availableSymbols : String → Bool
  history : String → Timeframe → List Ohlcv
  ascending : ∀ symbol timeframe,
    (history symbol timeframe).Pairwise fun a b => a.timestampMs < b.timestampMs

namespace Exchange
variable (exchange : Exchange)

def fetchOhlcv (marketSymbol : String) (timeframe : Timeframe) (since limit : ℤ) :
    List Ohlcv :=
  ((exchange.history marketSymbol timeframe).filter (since ≤ ·.timestampMs)).take limit.toNat

/-- `get_historical_candles` of the client of one exchange. -/
def getHistoricalCandles (symbol : String) (timeframe : Timeframe) (since limit : ℤ) :
    List Candle :=
  let marketSymbol := convertTiingoSymbolToCcxt symbol
  if exchange.availableSymbols marketSymbol then
    (exchange.fetchOhlcv marketSymbol timeframe since limit).filterMap (formatCandle symbol)
  else []

/-- The turns of a run in which nothing fails. -/
def answers : ℕ → Answers := fun _ =>
  { fetched := exchange.getHistoricalCandles
    writes := true
    reads := fun _ => true
    updates := true
    publishes := true
    now := 0 }

end Exchange

section
variable (settings : Settings) (exchange : Exchange) (flagStart : ℤ)

/-- What the exchange has for a ticker, in the timeframe of the flags. -/
def tickerHistory (ticker : String) : List Ohlcv :=
  exchange.history (convertTiingoSymbolToCcxt (convertTiingoSymbolToCcxt ticker))
    (getCcxtTimeframe settings.candleGranularityMinutes)

/-- The candle of a row is in the store. -/
def State.Stores (st : State) (ticker : String) (row : Ohlcv) : Prop :=
  ∃ candle ∈ st.candles, formatCandle (convertTiingoSymbolToCcxt ticker) row = some candle

/-- Every candle that the exchange has from the flag's date to a recorded timestamp is in the
store. -/
def WatermarkSound (st : State) : Prop :=
  ∀ ticker watermark, st.lookup serviceIdentifier (backfillKey ticker) = some watermark →
    ∀ row ∈ tickerHistory settings exchange ticker, flagStart ≤ row.timestampMs * 1000 →
      row.timestampMs ≤ watermark → st.Stores ticker row

def rowsBetween (rows : List Ohlcv) (since until' : ℤ) : ℕ :=
  rows.countP fun row => since ≤ row.timestampMs ∧ row.timestampMs < until'

/-- The timestamp from which a chunk is asked for: its date, without the time. -/
def chunkSince (chunk : ℤ × ℤ) : ℤ := floorTo day chunk.1 / 1000

def chunkLimit (chunk : ℤ × ℤ) : ℤ :=
  candleLimit (getCcxtTimeframe settings.candleGranularityMinutes)
    (floorTo day chunk.2 - floorTo day chunk.1)

/-- A row is close enough to the start of a chunk for one request. -/
def WithinLimit (rows : List Ohlcv) (chunk : ℤ × ℤ) (row : Ohlcv) : Prop :=
  chunkSince chunk ≤ row.timestampMs ∧
    (rowsBetween rows (chunkSince chunk) row.timestampMs : ℤ) < chunkLimit settings chunk

/-- The start of the 90 days of a backfill from `start` that a row falls into. -/
def ownSince (start : ℤ) (row : Ohlcv) : ℤ :=
  let first := floorTo day start / 1000
  first + floorTo (90 * day / 1000) (row.timestampMs - first)

/-- A row of a chunk that is not the last one of its backfill, and whose own 90 days have fewer
rows before it than one request returns. -/
def WithinOwnLimit (rows : List Ohlcv) (start : ℤ) (row : Ohlcv) : Prop :=
  floorTo day start / 1000 ≤ row.timestampMs ∧
    (rowsBetween rows (ownSince start row) row.timestampMs : ℤ) <
      candleLimit (getCcxtTimeframe settings.candleGranularityMinutes) (89 * day)

def Valid (row : Ohlcv) : Prop := (formatCandle "" row).isSome

instance : DecidablePred Valid := fun row =>
  inferInstanceAs (Decidable ((formatCandle "" row).isSome = true))

instance (rows : List Ohlcv) (chunk : ℤ × ℤ) (row : Ohlcv) :
    Decidable (WithinLimit settings rows chunk row) :=
  inferInstanceAs (Decidable (_ ∧ _))

/-- What a ticker's turn must find. Take the last chunk whose request returns a valid candle,
and what it returns: every row before that from the flag's date on, if it is not in the
store, is valid and of that chunk, or else within the limit of its own 90 days. -/
def TurnComplete (endDate : ℤ) (st : State) (ticker : String) : Prop :=
  let rows := tickerHistory settings exchange ticker
  let start := backfillStart settings exchange.answers st ticker flagStart
  exchange.availableSymbols (convertTiingoSymbolToCcxt (convertTiingoSymbolToCcxt ticker)) →
    ∀ earlier chunk later, chunksFrom start endDate = earlier ++ chunk :: later →
      (∀ next ∈ later, ∀ row ∈ rows, Valid row → ¬ WithinLimit settings rows next row) →
      ∀ latest ∈ rows, Valid latest → WithinLimit settings rows chunk latest →
        ∀ row ∈ rows, flagStart ≤ row.timestampMs * 1000 →
          row.timestampMs ≤ latest.timestampMs → ¬ st.Stores ticker row →
            Valid row ∧
              (chunkSince chunk ≤ row.timestampMs ∨ WithinOwnLimit settings rows start row)

end

/-! ### Chunks -/

/-- The chunks start 90 days apart, and all but the last span 89 of them. -/
theorem mem_chunksFrom_iff {start endDate : ℤ} {chunk : ℤ × ℤ} :
    chunk ∈ chunksFrom start endDate ↔
      ∃ k : ℕ, start + 90 * day * k < endDate ∧
        chunk = (start + 90 * day * k, min (start + 90 * day * k + 89 * day) (endDate - 1)) := by
  -- the `k`-th chunk of the rest is the next one from the start
  induction start using chunksFrom.induct endDate with
  | case1 start hstart ih =>
    rw [chunksFrom, if_pos hstart, List.mem_cons, ih, chunkEnd_eq hstart]
    simp only [day, hour, minute]
    constructor
    · rintro (rfl | ⟨k, hk, rfl⟩)
      · exact ⟨0, by simpa using hstart, by simp⟩
      · refine ⟨k + 1, ?_, ?_⟩
        · push_cast
          omega
        · push_cast
          ext <;> simp only <;> omega
    · rintro ⟨k, hk, rfl⟩
      cases k with
      | zero => exact .inl (by simp)
      | succ k =>
        refine .inr ⟨k, ?_, ?_⟩
        · push_cast at hk
          omega
        · push_cast at hk ⊢
          ext <;> simp only <;> omega
  | case2 start hstart =>
    rw [chunksFrom, if_neg hstart]
    simp only [day, hour, minute, List.not_mem_nil, false_iff, not_exists, not_and]
    intro k hk
    omega

/-! ### What a chunk fetches -/

theorem formatCandle_some {symbol : String} {row : Ohlcv} {candle : Candle}
    (h : formatCandle symbol row = some candle) :
    candle.timestampMs = row.timestampMs ∧ candle.currencyPair = symbol := by
  simp only [formatCandle] at h
  split at h
  · split_ifs at h
    obtain rfl := Option.some.inj h
    exact ⟨rfl, rfl⟩
  · cases h

theorem valid_iff (symbol : String) (row : Ohlcv) :
    Valid row ↔ ∃ candle, formatCandle symbol row = some candle := by
  rw [← Option.isSome_iff_exists]
  simp only [Valid, formatCandle]
  split
  · split_ifs <;> simp
  · simp

section
variable {settings : Settings} {exchange : Exchange}

theorem mem_fetchOhlcv_iff {symbol : String} {timeframe : Timeframe} {since limit : ℤ}
    {row : Ohlcv} :
    row ∈ exchange.fetchOhlcv symbol timeframe since limit ↔
      row ∈ exchange.history symbol timeframe ∧ since ≤ row.timestampMs ∧
        (rowsBetween (exchange.history symbol timeframe) since row.timestampMs : ℤ) < limit := by
  have hascending := (exchange.ascending symbol timeframe).filter (since ≤ ·.timestampMs)
  rw [Exchange.fetchOhlcv, SortedWindow.mem_take_iff hascending, List.mem_filter,
    List.countP_filter, Int.lt_toNat, and_assoc]
  simp only [decide_eq_true_eq, rowsBetween, ← Bool.decide_and, and_comm]

/-- A chunk's candles are those of the rows within its limit. -/
theorem mem_chunkCandles_iff {n : ℕ} {ticker : String} {chunk : ℤ × ℤ} {candle : Candle} :
    candle ∈ chunkCandles settings (exchange.answers n) ticker chunk ↔
      exchange.availableSymbols (convertTiingoSymbolToCcxt (convertTiingoSymbolToCcxt ticker)) ∧
        ∃ row ∈ tickerHistory settings exchange ticker,
          WithinLimit settings (tickerHistory settings exchange ticker) chunk row ∧
            formatCandle (convertTiingoSymbolToCcxt ticker) row = some candle := by
  rw [chunkCandles, sortCandles, List.mem_insertionSort, getHistoricalCandlesCcxt, List.mem_map]
  simp only [Exchange.answers, Exchange.getHistoricalCandles]
  split_ifs with havailable
  · simp only [havailable, true_and, List.mem_filterMap, mem_fetchOhlcv_iff]
    constructor
    · rintro ⟨_, ⟨row, hrow, hformat⟩, rfl⟩
      have hsymbol := (formatCandle_some hformat).2
      refine ⟨row, hrow.1, hrow.2, ?_⟩
      rw [hformat, ← hsymbol]
    · rintro ⟨row, hrow, hwithin, hformat⟩
      refine ⟨candle, ⟨row, ⟨hrow, hwithin⟩, hformat⟩, ?_⟩
      rw [← (formatCandle_some hformat).2]
  · simp [havailable]

/-- A chunk has no candles exactly if no valid row is within its limit. -/
theorem chunkCandles_eq_nil_iff {n : ℕ} {ticker : String} {chunk : ℤ × ℤ}
    (havailable : exchange.availableSymbols
      (convertTiingoSymbolToCcxt (convertTiingoSymbolToCcxt ticker)) = true) :
    chunkCandles settings (exchange.answers n) ticker chunk = [] ↔
      ∀ row ∈ tickerHistory settings exchange ticker, Valid row →
        ¬ WithinLimit settings (tickerHistory settings exchange ticker) chunk row := by
  rw [List.eq_nil_iff_forall_not_mem]
  constructor
  · intro hnone row hrow hvalid hwithin
    obtain ⟨candle, hcandle⟩ := (valid_iff (convertTiingoSymbolToCcxt ticker) row).mp hvalid
    exact hnone candle (mem_chunkCandles_iff.mpr ⟨havailable, row, hrow, hwithin, hcandle⟩)
  · intro hnone candle hmem
    obtain ⟨-, row, hrow, hwithin, hformat⟩ := mem_chunkCandles_iff.mp hmem
    exact hnone row hrow ((valid_iff _ row).mpr ⟨candle, hformat⟩) hwithin

/-- The last candle of a chunk is its latest. -/
theorem le_getLast_chunkCandles {answer : Answers} {ticker : String} {chunk : ℤ × ℤ}
    {latest candle : Candle}
    (hlast : (chunkCandles settings answer ticker chunk).getLast? = some latest)
    (hmem : candle ∈ chunkCandles settings answer ticker chunk) :
    candle.timestampMs ≤ latest.timestampMs := by
  have : Std.Total fun a b : Candle => a.timestampMs ≤ b.timestampMs :=
    ⟨fun a b => le_total a.timestampMs b.timestampMs⟩
  have : IsTrans Candle fun a b => a.timestampMs ≤ b.timestampMs :=
    ⟨fun _ _ _ hab hbc => hab.trans hbc⟩
  have hsorted : (chunkCandles settings answer ticker chunk).Pairwise
      fun a b => a.timestampMs ≤ b.timestampMs := List.pairwise_insertionSort _ _
  obtain ⟨init, hinit⟩ := List.getLast?_eq_some_iff.mp hlast
  rw [hinit] at hsorted hmem
  rcases List.mem_append.mp hmem with hmem | hmem
  · exact (List.pairwise_append.mp hsorted).2.2 candle hmem latest (by simp)
  · obtain rfl := List.mem_singleton.mp hmem
    exact le_rfl

/-! ### A ticker's turn -/

theorem mem_candles_backfillChunk {ticker : String} {st : State} {chunk : ℤ × ℤ}
    {candle : Candle} :
    candle ∈ (backfillChunk settings exchange.answers ticker st chunk).candles ↔
      candle ∈ st.candles ∨ candle ∈ chunkCandles settings (exchange.answers 0) ticker chunk := by
  have hcandles : chunkCandles settings (exchange.answers st.turns) ticker chunk =
    chunkCandles settings (exchange.answers 0) ticker chunk := rfl
  simp only [backfillChunk, hcandles]
  cases hlast : (chunkCandles settings (exchange.answers 0) ticker chunk).getLast? with
  | none => simp [List.getLast?_eq_none_iff.mp hlast]
  | some latest =>
    have hupdate (st : State) (b : Bool) (service key : String) (value : ℤ) :
        (st.update b service key value).candles = st.candles := by
      cases b <;> rfl
    have hglobal (st : State) (b : Bool) (ticker : String) (value : ℤ) :
        (updateGlobalStatusTracker st b ticker value).candles = st.candles := by
      rw [updateGlobalStatusTracker]
      split
      · exact hupdate _ _ _ _ _
      · rfl
    simp only [Exchange.answers, ↓reduceIte, hglobal, hupdate, List.mem_append]

theorem backfillKey_injective {ticker other : String} (h : backfillKey ticker = backfillKey other) :
    ticker = other := by
  have hlist := congrArg String.toList h
  simp only [backfillKey, String.toList_append, List.append_left_inj] at hlist
  exact String.toList_inj.mp hlist

theorem lookup_update_self (st : State) (service key : String) (value : ℤ) :
    (st.update true service key value).lookup service key = some value := by
  simp [State.update, State.lookup]

theorem lookup_update_of_ne (st : State) (b : Bool) {service other key key' : String}
    (value : ℤ) (h : ¬ (service = other ∧ key = key')) :
    (st.update b service key value).lookup other key' = st.lookup other key' := by
  cases b with
  | false => rfl
  | true => simp [State.update, State.lookup, h]

theorem lookup_updateGlobal (st : State) (b : Bool) (ticker key : String) (value : ℤ) :
    (updateGlobalStatusTracker st b ticker value).lookup serviceIdentifier key =
      st.lookup serviceIdentifier key := by
  rw [updateGlobalStatusTracker]
  split
  · apply lookup_update_of_ne
    rintro ⟨hservice, -⟩
    revert hservice
    decide
  · rfl

/-- A chunk records its latest timestamp, if it has one. -/
theorem lookup_backfillChunk (ticker : String) (st : State) (chunk : ℤ × ℤ) :
    (backfillChunk settings exchange.answers ticker st chunk).lookup serviceIdentifier
        (backfillKey ticker) =
      ((chunkCandles settings (exchange.answers 0) ticker chunk).getLast?.map
        Candle.timestampMs).or (st.lookup serviceIdentifier (backfillKey ticker)) := by
  have hcandles : chunkCandles settings (exchange.answers st.turns) ticker chunk =
    chunkCandles settings (exchange.answers 0) ticker chunk := rfl
  simp only [backfillChunk, hcandles]
  cases (chunkCandles settings (exchange.answers 0) ticker chunk).getLast? with
  | none => rfl
  | some latest =>
    simp only [Exchange.answers, ↓reduceIte, lookup_updateGlobal, lookup_update_self]
    rfl

theorem lookup_backfillChunk_of_ne {ticker other : String} (h : ticker ≠ other) (st : State)
    (chunk : ℤ × ℤ) :
    (backfillChunk settings exchange.answers ticker st chunk).lookup serviceIdentifier
        (backfillKey other) = st.lookup serviceIdentifier (backfillKey other) := by
  have hkey : ¬ (serviceIdentifier = serviceIdentifier ∧
      backfillKey ticker = backfillKey other) := fun hkeys => h (backfillKey_injective hkeys.2)
  simp only [backfillChunk]
  split
  · rfl
  · split_ifs
    · rw [lookup_updateGlobal, lookup_update_of_ne _ _ _ hkey]
      rfl
    · rfl

theorem mem_candles_foldl {ticker : String} {st : State} {chunks : List (ℤ × ℤ)}
    {candle : Candle} :
    candle ∈ (chunks.foldl (backfillChunk settings exchange.answers ticker) st).candles ↔
      candle ∈ st.candles ∨
        ∃ chunk ∈ chunks, candle ∈ chunkCandles settings (exchange.answers 0) ticker chunk := by
  induction chunks generalizing st with
  | nil => simp
  | cons chunk rest ih =>
    rw [List.foldl_cons, ih, mem_candles_backfillChunk, or_assoc, List.exists_mem_cons_iff]

/-- What is recorded after the chunks: the latest timestamp of the last one that has any. -/
theorem lookup_foldl_eq_some_iff {ticker : String} {st : State} {chunks : List (ℤ × ℤ)}
    {watermark : ℤ} :
    (chunks.foldl (backfillChunk settings exchange.answers ticker) st).lookup serviceIdentifier
        (backfillKey ticker) = some watermark ↔
      (∃ earlier chunk later, chunks = earlier ++ chunk :: later ∧
        (∀ next ∈ later, chunkCandles settings (exchange.answers 0) ticker next = []) ∧
          ∃ latest, (chunkCandles settings (exchange.answers 0) ticker chunk).getLast? =
            some latest ∧ latest.timestampMs = watermark) ∨
      ((∀ chunk ∈ chunks, chunkCandles settings (exchange.answers 0) ticker chunk = []) ∧
        st.lookup serviceIdentifier (backfillKey ticker) = some watermark) := by
  induction chunks generalizing st with
  | nil => simp
  | cons first rest ih =>
    rw [List.foldl_cons, ih, lookup_backfillChunk, Option.or_eq_some_iff, Option.map_eq_some_iff,
      Option.map_eq_none_iff, List.getLast?_eq_none_iff, List.forall_mem_cons]
    -- the last chunk with a candle is in the rest, or is the first, or there is none
    constructor
    · rintro (⟨earlier, chunk, later, rfl, hlater, hlatest⟩ |
        ⟨hrest, hfirst | ⟨hfirst, hlookup⟩⟩)
      · exact .inl ⟨first :: earlier, chunk, later, rfl, hlater, hlatest⟩
      · exact .inl ⟨[], first, rest, rfl, hrest, hfirst⟩
      · exact .inr ⟨⟨hfirst, hrest⟩, hlookup⟩
    · rintro (⟨earlier, chunk, later, hsplit, hlater, hlatest⟩ | ⟨⟨hfirst, hrest⟩, hlookup⟩)
      · cases earlier with
        | nil =>
          obtain ⟨rfl, rfl⟩ := List.cons.inj hsplit
          exact .inr ⟨hlater, .inl hlatest⟩
        | cons head earlier =>
          obtain ⟨rfl, rfl⟩ := List.cons.inj hsplit
          exact .inl ⟨earlier, chunk, later, rfl, hlater, hlatest⟩
      · exact .inr ⟨hrest, .inr ⟨hfirst, hlookup⟩⟩

theorem candles_finishBackfill (ticker : String) (st : State) :
    (finishBackfill ticker st).candles = st.candles := by
  rw [finishBackfill]
  split_ifs <;> rfl

theorem lookup_finishBackfill (ticker : String) (st : State) (service key : String) :
    (finishBackfill ticker st).lookup service key = st.lookup service key := by
  rw [finishBackfill]
  split_ifs <;> rfl

theorem mem_candles_backfillTicker {flagStart endDate : ℤ} {st : State} {ticker : String}
    {candle : Candle} :
    candle ∈ (backfillTicker settings exchange.answers flagStart endDate st ticker).candles ↔
      candle ∈ st.candles ∨
        ∃ chunk ∈ chunksFrom (backfillStart settings exchange.answers st ticker flagStart) endDate,
          candle ∈ chunkCandles settings (exchange.answers 0) ticker chunk := by
  simp only [backfillTicker]
  split_ifs with hdone
  · rw [chunksFrom, if_neg (not_lt.mpr hdone)]
    simp
  · rw [candles_finishBackfill, mem_candles_foldl]

theorem lookup_backfillTicker_eq_some_iff {flagStart endDate : ℤ} {st : State} {ticker : String}
    {watermark : ℤ} :
    (backfillTicker settings exchange.answers flagStart endDate st ticker).lookup
        serviceIdentifier (backfillKey ticker) = some watermark ↔
      (∃ earlier chunk later,
        chunksFrom (backfillStart settings exchange.answers st ticker flagStart) endDate =
          earlier ++ chunk :: later ∧
        (∀ next ∈ later, chunkCandles settings (exchange.answers 0) ticker next = []) ∧
          ∃ latest, (chunkCandles settings (exchange.answers 0) ticker chunk).getLast? =
            some latest ∧ latest.timestampMs = watermark) ∨
      ((∀ chunk ∈ chunksFrom (backfillStart settings exchange.answers st ticker flagStart)
          endDate, chunkCandles settings (exchange.answers 0) ticker chunk = []) ∧
        st.lookup serviceIdentifier (backfillKey ticker) = some watermark) := by
  simp only [backfillTicker]
  split_ifs with hdone
  · rw [chunksFrom, if_neg (not_lt.mpr hdone)]
    simp
  · rw [lookup_finishBackfill, lookup_foldl_eq_some_iff]
    rfl

theorem lookup_backfillTicker_of_ne {flagStart endDate : ℤ} {ticker other : String}
    (h : ticker ≠ other) (st : State) :
    (backfillTicker settings exchange.answers flagStart endDate st ticker).lookup
        serviceIdentifier (backfillKey other) = st.lookup serviceIdentifier (backfillKey other) := by
  have hfold (chunks : List (ℤ × ℤ)) (st : State) :
      (chunks.foldl (backfillChunk settings exchange.answers ticker) st).lookup
        serviceIdentifier (backfillKey other) =
          st.lookup serviceIdentifier (backfillKey other) := by
    induction chunks generalizing st with
    | nil => rfl
    | cons chunk rest ih => rw [List.foldl_cons, ih, lookup_backfillChunk_of_ne h]
  simp only [backfillTicker]
  split_ifs
  · rfl
  · rw [lookup_finishBackfill, hfold]
    rfl

/-! ### The limit of a request and the rows of a chunk -/

theorem rowsBetween_le (rows : List Ohlcv) {since since' until' later : ℤ} (h : since ≤ since')
    (h' : until' ≤ later) : rowsBetween rows since' until' ≤ rowsBetween rows since later := by
  refine List.countP_mono_left fun row _ => ?_
  simp only [decide_eq_true_eq]
  omega

/-- What lies between the start of a chunk and a row within its limit is within it too. -/
theorem WithinLimit.of_le {rows : List Ohlcv} {chunk : ℤ × ℤ} {row latest : Ohlcv}
    (hlatest : WithinLimit settings rows chunk latest)
    (hsince : chunkSince chunk ≤ row.timestampMs) (h : row.timestampMs ≤ latest.timestampMs) :
    WithinLimit settings rows chunk row := by
  have hcount := rowsBetween_le rows (le_refl (chunkSince chunk)) h
  exact ⟨hsince, by have := hlatest.2; omega⟩

theorem chunkSince_eq (start endDate : ℤ) (k : ℕ) :
    chunkSince (start + 90 * day * k, endDate) =
      floorTo day start / 1000 + 90 * day / 1000 * k := by
  simp only [chunkSince, floorTo, day, hour, minute]
  omega

/-- A row before some chunk is fetched exactly if it is within the limit of its own 90
days. -/
theorem exists_withinLimit_iff {rows : List Ohlcv} {start endDate : ℤ} {chunk : ℤ × ℤ}
    (hchunk : chunk ∈ chunksFrom start endDate) {row : Ohlcv}
    (hrow : row.timestampMs < chunkSince chunk) :
    (∃ own ∈ chunksFrom start endDate, WithinLimit settings rows own row) ↔
      WithinOwnLimit settings rows start row := by
  obtain ⟨k, hk, rfl⟩ := mem_chunksFrom_iff.mp hchunk
  rw [chunkSince_eq] at hrow
  -- a chunk that starts at the row or before it is not the last one
  have hlimit (m : ℕ) (hm : floorTo day start / 1000 + 90 * day / 1000 * m ≤ row.timestampMs) :
      start + 90 * day * m < endDate ∧
        chunkLimit settings (start + 90 * day * m,
          min (start + 90 * day * m + 89 * day) (endDate - 1)) =
            candleLimit (getCcxtTimeframe settings.candleGranularityMinutes) (89 * day) := by
    simp only [day, hour, minute] at hm hk hrow ⊢
    have hbefore : m + 1 ≤ k := by omega
    refine ⟨by omega, ?_⟩
    rw [chunkLimit, min_eq_left (by omega)]
    congr 1
    simp only [floorTo, day, hour, minute]
    omega
  constructor
  · rintro ⟨own, hown, hwithin⟩
    obtain ⟨m, hm, rfl⟩ := mem_chunksFrom_iff.mp hown
    obtain ⟨hsince, hcount⟩ := hwithin
    rw [chunkSince_eq] at hsince hcount
    rw [(hlimit m hsince).2] at hcount
    have hown : floorTo day start / 1000 + 90 * day / 1000 * m ≤ ownSince start row := by
      simp only [ownSince, floorTo, day, hour, minute] at hsince ⊢
      omega
    refine ⟨?_, ?_⟩
    · simp only [day, hour, minute] at hsince ⊢
      omega
    · have := rowsBetween_le rows hown (le_refl row.timestampMs)
      omega
  · rintro ⟨hfirst, hcount⟩
    obtain ⟨m, hm⟩ : ∃ m : ℕ, (m : ℤ) =
        (row.timestampMs - floorTo day start / 1000) / (90 * day / 1000) := by
      refine ⟨_, Int.toNat_of_nonneg ?_⟩
      exact Int.ediv_nonneg (by omega) (by decide)
    have hown : ownSince start row = floorTo day start / 1000 + 90 * day / 1000 * m := by
      rw [hm, ownSince]
      simp only [floorTo, day, hour, minute]
      omega
    have hsince : floorTo day start / 1000 + 90 * day / 1000 * m ≤ row.timestampMs := by
      simp only [floorTo, day, hour, minute] at hm ⊢
      omega
    rw [hown, ← (hlimit m hsince).2] at hcount
    refine ⟨_, mem_chunksFrom_iff.mpr ⟨m, (hlimit m hsince).1, rfl⟩, ?_, ?_⟩
    · rwa [chunkSince_eq]
    · rwa [chunkSince_eq]

/-! ### Soundness of the watermark -/

theorem eq_of_timestampMs_eq {ticker : String} {row other : Ohlcv}
    (hrow : row ∈ tickerHistory settings exchange ticker)
    (hother : other ∈ tickerHistory settings exchange ticker)
    (h : row.timestampMs = other.timestampMs) : row = other := by
  by_contra hne
  have hdistinct : (tickerHistory settings exchange ticker).Pairwise
      fun a b => a.timestampMs ≠ b.timestampMs :=
    (exchange.ascending _ _).imp fun hlt => hlt.ne
  have : Std.Symm fun a b : Ohlcv => a.timestampMs ≠ b.timestampMs := ⟨fun _ _ hab => hab.symm⟩
  exact hdistinct.forall hrow hother hne h

theorem stores_backfillTicker_iff {flagStart endDate : ℤ} {st : State} {ticker : String}
    {row : Ohlcv} (hrow : row ∈ tickerHistory settings exchange ticker) :
    (backfillTicker settings exchange.answers flagStart endDate st ticker).Stores ticker row ↔
      st.Stores ticker row ∨
        exchange.availableSymbols (convertTiingoSymbolToCcxt (convertTiingoSymbolToCcxt ticker)) ∧
          Valid row ∧
            ∃ own ∈ chunksFrom (backfillStart settings exchange.answers st ticker flagStart)
              endDate, WithinLimit settings (tickerHistory settings exchange ticker) own row := by
  rw [valid_iff (convertTiingoSymbolToCcxt ticker)]
  simp only [State.Stores, mem_candles_backfillTicker, mem_chunkCandles_iff]
  constructor
  · rintro ⟨candle, hmem | ⟨own, hown, havailable, other, hother, hwithin, hcandle⟩, hformat⟩
    · exact .inl ⟨candle, hmem, hformat⟩
    · have htime : row.timestampMs = other.timestampMs := by
        rw [← (formatCandle_some hformat).1, (formatCandle_some hcandle).1]
      obtain rfl := eq_of_timestampMs_eq hrow hother htime
      exact .inr ⟨havailable, ⟨candle, hformat⟩, own, hown, hwithin⟩
  · rintro (⟨candle, hmem, hformat⟩ | ⟨havailable, ⟨candle, hformat⟩, own, hown, hwithin⟩)
    · exact ⟨candle, .inl hmem, hformat⟩
    · exact ⟨candle, .inr ⟨own, hown, havailable, row, hrow, hwithin, hformat⟩, hformat⟩

theorem State.Stores.backfillTicker {flagStart endDate : ℤ} {st : State} {other : String}
    {row : Ohlcv} (h : st.Stores other row) (ticker : String) :
    (backfillTicker settings exchange.answers flagStart endDate st ticker).Stores other row := by
  obtain ⟨candle, hmem, hformat⟩ := h
  exact ⟨candle, mem_candles_backfillTicker.mpr (.inl hmem), hformat⟩

theorem turnComplete_of_watermarkSound {flagStart endDate : ℤ} {st : State} {ticker : String}
    (hsound : WatermarkSound settings exchange flagStart
      (backfillTicker settings exchange.answers flagStart endDate st ticker)) :
    TurnComplete settings exchange flagStart endDate st ticker := by
  intro havailable earlier chunk later hsplit hlater latest hlatest hvalid hwithin row hrow hstart
    hle hnew
  have hchunk : chunk ∈
      chunksFrom (backfillStart settings exchange.answers st ticker flagStart) endDate := by
    simp [hsplit]
  obtain ⟨candle, hcandle⟩ := (valid_iff (convertTiingoSymbolToCcxt ticker) latest).mp hvalid
  have hmem : candle ∈ chunkCandles settings (exchange.answers 0) ticker chunk :=
    mem_chunkCandles_iff.mpr ⟨havailable, latest, hlatest, hwithin, hcandle⟩
  obtain ⟨last, hlast⟩ := Option.isSome_iff_exists.mp
    (List.getLast?_isSome.mpr (List.ne_nil_of_mem hmem))
  have hempty : ∀ next ∈ later, chunkCandles settings (exchange.answers 0) ticker next = [] :=
    fun next hnext => (chunkCandles_eq_nil_iff havailable).mpr (hlater next hnext)
  have hwatermark := lookup_backfillTicker_eq_some_iff.mpr
    (.inl ⟨earlier, chunk, later, hsplit, hempty, last, hlast, rfl⟩)
  -- the watermark is that chunk's last candle, no earlier than `latest`
  have hreaches : row.timestampMs ≤ last.timestampMs := calc
    row.timestampMs ≤ latest.timestampMs := hle
    _ = candle.timestampMs := (formatCandle_some hcandle).1.symm
    _ ≤ last.timestampMs := le_getLast_chunkCandles hlast hmem
  have hstored := hsound ticker last.timestampMs hwatermark row hrow hstart hreaches
  rcases (stores_backfillTicker_iff hrow).mp hstored with hold | ⟨-, hvalid, hfetched⟩
  · exact absurd hold hnew
  · refine ⟨hvalid, ?_⟩
    rcases le_or_gt (chunkSince chunk) row.timestampMs with hsince | hbefore
    · exact .inl hsince
    · exact .inr ((exists_withinLimit_iff hchunk hbefore).mp hfetched)

/-- What the ticker itself must have in the store after its turn. -/
theorem TurnComplete.stores {flagStart endDate : ℤ} {st : State} {ticker : String}
    (hcomplete : TurnComplete settings exchange flagStart endDate st ticker)
    {earlier later : List (ℤ × ℤ)} {chunk : ℤ × ℤ}
    (hsplit : chunksFrom (backfillStart settings exchange.answers st ticker flagStart) endDate =
      earlier ++ chunk :: later)
    (hempty : ∀ next ∈ later, chunkCandles settings (exchange.answers 0) ticker next = [])
    {last : Candle}
    (hlast : (chunkCandles settings (exchange.answers 0) ticker chunk).getLast? = some last)
    {row : Ohlcv} (hrow : row ∈ tickerHistory settings exchange ticker)
    (hstart : flagStart ≤ row.timestampMs * 1000) (hle : row.timestampMs ≤ last.timestampMs) :
    (backfillTicker settings exchange.answers flagStart endDate st ticker).Stores ticker row := by
  obtain ⟨havailable, latest, hlatest, hwithin, hformat⟩ :=
    mem_chunkCandles_iff.mp (List.mem_of_getLast? hlast)
  rw [(formatCandle_some hformat).1] at hle
  apply (stores_backfillTicker_iff hrow).mpr
  by_cases hnew : st.Stores ticker row
  · exact .inl hnew
  · have hchunk : chunk ∈
        chunksFrom (backfillStart settings exchange.answers st ticker flagStart) endDate := by
      simp [hsplit]
    obtain ⟨hvalid, hown⟩ := hcomplete havailable earlier chunk later hsplit
      (fun next hnext => (chunkCandles_eq_nil_iff havailable).mp (hempty next hnext)) latest
      hlatest ((valid_iff _ latest).mpr ⟨last, hformat⟩) hwithin row hrow hstart hle hnew
    refine .inr ⟨havailable, hvalid, ?_⟩
    -- a chunk's own rows are stored up to its last candle, earlier ones by their own chunk
    rcases le_or_gt (chunkSince chunk) row.timestampMs with hsince | hbefore
    · exact ⟨chunk, hchunk, hwithin.of_le hsince hle⟩
    · exact (exists_withinLimit_iff hchunk hbefore).mpr
        (hown.resolve_left (not_le.mpr hbefore))

theorem watermarkSound_backfillTicker_iff {flagStart endDate : ℤ} {st : State} {ticker : String}
    (hst : WatermarkSound settings exchange flagStart st) :
    WatermarkSound settings exchange flagStart
        (backfillTicker settings exchange.answers flagStart endDate st ticker) ↔
      TurnComplete settings exchange flagStart endDate st ticker := by
  refine ⟨turnComplete_of_watermarkSound, ?_⟩
  intro hcomplete other watermark hlookup row hrow hstart hle
  by_cases hother : ticker = other
  · subst hother
    -- the turn has set the watermark, or it is the old one
    rcases lookup_backfillTicker_eq_some_iff.mp hlookup with
      ⟨earlier, chunk, later, hsplit, hempty, last, hlast, rfl⟩ | ⟨-, hlookup⟩
    · exact hcomplete.stores hsplit hempty hlast hrow hstart hle
    · exact (hst ticker watermark hlookup row hrow hstart hle).backfillTicker ticker
  · rw [lookup_backfillTicker_of_ne hother] at hlookup
    exact (hst other watermark hlookup row hrow hstart hle).backfillTicker ticker

/-- No backfill starts before the flag's date, so that the check of the dates changes
nothing. -/
theorem runBackfill_eq (settings : Settings) (answers : ℕ → Answers) (tickers : List String)
    (flagStart now : ℤ) (st : State) :
    runBackfill settings answers tickers flagStart now st =
      tickers.foldl (backfillTicker settings answers flagStart (floorTo day now)) st := by
  rw [runBackfill]
  split_ifs with hdates
  · have hturn (ticker : String) :
        backfillTicker settings answers flagStart (floorTo day now) st ticker = st := by
      have hstart : flagStart ≤ backfillStart settings answers st ticker flagStart := by
        rw [backfillStart]
        split
        · split_ifs
          · exact le_max_left _ _
          · exact le_rfl
        · exact le_rfl
      exact if_pos (hdates.trans hstart)
    induction tickers with
    | nil => rfl
    | cons ticker rest ih => rw [List.foldl_cons, hturn, ← ih]
  · rfl

end

/-- The watermarks stay sound, ticker after ticker, exactly if each turn finds what it
must. -/
theorem watermarkSound_iff (settings : Settings) (exchange : Exchange) (flagStart now : ℤ)
    (st : State) (hst : WatermarkSound settings exchange flagStart st) (tickers : List String) :
    (∀ reached, reached <+: tickers → WatermarkSound settings exchange flagStart
        (runBackfill settings exchange.answers reached flagStart now st)) ↔
      ∀ earlier ticker, earlier ++ [ticker] <+: tickers →
        TurnComplete settings exchange flagStart (floorTo day now)
          (runBackfill settings exchange.answers earlier flagStart now st) ticker := by
  simp only [runBackfill_eq]
  refine @forall_reached_iff_forall_step _ _
    (backfillTicker settings exchange.answers flagStart (floorTo day now)) (fun _ => True)
    (WatermarkSound settings exchange flagStart) _ (fun _ _ _ => trivial) ?_ st trivial hst tickers
  intro st ticker _ hst
  exact watermarkSound_backfillTicker_iff hst

/-- The first day of the example below. -/
def firstDay : ℤ := 19723 * day

def flatRow (timestampMs : ℤ) : Ohlcv :=
  ⟨timestampMs, some 1, some 1, some 1, some 1, some 1⟩

/-- An exchange that trades in each of the first `busy` minutes, and once more on the day
`quiet`. -/
def busyThenQuiet (busy quiet : ℕ) (h : busy < quiet * 1440) : Exchange where
  availableSymbols := fun symbol => symbol = "BTC/USD"
  history := fun _ _ =>
    (List.range busy).map (fun i : ℕ => flatRow (firstDay / 1000 + minute / 1000 * i)) ++
      [flatRow (firstDay / 1000 + day / 1000 * quiet)]
  ascending := by
    intro _ _
    refine List.pairwise_append.mpr ⟨?_, List.pairwise_singleton _ _, ?_⟩
    · refine List.pairwise_map.mpr (List.pairwise_lt_range.imp ?_)
      intro i j hij
      simp only [flatRow, minute]
      omega
    · intro row hrow last hlast
      obtain ⟨i, hi, rfl⟩ := List.mem_map.mp hrow
      obtain rfl := List.mem_singleton.mp hlast
      have hbusy := List.mem_range.mp hi
      simp only [flatRow, day, hour, minute]
      omega

theorem newIngestor_sound (settings : Settings) (exchange : Exchange) (flagStart : ℤ) :
    WatermarkSound settings exchange flagStart newIngestor := by
  intro ticker watermark hlookup
  cases hlookup

/-- Two minutes and the day after, all in the one request of one chunk. -/
theorem quietMinutes_watermarkSound :
    WatermarkSound {} (busyThenQuiet 2 1 (by decide)) firstDay
      (runBackfill {} (busyThenQuiet 2 1 (by decide)).answers ["btcusd"] firstDay
        (firstDay + 2 * day) newIngestor) := by
  refine (watermarkSound_iff {} (busyThenQuiet 2 1 (by decide)) firstDay (firstDay + 2 * day)
    newIngestor (newIngestor_sound _ _ _) ["btcusd"]).mpr ?_ _ List.prefix_rfl
  intro turns ticker hpre _ earlier chunk later hsplit _ latest _ _ _ row hrow hflag _ _
  obtain ⟨rfl, rfl⟩ : turns = [] ∧ ticker = "btcusd" := by
    cases turns with
    | nil => simpa using hpre
    | cons head turns => simpa using hpre.length_le
  have hchunks : chunksFrom firstDay (firstDay + 2 * day) =
      [(firstDay, firstDay + 2 * day - 1)] := by
    rw [chunksFrom, if_pos (by decide), chunkEnd_eq (by decide), chunksFrom, if_neg (by decide)]
    decide
  have hchunk : chunk = (firstDay, firstDay + 2 * day - 1) := by
    have hmem : chunk ∈ chunksFrom firstDay (firstDay + 2 * day) := by
      have hchunks' : chunksFrom firstDay (floorTo day (firstDay + 2 * day)) =
        earlier ++ chunk :: later := hsplit
      have hend : floorTo day (firstDay + 2 * day) = firstDay + 2 * day := by decide
      rw [← hend, hchunks']
      simp
    rw [hchunks] at hmem
    exact List.mem_singleton.mp hmem
  -- every row is valid, and the one chunk asks for the rows from the first day on
  refine ⟨?_, .inl ?_⟩
  · rcases List.mem_append.mp hrow with hrow | hrow
    · obtain ⟨i, -, rfl⟩ := List.mem_map.mp hrow
      exact (valid_iff "" _).mpr ⟨_, rfl⟩
    · obtain rfl := List.mem_singleton.mp hrow
      decide +kernel
  · rw [hchunk]
    simp only [chunkSince, floorTo, firstDay, day, hour, minute] at hflag ⊢
    omega

/-- The minutes after the first 1000 are never fetched: the next chunk starts on the 90th
day, and its candle is recorded as the last processed one. -/
theorem busyMinutes_not_watermarkSound :
    ¬ WatermarkSound {} (busyThenQuiet 1001 95 (by decide)) firstDay
      (runBackfill {} (busyThenQuiet 1001 95 (by decide)).answers ["btcusd"] firstDay
        (firstDay + 100 * day) newIngestor) := by
  have hsound := newIngestor_sound {} (busyThenQuiet 1001 95 (by decide)) firstDay
  have hstart : backfillStart {} (busyThenQuiet 1001 95 (by decide)).answers newIngestor "btcusd"
      firstDay = firstDay := rfl
  have hend : floorTo day (firstDay + 100 * day) = firstDay + 100 * day := by decide
  have hchunks : chunksFrom firstDay (firstDay + 100 * day) =
      [(firstDay, firstDay + 89 * day)] ++
        (firstDay + 90 * day, firstDay + 100 * day - 1) :: [] := by
    rw [chunksFrom, if_pos (by decide), chunkEnd_eq (by decide), chunksFrom, if_pos (by decide),
      chunkEnd_eq (by decide), chunksFrom, if_neg (by decide)]
    decide
  rw [runBackfill_eq, List.foldl_cons, List.foldl_nil,
    watermarkSound_backfillTicker_iff hsound]
  intro hcomplete
  have hrow := hcomplete (by decide +kernel) [(firstDay, firstDay + 89 * day)]
    (firstDay + 90 * day, firstDay + 100 * day - 1) [] (by rw [hstart, hend, hchunks])
    (by simp) (flatRow (firstDay / 1000 + day / 1000 * 95))
    (List.mem_append_right _ (by simp)) (by decide +kernel) (by decide +kernel)
    (flatRow (firstDay / 1000 + minute / 1000 * 1000))
    (List.mem_append_left _ (List.mem_map.mpr ⟨1000, by simp, rfl⟩)) (by decide) (by decide)
    (by rintro ⟨candle, hmem, -⟩; cases hmem)
  -- minute 1000 lies before the second chunk, and 1000 rows lie before it in the first
  rw [hstart] at hrow
  rcases hrow.2 with hsince | ⟨-, hcount⟩
  · revert hsince
    decide
  · revert hcount
    decide +kernel

end TradeStream.CandleIngestor
