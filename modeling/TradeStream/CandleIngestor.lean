import TradeStream.RunSteps

/-! The candle ingestor's wet runs: backfill in chunks of days, catch-up, and the timestamps
that both record. Times are microseconds of UTC, timestamps of candles milliseconds. -/
namespace TradeStream.CandleIngestor

def minute : ℤ := 60 * 1000000

def second : ℤ := 1000000

def hour : ℤ := 60 * minute

def day : ℤ := 24 * hour

/-- The last full unit: a day's midnight for `%Y-%m-%d`. -/
def floorTo (unit t : ℤ) : ℤ := t / unit * unit

inductive Timeframe where
  | minutes (n : ℤ)
  | hours (n : ℤ)
  | days (n : ℤ)
  deriving DecidableEq, Repr

def getCcxtTimeframe (granularityMinutes : ℤ) : Timeframe :=
  if 1440 ≤ granularityMinutes then .days (granularityMinutes / 1440)
  else if 60 ≤ granularityMinutes then .hours (granularityMinutes / 60)
  else if 0 < granularityMinutes then .minutes granularityMinutes
  else .minutes 1

def upper (s : String) : String := String.ofList (s.toList.map Char.toUpper)

/-- `s.lower().endswith(suffix)`. -/
def endsWithLower (suffix s : String) : Bool := suffix.toList.isSuffixOf (s.toList.map Char.toLower)

/-- `s.replace('/', '_')`. -/
def replaceSlashes (s : String) : String :=
  String.ofList (s.toList.map fun c => if c = '/' then '_' else c)

/-- `ticker[:-3].upper()`. -/
def symbolBase (ticker : String) : String :=
  upper (String.ofList (ticker.toList.take (ticker.length - 3)))

/-- `convert_tiingo_symbol_to_ccxt`, and `_normalize_symbol` of the client. -/
def convertTiingoSymbolToCcxt (ticker : String) : String :=
  if ticker.toList.contains '/' then upper ticker
  else if endsWithLower "usd" ticker then symbolBase ticker ++ "/USD"
  else if endsWithLower "btc" ticker then symbolBase ticker ++ "/BTC"
  else upper ticker

/-- The key of a ticker's global status. -/
def globalStatusKey (ticker : String) : Option String :=
  if endsWithLower "usd" ticker then
    some (replaceSlashes (symbolBase ticker ++ "/USD") ++ "_latest_ingested_ts")
  else none

structure Candle where
  timestampMs : ℤ
  openPrice : ℚ
  high : ℚ
  low : ℚ
  close : ℚ
  volume : ℚ
  currencyPair : String
  deriving DecidableEq

/-- A point of the tracker's series. -/
structure Point where
  serviceIdentifier : String
  key : String
  value : ℤ

/-- The answers from outside in one turn: the candles of the exchange client (none when the
fetch fails), whether the batch is written, which keys of the tracker can be read, which of its
two updates go through, and the clock. -/
structure Answers where
  fetched : String → Timeframe → ℤ → ℤ → List Candle
  writes : Bool
  reads : String → Bool
  updates : Bool
  publishes : Bool
  now : ℤ

structure State where
  candles : List Candle
  /-- The points of the tracker, the latest first. -/
  tracker : List Point
  lastProcessed : String → Option ℤ
  currentRunMax : ℤ
  turns : ℕ

def newIngestor : State := ⟨[], [], fun _ => none, 0, 0⟩

/-- The flags. A granularity that is not positive is invalid. -/
structure Settings where
  candleGranularityMinutes : ℤ := 1
  catchUpInitialDays : ℤ := 7
  granularity_pos : 0 < candleGranularityMinutes := by decide

def serviceIdentifier : String := "candle_ingestor"

def globalStatusService : String := "global_candle_status"

def State.lookup (st : State) (service key : String) : Option ℤ :=
  (st.tracker.find? fun point => point.serviceIdentifier = service ∧ point.key = key).map
    Point.value

def State.update (st : State) (goesThrough : Bool) (service key : String) (value : ℤ) : State :=
  if goesThrough then { st with tracker := ⟨service, key, value⟩ :: st.tracker } else st

def updateGlobalStatusTracker (st : State) (goesThrough : Bool) (ticker : String)
    (latestTimestampMs : ℤ) : State :=
  match globalStatusKey ticker with
  | some key => st.update goesThrough globalStatusService key latestTimestampMs
  | none => st

/-- The limit of one request, from the timeframe and the range of dates. -/
def candleLimit (timeframe : Timeframe) (span : ℤ) : ℤ :=
  match timeframe with
  | .minutes n => min 1000 (span / (n * minute) + 10)
  | .hours n => min 1000 (span / (n * hour) + 10)
  | .days _ => min 1000 (span / day + 10)

/-- `get_historical_candles_ccxt`. The client's candles keep the symbol they were asked
with. -/
def getHistoricalCandlesCcxt (answers : Answers) (ticker : String) (start finish : ℤ)
    (timeframe : Timeframe) : List Candle :=
  let symbol := convertTiingoSymbolToCcxt ticker
  (answers.fetched symbol timeframe (start / 1000) (candleLimit timeframe (finish - start))).map
    fun candle => { candle with currencyPair := symbol }

def sortCandles (candles : List Candle) : List Candle :=
  candles.insertionSort fun a b => a.timestampMs ≤ b.timestampMs

/-- The end of a chunk. Chunks start before the end date, so that the last case is not
met. -/
def chunkEnd (start endDate : ℤ) : ℤ :=
  let candidate := min (start + 89 * day) (endDate - 1)
  if candidate < start then endDate - 1 else candidate

theorem chunkEnd_eq {start endDate : ℤ} (h : start < endDate) :
    chunkEnd start endDate = min (start + 89 * day) (endDate - 1) := by
  have hnotless : ¬ min (start + 89 * day) (endDate - 1) < start := by
    simp only [day, hour, minute]
    omega
  exact if_neg hnotless

/-- The chunks of `run_backfill`: each starts a day after the last one ends. -/
def chunksFrom (start endDate : ℤ) : List (ℤ × ℤ) :=
  if start < endDate then
    (start, chunkEnd start endDate) :: chunksFrom (chunkEnd start endDate + day) endDate
  else []
termination_by (endDate - start).toNat
decreasing_by
  rename_i hstart
  rw [chunkEnd_eq hstart]
  simp only [day, hour, minute]
  omega

section
variable (settings : Settings) (answers : ℕ → Answers)

def backfillKey (ticker : String) : String := ticker ++ "-backfill"

def catchUpKey (ticker : String) : String := ticker ++ "-catch_up"

def State.readTracker (st : State) (key : String) : Option ℤ :=
  if (answers st.turns).reads key then st.lookup serviceIdentifier key else none

/-- The candles of a chunk, whose dates have no time of the day. -/
def chunkCandles (answer : Answers) (ticker : String) (chunk : ℤ × ℤ) : List Candle :=
  sortCandles (getHistoricalCandlesCcxt answer ticker (floorTo day chunk.1)
    (floorTo day chunk.2) (getCcxtTimeframe settings.candleGranularityMinutes))

/-- A chunk of a ticker: what was fetched is written, and its last timestamp recorded. -/
def backfillChunk (ticker : String) (st : State) (chunk : ℤ × ℤ) : State :=
  let answer := answers st.turns
  let candles := chunkCandles settings answer ticker chunk
  let st := { st with turns := st.turns + 1 }
  match candles.getLast? with
  | none => st
  | some latest =>
    if answer.writes then
      let st := { st with
        candles := st.candles ++ candles
        currentRunMax := max st.currentRunMax latest.timestampMs
        lastProcessed := Function.update st.lastProcessed ticker (some latest.timestampMs) }
      let st := st.update answer.updates serviceIdentifier (backfillKey ticker) latest.timestampMs
      updateGlobalStatusTracker st answer.publishes ticker latest.timestampMs
    else st

/-- Where the backfill of a ticker starts: at the flag's date, or after what is recorded. -/
def backfillStart (st : State) (ticker : String) (flagStart : ℤ) : ℤ :=
  match st.readTracker answers (backfillKey ticker) with
  | some last =>
    if 0 < last then
      max flagStart
        (floorTo minute (last * 1000) + settings.candleGranularityMinutes * minute)
    else flagStart
  | none => flagStart

def finishBackfill (ticker : String) (st : State) : State :=
  if 0 < st.currentRunMax then
    { st with
      lastProcessed := Function.update st.lastProcessed ticker
        (some (max ((st.lastProcessed ticker).getD 0) st.currentRunMax)) }
  else st

def backfillTicker (flagStart endDate : ℤ) (st : State) (ticker : String) : State :=
  let start := backfillStart settings answers st ticker flagStart
  if endDate ≤ start then st
  else
    finishBackfill ticker ((chunksFrom start endDate).foldl (backfillChunk settings answers ticker)
      { st with currentRunMax := 0, turns := st.turns + 1 })

def runBackfill (tickers : List String) (flagStart now : ℤ) (st : State) : State :=
  let endDate := floorTo day now
  if endDate ≤ flagStart then st
  else tickers.foldl (backfillTicker settings answers flagStart endDate) st

/-- Python's `not x` of a timestamp or `None`. -/
def nonzero (timestamp : Option ℤ) : Option ℤ := timestamp.filter (· ≠ 0)

/-- What catch-up takes as the last timestamp: of this process, of the last catch-up, or of
the last backfill. -/
def lastKnown (st : State) (ticker : String) : Option ℤ :=
  nonzero (st.lastProcessed ticker) <|>
    (nonzero (st.readTracker answers (catchUpKey ticker)) <|>
      nonzero (st.readTracker answers (backfillKey ticker)))

/-- The start of the first catch-up, at a full unit of the granularity. -/
def alignStart (t : ℤ) : ℤ :=
  if 1440 ≤ settings.candleGranularityMinutes then floorTo day t
  else if 60 ≤ settings.candleGranularityMinutes then floorTo hour t
  else floorTo hour t +
    floorTo (settings.candleGranularityMinutes * minute) (floorTo minute t - floorTo hour t)

def catchUpStart (st : State) (ticker : String) : ℤ :=
  match lastKnown answers st ticker with
  | some last => last * 1000 + settings.candleGranularityMinutes * minute
  | none => alignStart settings ((answers st.turns).now - settings.catchUpInitialDays * day)

/-- The candles of a catch-up from its start on. -/
def catchUpCandles (answer : Answers) (ticker : String) (start : ℤ) : List Candle :=
  let unit := if 1440 ≤ settings.candleGranularityMinutes then day else second
  let fetched := sortCandles (getHistoricalCandlesCcxt answer ticker (floorTo unit start)
    (floorTo unit answer.now) (getCcxtTimeframe settings.candleGranularityMinutes))
  fetched.filter fun candle => start / 1000 ≤ candle.timestampMs

/-- A ticker's catch-up: its candles are written, and the last timestamp recorded. -/
def catchUpTicker (st : State) (ticker : String) : State :=
  let answer := answers st.turns
  let start := catchUpStart settings answers st ticker
  let st := { st with turns := st.turns + 1 }
  if answer.now ≤ start then st
  else
    let valid := catchUpCandles settings answer ticker start
    match valid.getLast? with
    | none => st
    | some latest =>
      if answer.writes then
        let st := { st with
          candles := st.candles ++ valid
          lastProcessed := Function.update st.lastProcessed ticker (some latest.timestampMs) }
        let st := st.update answer.updates serviceIdentifier (catchUpKey ticker)
          latest.timestampMs
        updateGlobalStatusTracker st answer.publishes ticker latest.timestampMs
      else st

def runCatchUp (tickers : List String) (st : State) : State :=
  tickers.foldl (catchUpTicker settings answers) st

/-- What the ingestor does: a new process knows no timestamps, and runs a backfill (unless it
is told to skip it) and a catch-up. -/
inductive Flow where
  | start
  | backfill (tickers : List String) (flagStart now : ℤ)
  | catchUp (tickers : List String)

def runFlow (st : State) : Flow → State
  | .start => { st with lastProcessed := fun _ => none }
  | .backfill tickers flagStart now => runBackfill settings answers tickers flagStart now st
  | .catchUp tickers => runCatchUp settings answers tickers st

end

end TradeStream.CandleIngestor
