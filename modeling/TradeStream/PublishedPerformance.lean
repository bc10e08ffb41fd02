import TradeStream.Interleaving
import TradeStream.RoundDecimal
import TradeStream.StrategyBuilderApi

/-! Backtests of user strategies and their publication: the performance that a listing
shows, and the config that it was measured on. -/
namespace TradeStream.PublishedPerformance
open TradeStream.JsonText TradeStream.KeyedTable TradeStream.RoundDecimal
open TradeStream.UserStrategyConfig TradeStream.StrategyBuilderApi TradeStream.Interleaving
open TradeStream.RunSteps

/-- A row of the candles, of which a backtest reads the close. -/
structure Candle where
  close : ℚ

structure Trade where
  entryPrice : ℚ
  exitPrice : ℚ
  pnlPct : ℚ
  deriving DecidableEq

/-- What the standard library reads a text and takes a sample's deviation by. -/
structure PythonMath where
  intOfText : String → Option ℤ
  stdev : List ℚ → ℚ

section
variable (python : PythonMath)

/-- `int(value)`, which raises for what is neither a number nor the text of one. -/
def intOf : Json ℚ → Option ℤ
  | .num value => some (value.num.tdiv value.den)
  | .bool value => some (if value then 1 else 0)
  | .str text => python.intOfText text
  | _ => none

/-- The parameter if it is there, as an integer. -/
def intParam (params : Params) (name : String) (default : ℤ) : Option ℤ :=
  match params.lookup name with
  | none => some default
  | some value => intOf python value

/-- The periods of the two averages. Of the config only the first indicator counts. -/
def periods (columns : Columns) (n : ℕ) : Option (ℕ × ℕ) := do
  let (short, long) ← match columns.indicators with
    | [] => some ((10 : ℤ), (30 : ℤ))
    | first :: _ => do
      let short ← match first.params.lookup "period" with
        | none => some 10
        | some value => (intOf python value).map fun period => min period ((n / 3 : ℕ) : ℤ)
      let short ← intParam python first.params "shortPeriod" short
      let long ← intParam python first.params "longPeriod" 30
      some (short, long)
  let short := max 2 (min short ((n / 3 : ℕ) : ℤ))
  let long := max (short + 1) (min long ((n / 2 : ℕ) : ℤ))
  some (short.toNat, long.toNat)

end

/-- `_sma(values, period)[i]`. -/
def sma (values : List ℚ) (period i : ℕ) : ℚ :=
  if i + 1 < period then 0 else ((values.drop (i + 1 - period)).take period).sum / period

/-- The short average crosses the long one upwards at `i`. -/
def entersAt (closes : List ℚ) (short long i : ℕ) : Bool :=
  long ≤ i ∧ sma closes short i > sma closes long i ∧
    sma closes short (i - 1) ≤ sma closes long (i - 1)

def exitsAt (closes : List ℚ) (short long i : ℕ) : Bool :=
  long ≤ i ∧ sma closes short i < sma closes long i ∧
    sma closes short (i - 1) ≥ sma closes long (i - 1)

/-- A trade, which raises a `ZeroDivisionError` if it was entered at 0. -/
def trade (entryPrice exitPrice : ℚ) : Option Trade :=
  if entryPrice = 0 then none
  else some ⟨entryPrice, exitPrice, (exitPrice - entryPrice) / entryPrice * 100⟩

/-- One candle of the simulation. The position is the price that it was entered at. -/
def simulate (closes : List ℚ) (short long : ℕ) (s : Option ℚ × List Trade) (candle : ℚ × ℕ) :
    Option (Option ℚ × List Trade) :=
  match s.1 with
  | none => some (if entersAt closes short long candle.2 then some candle.1 else none, s.2)
  | some entryPrice =>
    if exitsAt closes short long candle.2 then
      (trade entryPrice candle.1).map fun t => (none, s.2 ++ [t])
    else some s

def simulateTrades (closes : List ℚ) (short long : ℕ) : Option (List Trade) := do
  let (position, trades) ← closes.zipIdx.foldlM (simulate closes short long) (none, [])
  match position, closes.getLast? with
  -- an open position is closed at the end
  | some entryPrice, some last => (trade entryPrice last).map fun t => trades ++ [t]
  | _, _ => some trades

/-- The largest fall of the equity from its peak. -/
def maxDrawdown (pnls : List ℚ) : ℚ :=
  ((pnls.scanl (· + ·) 0).foldl (fun s equity =>
    let peak := max s.1 equity
    (peak, max s.2 (peak - equity))) (0, 0)).2

def tradeJson (t : Trade) : Json ℚ :=
  .obj [("entry_price", .num t.entryPrice), ("exit_price", .num t.exitPrice),
    ("pnl_pct", .num t.pnlPct)]

def flatResults (n : ℕ) : Results :=
  [("total_return_pct", .num 0), ("sharpe_ratio", .num 0), ("win_rate", .num 0),
    ("max_drawdown_pct", .num 0), ("total_trades", .num 0), ("candles_analyzed", .num n),
    -- the candles are queried without their pair
    ("symbol", .str "unknown")]

section
variable (python : PythonMath)

def tradedResults (trades : List Trade) (n : ℕ) : Results :=
  let pnls := trades.map Trade.pnlPct
  let wins := pnls.countP fun p => p > 0
  let mean := pnls.sum / pnls.length
  let deviation := if pnls.length > 1 then python.stdev pnls else 1
  let sharpe := if deviation > 0 then mean / deviation else 0
  [("total_return_pct", .num (roundTo 2 pnls.sum)), ("sharpe_ratio", .num (roundTo 2 sharpe)),
    ("win_rate", .num (roundTo 4 (wins / pnls.length))),
    ("max_drawdown_pct", .num (roundTo 2 (-maxDrawdown pnls))),
    ("total_trades", .num pnls.length), ("trades", .arr ((trades.take 50).map tradeJson)),
    ("candles_analyzed", .num n)]

/-- `none` where it raises. -/
def runSimpleBacktest (candles : List Candle) (columns : Columns) : Option Results :=
  if candles = [] then some [("error", .str "No candle data")]
  else do
    let closes := candles.map Candle.close
    let (short, long) ← periods python columns closes.length
    let trades ← simulateTrades closes short long
    some (if trades = [] then flatResults closes.length
      else tradedResults python trades closes.length)

end

def performanceKeys : List String :=
  ["total_return_pct", "sharpe_ratio", "win_rate", "max_drawdown_pct", "total_trades"]

def performanceStats (backtestResults : Option Results) : Results :=
  match backtestResults with
  | none => []
  | some results => performanceKeys.filterMap fun k => (results.lookup k).map fun v => (k, v)

/-- A row of `marketplace_listings`, keyed by its strategy. -/
structure Listing where
  author : String
  details : Details
  performanceStats : Results
  price : ℚ

/-- A run of the backtest: what it was given and what it returned. -/
structure Run where
  strategyId : String
  columns : Columns
  candles : List Candle
  results : Results

/-- A listing that has been put in the marketplace, and the config its strategy had then. -/
structure Publication where
  strategyId : String
  columns : Columns
  listing : Listing

/-- The tables; and what an observer notes: the runs made, the run that the stored results
come from, and the publications. -/
structure State where
  strategies : StrategyBuilderApi.Db
  listings : Table String Listing
  runs : List Run
  sources : Table String Run
  published : List Publication

inductive Request where
  | create (id userId : String) (details : Details) (config : StrategyConfig)
  | update (id userId : String) (body : UpdateBody)
  | backtest (id userId symbol : String)
  | publish (id userId : String) (price : ℚ) (author : Option String)

inductive Response where
  | strategy (response : StrategyBuilderApi.Response)
  | backtestResult (results : Results)
  | listing (listing : Listing)
  | notFound
  | validationError (message : String)
  | conflict (message : String)
  | serverError
  | raised

/-- The statement that a request executes next, with what it has read. -/
inductive Phase where
  | begin
  | selectCandles (columns : Columns)
  | storeResults (run : Run)
  | insertListing (row : Row) (source : Option Run)
  | markPublished (listing : Listing)
  | ended (response : Response)

/-- What a statement finds: whether it succeeds, and the candles there are. -/
structure Input where
  succeeds : Bool
  candles : List Candle

def minCandles : ℕ := 30

/-- The strategy of this user. -/
def findStrategy (state : State) (id userId : String) : Option Row :=
  (state.strategies.lookup id).filter fun row => row.userId = userId

def publications (state : State) (id : String) (listing : Listing) : List Publication :=
  match state.strategies.lookup id with
  | none => []
  | some row => [⟨id, row.columns, listing⟩]

section
variable (showNumber : ℚ → String) (python : PythonMath)

/-- Creates and updates validate and write in one statement. -/
def write (state : State) (request : StrategyBuilderApi.Request) : State × Phase :=
  let (strategies, response) := handle showNumber state.strategies request
  ({ state with strategies := strategies }, .ended (.strategy response))

def storedListing (userId : String) (price : ℚ) (author : Option String) (row : Row) : Listing where
  author := if author.getD "" = "" then userId else author.getD ""
  details := row.details
  performanceStats := performanceStats row.backtestResults
  price := price

def execute (request : Request) (input : Input) (state : State) (phase : Phase) : State × Phase :=
  match request, phase with
  | .create id userId details config, .begin =>
    write showNumber state (.create id userId details config input.succeeds)
  | .update id userId body, .begin =>
    write showNumber state (.update id userId body input.succeeds)
  | .backtest id userId _, .begin =>
    if input.succeeds then
      match findStrategy state id userId with
      | none => (state, .ended .notFound)
      | some row => (state, .selectCandles row.columns)
    else (state, .ended .raised)
  | .backtest id _ symbol, .selectCandles columns =>
    if input.succeeds then
      if input.candles.length < minCandles then
        (state, .ended (.validationError ("Insufficient candle data for " ++ symbol ++ ". Found " ++
          toString input.candles.length ++ " candles, need at least 30.")))
      else
        match runSimpleBacktest python input.candles columns with
        | none => (state, .ended .raised)
        | some results =>
          let run : Run := ⟨id, columns, input.candles, results⟩
          ({ state with runs := run :: state.runs }, .storeResults run)
    else (state, .ended .raised)
  -- the strategy may have been changed since it was read
  | .backtest id _ _, .storeResults run =>
    if input.succeeds then
      match state.strategies.lookup id with
      | none => (state, .ended (.backtestResult run.results))
      | some row =>
        ({ state with
            strategies :=
              state.strategies.insert id { row with backtestResults := some run.results }
            sources := state.sources.insert id run }, .ended (.backtestResult run.results))
    else (state, .ended .raised)
  -- the results are read here with the row, and listed by the next statement
  | .publish id userId _ _, .begin =>
    if input.succeeds then
      match findStrategy state id userId with
      | none => (state, .ended .notFound)
      | some row =>
        if row.isPublished then (state, .ended (.conflict "Strategy is already published"))
        else (state, .insertListing row (state.sources.lookup id))
    else (state, .ended .raised)
  | .publish id userId price author, .insertListing row _ =>
    if input.succeeds then
      match state.listings.lookup id with
      | some _ => (state, .ended (.conflict "Strategy is already listed in the marketplace"))
      | none =>
        let listing := storedListing userId price author row
        ({ state with
            listings := state.listings.insert id listing
            published := publications state id listing ++ state.published },
          .markPublished listing)
    else (state, .ended .serverError)
  | .publish id _ _ _, .markPublished listing =>
    if input.succeeds then
      match state.strategies.lookup id with
      | none => (state, .ended (.listing listing))
      | some row =>
        ({ state with strategies := state.strategies.insert id { row with isPublished := true } },
          .ended (.listing listing))
    else (state, .ended .serverError)
  | _, phase => (state, phase)

end

/-- No results but those that were stored before. -/
def NoNewResults (before after : StrategyBuilderApi.Db) : Prop :=
  ∀ id row results, after.lookup id = some row → row.backtestResults = some results →
    ∃ old, before.lookup id = some old ∧ old.backtestResults = some results

/-- The run of the backtest is a real one. -/
def Run.Genuine (python : PythonMath) (run : Run) : Prop :=
  runSimpleBacktest python run.candles run.columns = some run.results

/-- What a statement of a request does. -/
inductive Effect (python : PythonMath) (id : String) (state : State) (phase : Phase) :
    State → Phase → Prop
  | stays : Effect python id state phase state phase
  | ends (response : Response) : Effect python id state phase state (.ended response)
  | reads (columns : Columns) : Effect python id state phase state (.selectCandles columns)
  | writes {strategies : StrategyBuilderApi.Db} (response : Response)
      (hresults : NoNewResults state.strategies strategies) :
      Effect python id state phase { state with strategies := strategies } (.ended response)
  | runs (run : Run) (hgenuine : run.Genuine python) :
      Effect python id state phase { state with runs := run :: state.runs } (.storeResults run)
  | stores {run : Run} {row : Row} (hphase : phase = .storeResults run) (response : Response) :
      Effect python id state phase
        { state with
          strategies := state.strategies.insert id { row with backtestResults := some run.results }
          sources := state.sources.insert id run } (.ended response)
  | fetches {row : Row} (hrow : state.strategies.lookup id = some row) :
      Effect python id state phase state (.insertListing row (state.sources.lookup id))
  | lists {row : Row} {source : Option Run} (hphase : phase = .insertListing row source)
      {listing : Listing}
      (hstats : listing.performanceStats = performanceStats row.backtestResults) :
      Effect python id state phase
        { state with
          listings := state.listings.insert id listing
          published := publications state id listing ++ state.published } (.markPublished listing)

def Request.strategyId : Request → String
  | .create id _ _ _ => id
  | .update id _ _ => id
  | .backtest id _ _ => id
  | .publish id _ _ _ => id

theorem NoNewResults.refl (db : StrategyBuilderApi.Db) : NoNewResults db db :=
  fun _ row _ hrow hresults => ⟨row, hrow, hresults⟩

theorem NoNewResults.insert {db : StrategyBuilderApi.Db} {id : String} {row : Row}
    (h : ∀ results, row.backtestResults = some results →
      ∃ old, db.lookup id = some old ∧ old.backtestResults = some results) :
    NoNewResults db (db.insert id row) := by
  intro id' row' results hrow hresults
  by_cases hid : id' = id
  · subst hid
    rw [AList.lookup_insert, Option.some.injEq] at hrow
    subst hrow
    exact h results hresults
  · rw [AList.lookup_insert_ne hid] at hrow
    exact ⟨row', hrow, hresults⟩

section
variable (showNumber : ℚ → String)

theorem noNewResults_updateRow (db : StrategyBuilderApi.Db) (id userId : String)
    (body : UpdateBody) (succeeds : Bool) :
    NoNewResults db (updateRow db id userId body succeeds).1 := by
  obtain hsame | ⟨row, -, hrow, -, -, hinsert⟩ := fst_updateRow db id userId body succeeds
  · rw [hsame]
    exact .refl db
  · rw [hinsert]
    exact .insert fun results hresults => ⟨row, hrow, hresults⟩

theorem noNewResults_ifValid (db : StrategyBuilderApi.Db) (config : StrategyConfig)
    {go : StrategyBuilderApi.Db × StrategyBuilderApi.Response} (h : NoNewResults db go.1) :
    NoNewResults db (ifValid showNumber config db go).1 := by
  obtain hsame | ⟨-, hgo⟩ := fst_ifValid showNumber db config go
  · rw [hsame]
    exact .refl db
  · rwa [hgo]

/-- A strategy is created without results, and an update leaves those that it has. -/
theorem noNewResults_handle (db : StrategyBuilderApi.Db) (request : StrategyBuilderApi.Request) :
    NoNewResults db (handle showNumber db request).1 := by
  cases request with
  | create id userId details config succeeds =>
    apply noNewResults_ifValid
    unfold insertStrategy
    split_ifs
    · exact .insert (by simp)
    · exact .refl db
  | update id userId body succeeds =>
    simp only [handle, updateStrategy]
    cases body.complete with
    | none => exact noNewResults_updateRow db id userId body succeeds
    | some columns =>
      simp only
      cases strategyConfig columns with
      | none => exact .refl db
      | some config =>
        exact noNewResults_ifValid showNumber db config
          (noNewResults_updateRow db id userId body succeeds)
  | validate config =>
    simp only [handle]
    cases validateStrategyConfig showNumber config <;> exact .refl db

theorem findStrategy_eq_some {state : State} {id userId : String} {row : Row}
    (h : findStrategy state id userId = some row) : state.strategies.lookup id = some row := by
  rw [findStrategy, Option.filter_eq_some_iff] at h
  exact h.1

theorem effect_backtest (python : PythonMath) (id userId symbol : String) (input : Input)
    (state : State) (phase : Phase) :
    Effect python id state phase
      (execute showNumber python (.backtest id userId symbol) input state phase).1
      (execute showNumber python (.backtest id userId symbol) input state phase).2 := by
  obtain ⟨succeeds, candles⟩ := input
  cases phase with
  | begin =>
    cases succeeds with
    | false => exact .ends .raised
    | true =>
      simp only [execute, ↓reduceIte]
      cases findStrategy state id userId with
      | none => exact .ends .notFound
      | some row => exact .reads row.columns
  | selectCandles columns =>
    cases succeeds with
    | false => exact .ends .raised
    | true =>
      simp only [execute, ↓reduceIte]
      split_ifs
      · exact .ends _
      · cases hrun : runSimpleBacktest python candles columns with
        | none => exact .ends .raised
        | some results => exact .runs ⟨id, columns, candles, results⟩ hrun
  | storeResults run =>
    cases succeeds with
    | false => exact .ends .raised
    | true =>
      simp only [execute, ↓reduceIte]
      cases state.strategies.lookup id with
      | none => exact .ends _
      | some row => exact .stores rfl _
  | _ => exact .stays

theorem effect_publish (python : PythonMath) (id userId : String) (price : ℚ)
    (author : Option String) (input : Input) (state : State) (phase : Phase) :
    Effect python id state phase
      (execute showNumber python (.publish id userId price author) input state phase).1
      (execute showNumber python (.publish id userId price author) input state phase).2 := by
  obtain ⟨succeeds, candles⟩ := input
  cases phase with
  | begin =>
    cases succeeds with
    | false => exact .ends .raised
    | true =>
      simp only [execute, ↓reduceIte]
      cases hfind : findStrategy state id userId with
      | none => exact .ends .notFound
      | some row =>
        simp only
        split_ifs
        · exact .ends _
        · exact .fetches (findStrategy_eq_some hfind)
  | insertListing row source =>
    cases succeeds with
    | false => exact .ends .serverError
    | true =>
      simp only [execute, ↓reduceIte]
      cases state.listings.lookup id with
      | some listing => exact .ends _
      | none => exact .lists rfl rfl
  | markPublished listing =>
    cases succeeds with
    | false => exact .ends .serverError
    | true =>
      simp only [execute, ↓reduceIte]
      cases hrow : state.strategies.lookup id with
      | none => exact .ends _
      | some row => exact .writes _ (.insert fun results hresults => ⟨row, hrow, hresults⟩)
  | _ => exact .stays

theorem effect_execute (python : PythonMath) (request : Request) (input : Input) (state : State)
    (phase : Phase) :
    Effect python request.strategyId state phase
      (execute showNumber python request input state phase).1
      (execute showNumber python request input state phase).2 := by
  cases request with
  | create id userId details config =>
    cases phase with
    | begin =>
      exact .writes _ (noNewResults_handle showNumber state.strategies
        (.create id userId details config input.succeeds))
    | _ => exact .stays
  | update id userId body =>
    cases phase with
    | begin =>
      exact .writes _ (noNewResults_handle showNumber state.strategies
        (.update id userId body input.succeeds))
    | _ => exact .stays
  | backtest id userId symbol =>
    exact effect_backtest showNumber python id userId symbol input state phase
  | publish id userId price author =>
    exact effect_publish showNumber python id userId price author input state phase

end

/-- The figures of a listing are those of one run, on the config that the strategy had. -/
def Belongs (python : PythonMath) (runs : List Run) (publication : Publication) : Prop :=
  publication.listing.performanceStats = [] ∨ ∃ run ∈ runs, run.columns = publication.columns ∧
    run.Genuine python ∧ ∀ figure ∈ publication.listing.performanceStats,
      run.results.lookup figure.1 = some figure.2

/-- At the insert of a listing the strategy still has the config that the run had from
which the results come. -/
def StillCurrent (request : Request) (input : Input) (state : State) (phase : Phase) : Prop :=
  ∀ row run current, phase = .insertListing row (some run) → input.succeeds = true →
    state.strategies.lookup request.strategyId = some current → current.columns = run.columns

/-- The stored results are those of the run that is noted for them. -/
def Comes (runs : List Run) (backtestResults : Option Results) (source : Option Run) : Prop :=
  ∀ results, backtestResults = some results →
    ∃ run, source = some run ∧ run ∈ runs ∧ run.results = results

structure Inv (python : PythonMath) (state : State) : Prop where
  genuine : ∀ run ∈ state.runs, run.Genuine python
  sourced : ∀ id row, state.strategies.lookup id = some row →
    Comes state.runs row.backtestResults (state.sources.lookup id)
  belongs : ∀ publication ∈ state.published, Belongs python state.runs publication

structure Kept (state : State) (phase : Phase) : Prop where
  stores : ∀ run, phase = .storeResults run → run ∈ state.runs
  inserts : ∀ row source, phase = .insertListing row source →
    Comes state.runs row.backtestResults source

theorem Belongs.mono {python : PythonMath} {runs runs' : List Run} {publication : Publication}
    (h : Belongs python runs publication) (hruns : runs ⊆ runs') :
    Belongs python runs' publication := by
  obtain hnone | ⟨run, hrun, hfigures⟩ := h
  · exact .inl hnone
  · exact .inr ⟨run, hruns hrun, hfigures⟩

theorem Comes.mono {runs runs' : List Run} {backtestResults : Option Results} {source : Option Run}
    (h : Comes runs backtestResults source) (hruns : runs ⊆ runs') :
    Comes runs' backtestResults source := by
  intro results hresults
  obtain ⟨run, hsource, hrun, hsame⟩ := h results hresults
  exact ⟨run, hsource, hruns hrun, hsame⟩

theorem Kept.mono {state state' : State} {phase : Phase} (h : Kept state phase)
    (hruns : state.runs ⊆ state'.runs) : Kept state' phase where
  stores run hphase := hruns (h.stores run hphase)
  inserts row source hphase := (h.inserts row source hphase).mono hruns

/-- Every figure of the statistics is one of the results. -/
theorem lookup_of_mem_performanceStats {results : Results} {figure : String × Json ℚ}
    (h : figure ∈ performanceStats (some results)) :
    results.lookup figure.1 = some figure.2 := by
  rw [performanceStats, List.mem_filterMap] at h
  obtain ⟨k, -, hk⟩ := h
  rw [Option.map_eq_some_iff] at hk
  obtain ⟨v, hv, rfl⟩ := hk
  exact hv

section
variable {python : PythonMath} {id : String} {state state' : State} {phase phase' : Phase}

theorem Effect.runs_subset (h : Effect python id state phase state' phase') :
    state.runs ⊆ state'.runs := by
  cases h with
  | runs => exact List.subset_cons_self _ _
  | _ => exact List.Subset.refl _

theorem Kept.effect (hinv : Inv python state) (hkept : Kept state phase)
    (h : Effect python id state phase state' phase') : Kept state' phase' := by
  cases h with
  | stays => exact hkept
  | runs run =>
    constructor
    · rintro run' ⟨⟩
      exact List.mem_cons_self
    · simp
  | fetches hrow =>
    constructor
    · simp
    · rintro row source ⟨⟩
      exact hinv.sourced id _ hrow
  | _ => constructor <;> simp

theorem Inv.effect (hinv : Inv python state) (hkept : Kept state phase)
    (h : Effect python id state phase state' phase')
    (hcurrent : ∀ row run listing current, phase = .insertListing row (some run) →
      phase' = .markPublished listing → state.strategies.lookup id = some current →
        current.columns = run.columns) : Inv python state' := by
  cases h with
  | stays => exact hinv
  | ends => exact hinv
  | reads => exact hinv
  | fetches => exact hinv
  | writes response hresults =>
    refine ⟨hinv.genuine, ?_, hinv.belongs⟩
    intro id' row hrow results hrowResults
    -- the results were there before, and so was their source
    obtain ⟨old, hold, holdResults⟩ := hresults id' row results hrow hrowResults
    exact hinv.sourced id' old hold results holdResults
  | runs run hgenuine =>
    have hruns : state.runs ⊆ run :: state.runs := List.subset_cons_self _ _
    refine ⟨?_, ?_, ?_⟩
    · exact List.forall_mem_cons.mpr ⟨hgenuine, hinv.genuine⟩
    -- an older run is still one of the runs
    · exact fun id' row hrow => (hinv.sourced id' row hrow).mono hruns
    · exact fun publication hpub => (hinv.belongs publication hpub).mono hruns
  | @stores run row hphase response =>
    have hrun := hkept.stores run hphase
    refine ⟨hinv.genuine, ?_, hinv.belongs⟩
    intro id' row' hrow results hresults
    -- the results and the note of their source are stored together
    by_cases hid : id' = id
    · subst hid
      simp only [AList.lookup_insert, Option.some.injEq] at hrow
      subst hrow
      exact ⟨run, AList.lookup_insert _, hrun, Option.some.inj hresults⟩
    · simp only [AList.lookup_insert_ne hid] at hrow ⊢
      exact hinv.sourced id' row' hrow results hresults
  | @lists row source hphase listing hstats =>
    refine ⟨hinv.genuine, hinv.sourced, ?_⟩
    intro publication hpub
    -- at most one publication is new
    rcases List.mem_append.mp hpub with hnew | hold
    · unfold publications at hnew
      cases hlookup : state.strategies.lookup id with
      | none =>
        rw [hlookup] at hnew
        cases hnew
      | some current =>
        rw [hlookup, List.mem_singleton] at hnew
        subst hnew
        cases hresults : row.backtestResults with
        | none =>
          rw [hresults] at hstats
          -- without results there are no figures
          exact .inl hstats
        | some results =>
          -- the results read come from a run, whose config is still that of the strategy
          obtain ⟨run, rfl, hrun, rfl⟩ := hkept.inserts row source hphase results hresults
          have hcolumns := hcurrent row run listing current hphase rfl hlookup
          refine .inr ⟨run, hrun, hcolumns.symm, hinv.genuine run hrun, ?_⟩
          intro figure hfigure
          simp only at hfigure
          rw [hstats, hresults] at hfigure
          exact lookup_of_mem_performanceStats hfigure
    · exact hinv.belongs publication hold

end

section
variable {ι : Type*} [DecidableEq ι] (showNumber : ℚ → String) (python : PythonMath)
  (requests : ι → Request)

variable (ι) in
omit [DecidableEq ι] in
/-- No strategies yet, and all requests still to come. -/
def start : World ι State Phase := ⟨⟨∅, ∅, [], ∅, []⟩, fun _ => .begin⟩

def next (world : World ι State Phase) (turn : Turn ι Input) : World ι State Phase :=
  world.step (fun i => execute showNumber python (requests i)) turn

/-- What holds in a run whose publications are current. -/
structure Sourced (world : World ι State Phase) : Prop where
  inv : Inv python world.db
  kept : ∀ i, Kept world.db (world.processes i)

omit [DecidableEq ι] in
theorem sourced_start : Sourced python (start ι) where
  inv := by
    refine ⟨by simp [start], ?_, by simp [start]⟩
    intro id row hrow
    cases hrow
  kept _ := by constructor <;> simp [start]

theorem sourced_next {world : World ι State Phase} (h : Sourced python world) (turn : Turn ι Input)
    (hcurrent : StillCurrent (requests turn.process) turn.input world.db
      (world.processes turn.process)) :
    Sourced python (next showNumber python requests world turn) := by
  obtain ⟨i, input⟩ := turn
  have heffect := effect_execute showNumber python (requests i) input world.db (world.processes i)
  refine ⟨?_, ?_⟩
  · apply h.inv.effect (h.kept i) heffect
    intro row run listing current hphase hafter hlookup
    apply hcurrent row run current hphase ?_ hlookup
    -- an insert that fails ends the request
    cases hrequest : requests i <;> cases hsucceeds : input.succeeds <;>
      simp_all [execute]
  · apply forall_processes_step (fun i => execute showNumber python (requests i))
      (K := fun _ db phase => Kept db phase) h.kept
    · exact (h.kept i).effect h.inv heffect
    · exact fun j _ hj => hj.mono heffect.runs_subset

/-- In every run in which listings are inserted while the strategy still has the config of
the run that their results come from, the figures of every listing belong to the config
that its strategy had when it was published. -/
theorem belongs_of_stillCurrent (turns : List (Turn ι Input))
    (hcurrent : ∀ earlier turn, earlier ++ [turn] <+: turns →
      let world := earlier.foldl (next showNumber python requests) (start ι)
      StillCurrent (requests turn.process) turn.input world.db (world.processes turn.process)) :
    ∀ reached, reached <+: turns →
      let world := reached.foldl (next showNumber python requests) (start ι)
      ∀ publication ∈ world.db.published, Belongs python world.db.runs publication := by
  intro reached hreached
  have hsourced : Sourced python
      (reached.foldl (next showNumber python requests) (start ι)) := by
    apply forall_reached_of_forall_step (next showNumber python requests) (I := Sourced python)
      (C := fun world turn => StillCurrent (requests turn.process) turn.input world.db
        (world.processes turn.process))
    · exact fun world turn h hturn => sourced_next showNumber python requests h turn hturn
    · exact sourced_start python
    · exact hcurrent
    · exact hreached
  exact hsourced.inv.belongs

end

/-- Thirty candles with the same close, on which nothing is traded. -/
def flatCandles : List Candle := List.replicate 30 ⟨1⟩

def plainMath : PythonMath := ⟨fun _ => none, fun _ => 1⟩

theorem runSimpleBacktest_flatCandles :
    runSimpleBacktest plainMath flatCandles (rsiColumns ∅) = some (flatResults 30) := by
  have hperiods : periods plainMath (rsiColumns ∅) (flatCandles.map Candle.close).length =
      some (10, 15) := by decide +kernel
  have htrades : simulateTrades (flatCandles.map Candle.close) 10 15 = some [] := by
    decide +kernel
  have hcandles : flatCandles ≠ [] := by simp [flatCandles]
  simp only [runSimpleBacktest, if_neg hcandles, hperiods, Option.bind_eq_bind, Option.bind_some,
    htrades, ↓reduceIte]
  rfl

def smaColumns : Columns :=
  ⟨[StrategyBuilderApi.sma], [crossedUp "sma"], [crossedUp "sma"]⟩

def replaceColumns : UpdateBody :=
  ⟨none, none, none, some smaColumns.indicators, some smaColumns.entryConditions,
    some smaColumns.exitConditions, none, 1⟩

def plainDetails : Details := ⟨"s", "", "multi_indicator", []⟩

def oneOfEach : Fin 4 → Request
  | 0 => .create "s" "u" plainDetails (rsiConfig ∅)
  | 1 => .backtest "s" "u" "BTC/USD"
  | 2 => .publish "s" "u" 0 none
  | 3 => .update "s" "u" replaceColumns

def turnOf (i : Fin 4) : Turn (Fin 4) Input := ⟨i, true, flatCandles⟩

def run (order : List (Fin 4)) : World (Fin 4) State Phase :=
  (order.map turnOf).foldl (next (fun _ => "") plainMath oneOfEach) (start (Fin 4))

theorem run_append (order : List (Fin 4)) (i : Fin 4) :
    run (order ++ [i]) = next (fun _ => "") plainMath oneOfEach (run order) (turnOf i) := by
  rw [run, List.map_append, List.foldl_append]
  rfl

def flatRun : Run := ⟨"s", rsiColumns ∅, flatCandles, flatResults 30⟩

def createdRow : Row := ⟨"u", plainDetails, rsiColumns ∅, 1, false, none⟩

def createdTable : StrategyBuilderApi.Db := (∅ : StrategyBuilderApi.Db).insert "s" createdRow

/-- After the backtest has run, and before its results are stored. -/
def backtested : World (Fin 4) State Phase :=
  ⟨⟨createdTable, ∅, [flatRun], ∅, []⟩,
    Function.update (run [0, 1]).processes 1 (.storeResults flatRun)⟩

theorem run_eq_backtested : run [0, 1, 1] = backtested := by
  have hdb : (run [0, 1]).db = ⟨createdTable, ∅, [], ∅, []⟩ := rfl
  have hphase : (run [0, 1]).processes 1 = .selectCandles (rsiColumns ∅) := rfl
  have hlength : ¬ flatCandles.length < minCandles := by decide
  have hrun := run_append [0, 1] 1
  rw [next, World.step, turnOf, hphase, hdb] at hrun
  simp only [execute, oneOfEach, ↓reduceIte, hlength, runSimpleBacktest_flatCandles] at hrun
  exact hrun

theorem belongs_run : ∃ publication ∈ (run [0, 1, 1, 1, 2, 2]).db.published,
    Belongs plainMath (run [0, 1, 1, 1, 2, 2]).db.runs publication := by
  have hcurrent : ∀ earlier turn, earlier ++ [turn] <+: [0, 1, 1, 1, 2, 2].map turnOf →
      StillCurrent (oneOfEach turn.process) turn.input
        (earlier.foldl (next (fun _ => "") plainMath oneOfEach) (start (Fin 4))).db
        ((earlier.foldl (next (fun _ => "") plainMath oneOfEach)
          (start (Fin 4))).processes turn.process) := by
    apply (eachStep_iff_forall_step (next (fun _ => "") plainMath oneOfEach)
      (fun world turn => StillCurrent (oneOfEach turn.process) turn.input world.db
        (world.processes turn.process)) _ _).mp
    refine ⟨?_, fun _ => ⟨?_, fun _ => ⟨?_, fun _ => ?_⟩⟩⟩
    · intro row run current hphase
      cases hphase
    · intro row run current hphase
      cases hphase
    · intro row run current hphase
      cases hphase
    -- the backtest's own computation is not unfolded again
    · change EachStep _ _ _ (run [0, 1, 1]) _
      rw [run_eq_backtested]
      refine ⟨?_, fun _ => ⟨?_, fun _ => ⟨?_, fun _ => trivial⟩⟩⟩
      · intro row run current hphase
        cases hphase
      · intro row run current hphase
        cases hphase
      · intro row run current hphase _ hrow
        cases hphase
        cases hrow
        rfl
  have hall := belongs_of_stillCurrent (fun _ => "") plainMath oneOfEach
    ([0, 1, 1, 1, 2, 2].map turnOf) hcurrent _ List.prefix_rfl
  have hrun : run [0, 1, 1, 1, 2, 2] =
      ([1, 2, 2].map turnOf).foldl (next (fun _ => "") plainMath oneOfEach) backtested := by
    rw [← run_eq_backtested]
    rfl
  obtain ⟨publication, hpublished⟩ : ∃ publication,
      publication ∈ (run [0, 1, 1, 1, 2, 2]).db.published := by
    rw [hrun]
    exact ⟨_, List.mem_singleton_self _⟩
  exact ⟨publication, hpublished, hall publication hpublished⟩

/-- The update comes between the backtest and the publication. -/
theorem not_belongs_run : ¬ ∀ publication ∈ (run [0, 1, 1, 1, 3, 2, 2, 2]).db.published,
    Belongs plainMath (run [0, 1, 1, 1, 3, 2, 2, 2]).db.runs publication := by
  have hrun : run [0, 1, 1, 1, 3, 2, 2, 2] =
      ([1, 3, 2, 2, 2].map turnOf).foldl (next (fun _ => "") plainMath oneOfEach) backtested := by
    rw [← run_eq_backtested]
    rfl
  rw [hrun]
  intro h
  obtain hnone | ⟨run, hrun, hcolumns, -⟩ := h _ (List.mem_singleton_self _)
  · cases hnone
  · obtain rfl : run = flatRun := List.mem_singleton.mp hrun
    have hid : ["rsi"] = ["sma"] :=
      congrArg (fun columns : Columns => columns.indicators.map IndicatorConfig.id) hcolumns
    exact absurd hid (by decide)

end TradeStream.PublishedPerformance
