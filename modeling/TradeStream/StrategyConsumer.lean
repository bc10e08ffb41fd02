import TradeStream.Transaction

/-! `PostgresClient.insert_strategies` of the strategy consumer: a batch of rows is
upserted in one transaction, each row with its own exception handler. -/
namespace TradeStream.StrategyConsumer
open TradeStream.Transaction

/-- A JSON value. -/
inductive Json where
  | null
  | bool (value : Bool)
  | num (text : String)
  | str (value : String)
  | arr (items : List Json)
  | obj (fields : List (String × Json))

/-- A strategy dictionary, as `_parse_strategy_message` builds it. A key may be
missing. -/
structure Strategy (Score : Type*) where
  symbol : Option String
  strategyType : Option String
  parameters : Option Json
  currentScore : Option Score
  strategyHash : Option String
  discoverySymbol : Option String
  discoveryStartTime : Option String
  discoveryEndTime : Option String

/-- The parts of Python's library that a row goes through on the client. `D` is
`datetime`; `none` stands for an exception. -/
structure Client (D : Type*) where
  fromisoformat : String → Option D
  dropTzinfo : D → D
  isoformat : D → String

/-- The arguments of the upsert into `Strategies`. The parameters travel as
`json.dumps` text into a JSONB column, which holds the value. -/
structure UpsertArgs (D Score : Type*) where
  symbol : String
  strategyType : String
  parameters : Json
  currentScore : Score
  strategyHash : String
  discoverySymbol : String
  discoveryStartTime : Option D
  discoveryEndTime : Option D

/-- The `backtest_metrics` of an implementation row. -/
structure BacktestMetrics (Score : Type*) where
  score : Score
  symbol : String
  discoveryStart : Option String
  discoveryEnd : Option String

inductive Statement (D Score : Type*) where
  | upsertStrategy (args : UpsertArgs D Score)
  | upsertSpec (name : String)
  | selectSpec (name : String)
  | insertImplementation (specId : String) (parameters : Json)
      (backtestMetrics : BacktestMetrics Score)

/-- How the database answers the statements of one row. `specId` is the row that the
select finds. -/
structure Replies where
  upsert : Reply
  specUpsert : Reply
  specSelect : Reply
  specId : Option String
  implementation : Reply

/-- A row of the batch, with the answers its statements meet on their own. -/
structure Row (Score : Type*) where
  strategy : Strategy Score
  replies : Replies

variable {D Score : Type*}

/-- `None` for a missing or empty text; otherwise `fromisoformat`, which may raise. -/
def parseTimestamp (client : Client D) (text : Option String) : Option (Option D) :=
  match text with
  | none => some none
  | some t =>
    if t = "" then some none
    else ((client.fromisoformat (t.replace "Z" "+00:00")).map client.dropTzinfo).map some

/-- The arguments of a row's upsert; `none` where a timestamp does not parse. -/
def prepare [Zero Score] (client : Client D) (strategy : Strategy Score) :
    Option (UpsertArgs D Score) :=
  match parseTimestamp client strategy.discoveryStartTime,
      parseTimestamp client strategy.discoveryEndTime with
  | some discoveryStartTime, some discoveryEndTime =>
    some {
      symbol := strategy.symbol.getD ""
      strategyType := strategy.strategyType.getD ""
      parameters := strategy.parameters.getD (.obj [])
      currentScore := strategy.currentScore.getD 0
      strategyHash := strategy.strategyHash.getD ""
      discoverySymbol := strategy.discoverySymbol.getD ""
      discoveryStartTime := discoveryStartTime
      discoveryEndTime := discoveryEndTime }
  | _, _ => none

/-- The spec's id, where no exception is raised. -/
def ensureOrGetSpec (session : Session (Statement D Score)) (strategyType : String)
    (replies : Replies) : Session (Statement D Score) × Option String :=
  let (session, upserted) := session.execute (.upsertSpec strategyType) replies.specUpsert
  if upserted then
    let (session, selected) := session.execute (.selectSpec strategyType) replies.specSelect
    -- `row["id"]` raises where no row is found.
    (session, if selected then replies.specId else none)
  else (session, none)

def insertImplementation (client : Client D) (session : Session (Statement D Score))
    (specId : String) (args : UpsertArgs D Score) (replies : Replies) :
    Session (Statement D Score) :=
  (session.execute (.insertImplementation specId args.parameters
    { score := args.currentScore
      symbol := args.symbol
      discoveryStart := args.discoveryStartTime.map client.isoformat
      discoveryEnd := args.discoveryEndTime.map client.isoformat }) replies.implementation).1

/-- The inner `try`: its failures are logged only. -/
def writeV2 (client : Client D) (session : Session (Statement D Score))
    (args : UpsertArgs D Score) (replies : Replies) : Session (Statement D Score) :=
  match ensureOrGetSpec session args.strategyType replies with
  | (session, none) => session
  | (session, some specId) => insertImplementation client session specId args replies

/-- One iteration: the session and `processed_count`. -/
def processRow [Zero Score] (client : Client D) (state : Session (Statement D Score) × ℕ)
    (row : Row Score) : Session (Statement D Score) × ℕ :=
  match prepare client row.strategy with
  | none => state
  | some args =>
    let (session, inserted) := state.1.execute (.upsertStrategy args) row.replies.upsert
    if inserted then (writeV2 client session args row.replies, state.2 + 1)
    else (session, state.2)

/-- What a call returns, and what it leaves in the database. -/
structure Outcome (D Score : Type*) where
  processedCount : ℕ
  durable : List (Statement D Score)

def insertStrategies [Zero Score] (client : Client D) (strategies : List (Row Score)) :
    Outcome D Score :=
  if strategies.isEmpty then ⟨0, []⟩
  else
    let (session, processedCount) := strategies.foldl (processRow client) (.begin, 0)
    ⟨processedCount, session.commit⟩

/-- The row of `Strategies` that a statement writes. -/
def Statement.strategyRow : Statement D Score → Option (UpsertArgs D Score)
  | .upsertStrategy args => some args
  | _ => none

/-- The rows of the batch that are durable after the call. -/
def Outcome.durableRows (o : Outcome D Score) : List (UpsertArgs D Score) :=
  o.durable.filterMap Statement.strategyRow

/-- The row a batch element would write, where its own upsert is not rejected. -/
def Row.accepted [Zero Score] (client : Client D) (row : Row Score) :
    Option (UpsertArgs D Score) :=
  if row.replies.upsert = .accepted then prepare client row.strategy else none

/-- Behind an accepted upsert, one of the statements of the V2 model is rejected. -/
def Replies.V2Rejected (replies : Replies) : Prop :=
  replies.specUpsert = .rejected ∨ replies.specUpsert = .accepted ∧
    (replies.specSelect = .rejected ∨ replies.specSelect = .accepted ∧
      replies.specId ≠ none ∧ replies.implementation = .rejected)

instance (replies : Replies) : Decidable replies.V2Rejected := by
  unfold Replies.V2Rejected
  infer_instance

/-- A statement that the row sends is rejected. -/
def Row.HasRejection [Zero Score] (client : Client D) (row : Row Score) : Prop :=
  prepare client row.strategy ≠ none ∧
    (row.replies.upsert = .rejected ∨ row.replies.upsert = .accepted ∧ row.replies.V2Rejected)

/-- The number returned is the number of durable rows, and every row whose upsert was
not itself rejected is durable. -/
def CountsDurable [Zero Score] (client : Client D) (strategies : List (Row Score)) : Prop :=
  let outcome := insertStrategies client strategies
  outcome.processedCount = outcome.durableRows.length ∧
    ∀ row ∈ strategies, ∀ args, row.accepted client = some args → args ∈ outcome.durableRows

/-- The V2 statements write no row of `Strategies`, and abort the session just when
one of them is rejected. -/
theorem writeV2_spec (client : Client D) (session : Session (Statement D Score))
    (h : session.aborted = false) (args : UpsertArgs D Score) (replies : Replies) :
    (writeV2 client session args replies).aborted = decide replies.V2Rejected ∧
      (writeV2 client session args replies).applied.filterMap Statement.strategyRow =
        session.applied.filterMap Statement.strategyRow := by
  obtain ⟨upsert, specUpsert, specSelect, specId, implementation⟩ := replies
  cases specUpsert with
  | rejected | unsent =>
    simp [writeV2, ensureOrGetSpec, Replies.V2Rejected, h]
  | accepted =>
    cases specSelect with
    | rejected | unsent =>
      simp [writeV2, ensureOrGetSpec, Replies.V2Rejected, h, Statement.strategyRow]
    | accepted =>
      cases specId with
      | none => simp [writeV2, ensureOrGetSpec, Replies.V2Rejected, h, Statement.strategyRow]
      | some id =>
        cases implementation <;>
          simp [writeV2, ensureOrGetSpec, insertImplementation, Replies.V2Rejected, h,
            Statement.strategyRow]

/-- What one row does to the transaction and to the count. -/
structure RowSpec [Zero Score] (client : Client D) (row : Row Score)
    (state state' : Session (Statement D Score) × ℕ) : Prop where
  aborted : state'.1.aborted = true ↔ state.1.aborted = true ∨ row.HasRejection client
  applied : state'.1.aborted = false → state'.1.applied.filterMap Statement.strategyRow =
    state.1.applied.filterMap Statement.strategyRow ++ (row.accepted client).toList
  counted : state'.1.aborted = false →
    state'.2 = state.2 + (row.accepted client).toList.length
  uncounted : row.accepted client = none → state'.2 = state.2

theorem processRow_spec [Zero Score] (client : Client D)
    (state : Session (Statement D Score) × ℕ) (row : Row Score) :
    RowSpec client row state (processRow client state row) := by
  obtain ⟨session, count⟩ := state
  cases hp : prepare client row.strategy with
  | none => constructor <;> simp [processRow, Row.HasRejection, Row.accepted, hp]
  | some args =>
    cases hr : row.replies.upsert with
    | rejected | unsent =>
      constructor <;> simp [processRow, Row.HasRejection, Row.accepted, hp, hr]
    | accepted =>
      cases ha : session.aborted with
      | true => constructor <;> simp [processRow, Row.HasRejection, Row.accepted, hp, hr, ha]
      | false =>
        -- sent and accepted: the statements of the second table follow
        have hsent : session.execute (.upsertStrategy args) .accepted =
            (⟨session.applied ++ [.upsertStrategy args], false⟩, true) := by
          simp [Session.execute, ha]
        obtain ⟨h1, h2⟩ := writeV2_spec client
          ⟨session.applied ++ [.upsertStrategy args], false⟩ rfl args row.replies
        constructor
        · simp [processRow, Row.HasRejection, hp, hr, hsent, h1, ha]
        · intro _
          simp [processRow, Row.accepted, hp, hr, hsent, h2, Statement.strategyRow]
        · simp [processRow, Row.accepted, hp, hr, hsent]
        · simp [Row.accepted, hp, hr]

/-- The whole loop, from any state of the transaction. -/
theorem foldl_processRow_spec [Zero Score] (client : Client D) (strategies : List (Row Score))
    (state : Session (Statement D Score) × ℕ) :
    ((strategies.foldl (processRow client) state).1.aborted = true ↔
        state.1.aborted = true ∨ ∃ row ∈ strategies, row.HasRejection client) ∧
      ((strategies.foldl (processRow client) state).1.aborted = false →
        (strategies.foldl (processRow client) state).1.applied.filterMap Statement.strategyRow =
            state.1.applied.filterMap Statement.strategyRow ++
              strategies.filterMap (Row.accepted client) ∧
          (strategies.foldl (processRow client) state).2 =
            state.2 + (strategies.filterMap (Row.accepted client)).length) ∧
      ((∀ row ∈ strategies, row.accepted client = none) →
        (strategies.foldl (processRow client) state).2 = state.2) := by
  induction strategies generalizing state with
  | nil => simp
  | cons row strategies ih =>
    have hrow := processRow_spec client state row
    obtain ⟨h1, h2, h3⟩ := ih (processRow client state row)
    rw [List.foldl_cons]
    refine ⟨?_, ?_, ?_⟩
    · rw [h1, hrow.aborted, or_assoc]
      simp
    · intro hf
      obtain ⟨ha, hc⟩ := h2 hf
      -- A session that is fine in the end was fine after the first row.
      have hmid : (processRow client state row).1.aborted = false := by
        by_contra hne
        have := h1.mpr (Or.inl (by simpa using hne))
        rw [hf] at this
        exact Bool.noConfusion this
      have hcons : (row :: strategies).filterMap (Row.accepted client) =
          (row.accepted client).toList ++ strategies.filterMap (Row.accepted client) := by
        cases h : row.accepted client <;> simp [h]
      constructor
      · rw [ha, hrow.applied hmid, hcons, List.append_assoc]
      · rw [hc, hrow.counted hmid, hcons, List.length_append, add_assoc]
    · intro hnone
      rw [h3 fun r hr => hnone r (List.mem_cons_of_mem _ hr),
        hrow.uncounted (hnone row List.mem_cons_self)]

theorem insertStrategies_eq [Zero Score] (client : Client D) (strategies : List (Row Score)) :
    insertStrategies client strategies =
      ⟨(strategies.foldl (processRow client) (.begin, 0)).2,
        (strategies.foldl (processRow client) (.begin, 0)).1.commit⟩ := by
  cases strategies with
  | nil => rfl
  | cons row strategies => rfl

/-- Where nothing is rejected the transaction commits every accepted row. -/
theorem outcome_of_no_rejection [Zero Score] (client : Client D) (strategies : List (Row Score))
    (h : ∀ row ∈ strategies, ¬ row.HasRejection client) :
    (insertStrategies client strategies).durableRows =
        strategies.filterMap (Row.accepted client) ∧
      (insertStrategies client strategies).processedCount =
        (strategies.filterMap (Row.accepted client)).length := by
  obtain ⟨h1, h2, _⟩ := foldl_processRow_spec client strategies (.begin, 0)
  have hab : (strategies.foldl (processRow client) (.begin, 0)).1.aborted = false := by
    apply Bool.eq_false_iff.mpr
    intro hab
    rcases h1.mp hab with hbegin | ⟨row, hrow, hrej⟩
    · cases hbegin
    · exact h row hrow hrej
  obtain ⟨ha, hc⟩ := h2 hab
  rw [insertStrategies_eq]
  constructor
  · rw [Outcome.durableRows, Session.commit_of_not_aborted hab, ha]
    rfl
  · simpa using hc

/-- One rejected statement anywhere rolls everything back. -/
theorem durableRows_of_rejection [Zero Score] (client : Client D) (strategies : List (Row Score))
    (h : ∃ row ∈ strategies, row.HasRejection client) :
    (insertStrategies client strategies).durableRows = [] := by
  obtain ⟨h1, _, _⟩ := foldl_processRow_spec client strategies (.begin, 0)
  rw [insertStrategies_eq, Outcome.durableRows, Session.commit_of_aborted (h1.mpr (Or.inr h))]
  rfl

/-- The count is right and no accepted row is lost just when no statement that is
sent is rejected, or every upsert that is sent is. -/
theorem countsDurable_iff [Zero Score] (client : Client D) (strategies : List (Row Score)) :
    CountsDurable client strategies ↔
      (∀ row ∈ strategies, ¬ row.HasRejection client) ∨
        ∀ row ∈ strategies, row.accepted client = none := by
  -- one rejected statement and the commit of the batch keeps nothing
  by_cases hrej : ∃ row ∈ strategies, row.HasRejection client
  · have hrows := durableRows_of_rejection client strategies hrej
    constructor
    · rintro ⟨_, hlost⟩
      refine Or.inr fun row hrow => ?_
      cases hargs : row.accepted client with
      | none => rfl
      | some args =>
        have hmem := hlost row hrow args hargs
        rw [hrows] at hmem
        cases hmem
    · rintro (hgood | hnone)
      · obtain ⟨row, hrow, hbad⟩ := hrej
        exact absurd hbad (hgood row hrow)
      · obtain ⟨_, _, h3⟩ := foldl_processRow_spec client strategies (.begin, 0)
        constructor
        · rw [hrows, insertStrategies_eq]
          exact h3 hnone
        · intro row hrow args hargs
          rw [hnone row hrow] at hargs
          cases hargs
  · have hgood : ∀ row ∈ strategies, ¬ row.HasRejection client := fun row hrow hbad =>
      hrej ⟨row, hrow, hbad⟩
    obtain ⟨hrows, hcount⟩ := outcome_of_no_rejection client strategies hgood
    refine ⟨fun _ => Or.inl hgood, fun _ => ⟨?_, ?_⟩⟩
    · rw [hrows, hcount]
    · intro row hrow args hargs
      rw [hrows]
      exact List.mem_filterMap.mpr ⟨row, hrow, hargs⟩

/-- A client for rows without timestamps. -/
def plainClient : Client String := ⟨fun _ => none, id, id⟩

def plainRow (strategyHash : String) (upsert : Reply) : Row ℤ where
  strategy := ⟨some "BTC/USD", some "SMA_RSI", none, some 1, some strategyHash,
    some "BTC/USD", none, none⟩
  replies := ⟨upsert, .accepted, .accepted, some "spec", .accepted⟩

/-- One row is reported as processed, and none is durable. -/
theorem not_countsDurable_of_rejected_second :
    (insertStrategies plainClient [plainRow "a" .accepted, plainRow "b" .rejected]).processedCount
        = 1 ∧
      (insertStrategies plainClient
        [plainRow "a" .accepted, plainRow "b" .rejected]).durable.length = 0 ∧
      ¬ CountsDurable plainClient [plainRow "a" .accepted, plainRow "b" .rejected] := by
  refine ⟨rfl, rfl, ?_⟩
  intro h
  exact absurd h.1 (by decide)

end TradeStream.StrategyConsumer
