import TradeStream.Batching
import TradeStream.DiscoveredStrategy
import TradeStream.KeyedTable
import TradeStream.StrategyConsumer

/-! The strategy consumer from the messages it polls to the rows of `Strategies`: the loop of
`consume_messages`, the batches that it hands over, and what is left of them. -/
namespace TradeStream.KafkaConsumer
open TradeStream.Batching TradeStream.Discovery TradeStream.KeyedTable
open TradeStream.StrategyConsumer TradeStream.Transaction

/-- What the consumer takes from libraries: the parser that `protoc` generates, the digest, and
a timestamp as text, or `none` where it is out of range. -/
structure Parser (Score : Type*) where
  fromString : List UInt8 → Option (DiscoveredStrategy Score)
  sha256 : List UInt8 → List UInt8
  timestampToIso : Timestamp → Option String

/-- A message, and how the database answers the statements of its row. -/
structure Message where
  value : Option (List UInt8)
  replies : Replies

/-- One turn of the loop: whether the consumer still runs and the time when the turn begins,
the messages of each partition, and the time when they are there. -/
structure Turn where
  isRunning : Bool
  currentTime : ℚ
  messageBatch : List (List Message)
  received : ℚ

structure Limits where
  batchSize : ℕ
  idleTimeoutSeconds : ℚ
  maxProcessingTimeSeconds : ℚ

variable {D Score : Type*}

section
variable (parser : Parser Score)

def extractStrategyParameters (parametersAny : AnyMessage) : Json :=
  let value := Json.str (String.ofList (Hex.encode parametersAny.value))
  .obj [("protobuf_type", .str parametersAny.typeUrl), ("protobuf_data", value),
    ("raw_parameters", .obj [("type_url", .str parametersAny.typeUrl), ("value", value)])]

def parseStrategyMessage (messageBytes : List UInt8) :
    Option (StrategyConsumer.Strategy Score) :=
  (parser.fromString messageBytes).map fun discovered =>
    { symbol := some discovered.symbol
      strategyType := some discovered.strategy.strategyName
      currentScore := some discovered.score
      strategyHash := some (strategyHash parser.sha256 discovered.strategy.parameters)
      discoverySymbol := some discovered.symbol
      discoveryStartTime := parser.timestampToIso discovered.startTime
      discoveryEndTime := parser.timestampToIso discovered.endTime
      parameters := some (extractStrategyParameters discovered.strategy.parameters) }

/-- The row of a message, unless it is empty or does not parse. -/
def Message.row (m : Message) : Option (Row Score) :=
  match m.value with
  | none | some [] => none
  | some bytes => (parseStrategyMessage parser bytes).map fun strategy => ⟨strategy, m.replies⟩

/-- The rows of a turn, partition by partition. -/
def Turn.rows (turn : Turn) : List (Row Score) :=
  turn.messageBatch.flatten.filterMap (Message.row parser)

/-! ### The service -/

/-- What `StrategyConsumerService` has counted, the batches handed over to it, and what they
have left in the database. -/
structure Service (D Score : Type*) where
  processedCount : ℕ
  batches : ℕ
  durable : List (Statement D Score)

def Service.init : Service D Score := ⟨0, 0, []⟩

variable [Zero Score] (client : Client D) (available : ℕ → Bool)

/-- `_process_strategies`, which keeps every exception to itself: a batch for which there is no
connection is lost. -/
def processStrategies (s : Service D Score) (strategies : List (Row Score)) :
    Service D Score :=
  if available s.batches then
    let outcome := insertStrategies client strategies
    ⟨s.processedCount + outcome.processedCount, s.batches + 1, s.durable ++ outcome.durable⟩
  else { s with batches := s.batches + 1 }

variable (limits : Limits)

/-- One message: those without a row are passed over. -/
def consumeMessage (s : List (Row Score) × Service D Score) (m : Message) :
    List (Row Score) × Service D Score :=
  match m.row parser with
  | none => s
  | some row => take limits.batchSize (processStrategies client available) s row

/-- The messages of one poll, and the batch that is left at the end of it. -/
def consumePoll (s : Service D Score) (turn : Turn) : Service D Score :=
  finish (processStrategies client available)
    (turn.messageBatch.foldl (fun s messages =>
      messages.foldl (consumeMessage parser client available limits) s) ([], s))

/-- The loop of `consume_messages`. -/
def consumeFrom (startTime lastMessageTime : ℚ) (s : Service D Score) :
    List Turn → Service D Score
  | [] => s
  | turn :: rest =>
    if !turn.isRunning then s
    else if limits.maxProcessingTimeSeconds < turn.currentTime - startTime then s
    else if limits.idleTimeoutSeconds < turn.currentTime - lastMessageTime then s
    else if turn.messageBatch = [] then consumeFrom startTime lastMessageTime s rest
    else consumeFrom startTime turn.received (consumePoll parser client available limits s turn)
      rest

def consumeMessages (startTime : ℚ) (turns : List Turn) : Service D Score :=
  consumeFrom parser client available limits startTime startTime .init turns

/-! ### What a run leaves -/

/-- The turns that the loop takes before it ends. -/
def takenFrom (startTime : ℚ) : ℚ → List Turn → List Turn
  | _, [] => []
  | lastMessageTime, turn :: rest =>
    if turn.isRunning ∧ turn.currentTime - startTime ≤ limits.maxProcessingTimeSeconds ∧
        turn.currentTime - lastMessageTime ≤ limits.idleTimeoutSeconds then
      turn :: takenFrom startTime
        (if turn.messageBatch = [] then lastMessageTime else turn.received) rest
    else []

def taken (startTime : ℚ) (turns : List Turn) : List Turn :=
  takenFrom limits startTime startTime turns

/-- The rows that are read, in order. -/
def readRows (startTime : ℚ) (turns : List Turn) : List (Row Score) :=
  (taken limits startTime turns).flatMap (Turn.rows parser)

/-- The batches that are handed over: a poll ends with a batch of its own. -/
def handedOver (startTime : ℚ) (turns : List Turn) : List (List (Row Score)) :=
  (taken limits startTime turns).flatMap fun turn => batches limits.batchSize (turn.rows parser)

theorem consumePoll_eq (s : Service D Score) (turn : Turn) :
    consumePoll parser client available limits s turn =
      (batches limits.batchSize (turn.rows parser)).foldl
        (processStrategies client available) s := by
  rw [consumePoll, ← List.foldl_flatten, batches, ← finish_foldl_take, Turn.rows,
    List.foldl_filterMap]
  congr 2
  funext s m
  rw [consumeMessage]
  cases m.row parser <;> rfl

theorem consumeFrom_eq (startTime lastMessageTime : ℚ) (s : Service D Score)
    (turns : List Turn) :
    consumeFrom parser client available limits startTime lastMessageTime s turns =
      (takenFrom limits startTime lastMessageTime turns).foldl
        (consumePoll parser client available limits) s := by
  induction turns generalizing lastMessageTime s with
  | nil => rfl
  | cons turn rest ih =>
    rw [consumeFrom, takenFrom]
    cases turn.isRunning with
    | false => rfl
    | true =>
      by_cases hmax : limits.maxProcessingTimeSeconds < turn.currentTime - startTime
      · simp [hmax, hmax.not_ge]
      by_cases hidle : limits.idleTimeoutSeconds < turn.currentTime - lastMessageTime
      · simp [hmax, hidle, hidle.not_ge]
      have hturn : true = true ∧
          turn.currentTime - startTime ≤ limits.maxProcessingTimeSeconds ∧
          turn.currentTime - lastMessageTime ≤ limits.idleTimeoutSeconds :=
        ⟨rfl, not_lt.mp hmax, not_lt.mp hidle⟩
      rw [Bool.not_true, if_neg Bool.false_ne_true, if_neg hmax, if_neg hidle, if_pos hturn,
        List.foldl_cons]
      by_cases hnil : turn.messageBatch = []
      · -- a poll without messages changes nothing
        have hpoll : consumePoll parser client available limits s turn = s := by
          rw [consumePoll, hnil]
          rfl
        rw [if_pos hnil, if_pos hnil, hpoll]
        exact ih _ _
      · rw [if_neg hnil, if_neg hnil]
        exact ih _ _

theorem consumeMessages_eq (startTime : ℚ) (turns : List Turn) :
    consumeMessages parser client available limits startTime turns =
      (handedOver parser limits startTime turns).foldl (processStrategies client available)
        .init := by
  rw [consumeMessages, consumeFrom_eq, handedOver, List.foldl_flatMap, taken]
  congr 1
  funext s turn
  exact consumePoll_eq parser client available limits s turn

instance (row : Row Score) : Decidable (row.HasRejection client) := by
  unfold Row.HasRejection
  have : Decidable (prepare client row.strategy ≠ none) :=
    decidable_of_iff _ Option.isSome_iff_ne_none
  infer_instance

/-- What is left of a batch, with its number: all of it, or nothing. -/
def keptRows (batch : List (Row Score) × ℕ) : List (UpsertArgs D Score) :=
  if available batch.2 ∧ ∀ row ∈ batch.1, ¬ row.HasRejection client then
    batch.1.filterMap (Row.accepted client)
  else []

theorem durable_processStrategies (s : Service D Score) (strategies : List (Row Score)) :
    (processStrategies client available s strategies).durable.filterMap
        Statement.strategyRow =
      s.durable.filterMap Statement.strategyRow ++
        keptRows client available (strategies, s.batches) := by
  rw [processStrategies, keptRows]
  by_cases hav : available s.batches = true
  · rw [if_pos hav, List.filterMap_append]
    by_cases hgood : ∀ row ∈ strategies, ¬ row.HasRejection client
    · rw [if_pos ⟨hav, hgood⟩, ← (outcome_of_no_rejection client strategies hgood).1]
      rfl
    · rw [if_neg fun h => hgood h.2]
      push Not at hgood
      have hlost := durableRows_of_rejection client strategies hgood
      rw [Outcome.durableRows] at hlost
      rw [hlost]
  · rw [if_neg hav, if_neg fun h => hav h.1, List.append_nil]

theorem foldl_processStrategies (handed : List (List (Row Score))) :
    (handed.foldl (processStrategies client available) .init).batches = handed.length ∧
      (handed.foldl (processStrategies client available) .init).durable.filterMap
        Statement.strategyRow = handed.zipIdx.flatMap (keptRows client available) := by
  induction handed using List.reverseRecOn with
  | nil => exact ⟨rfl, rfl⟩
  | append_singleton handed batch ih =>
    rw [List.foldl_append, List.foldl_cons, List.foldl_nil]
    constructor
    · rw [List.length_append, List.length_singleton, ← ih.1, processStrategies]
      split_ifs <;> rfl
    · rw [durable_processStrategies, ih.2, ih.1, List.zipIdx_append, List.flatMap_append,
        List.zipIdx_singleton, List.flatMap_singleton, zero_add]

theorem flatMap_keptRows {available : ℕ → Bool} (havailable : ∀ i, available i)
    {handed : List (List (Row Score))}
    (hgood : ∀ row ∈ handed.flatten, ¬ row.HasRejection client) :
    handed.zipIdx.flatMap (keptRows client available) =
      handed.flatten.filterMap (Row.accepted client) := by
  have hkept : ∀ batch ∈ handed.zipIdx,
      keptRows client available batch = batch.1.filterMap (Row.accepted client) := by
    intro batch hbatch
    apply if_pos
    refine ⟨havailable batch.2, fun row hrow => hgood row ?_⟩
    exact List.mem_flatten.mpr ⟨batch.1, List.fst_mem_of_mem_zipIdx hbatch, hrow⟩
  rw [List.flatMap_congr hkept, List.filterMap_flatten, ← List.flatMap_def,
    ← List.flatMap_map Prod.fst, List.zipIdx_map_fst]

/-- What a run has made of the rows that it read. -/
structure Consumes (read : List (Row Score)) (handed : List (List (Row Score)))
    (s : Service D Score) : Prop where
  inOrder : handed.flatten = read
  sizes : ∀ batch ∈ handed, batch.length ≤ max 1 limits.batchSize ∧ batch ≠ []
  durable : s.durable.filterMap Statement.strategyRow =
    handed.zipIdx.flatMap (keptRows client available)

omit [Zero Score] in
theorem flatten_handedOver (startTime : ℚ) (turns : List Turn) :
    (handedOver parser limits startTime turns).flatten =
      readRows parser limits startTime turns := by
  rw [handedOver, readRows]
  induction taken limits startTime turns with
  | nil => rfl
  | cons turn rest ih =>
    rw [List.flatMap_cons, List.flatten_append, flatten_batches, ih, List.flatMap_cons]

theorem durable_consumeMessages (startTime : ℚ) (turns : List Turn) :
    (consumeMessages parser client available limits startTime turns).durable.filterMap
        Statement.strategyRow =
      (handedOver parser limits startTime turns).zipIdx.flatMap (keptRows client available) := by
  rw [consumeMessages_eq]
  exact (foldl_processStrategies client available _).2

/-- Each row that is read is handed over once and in order, in batches of the size allowed, and
of each batch the database has all accepted rows or none. -/
theorem consumeMessages_consumes (startTime : ℚ) (turns : List Turn) :
    Consumes client available limits (readRows parser limits startTime turns)
      (handedOver parser limits startTime turns)
      (consumeMessages parser client available limits startTime turns) where
  inOrder := flatten_handedOver parser limits startTime turns
  sizes := by
    intro batch hbatch
    obtain ⟨turn, -, hmem⟩ := List.mem_flatMap.mp hbatch
    exact length_of_mem_batches limits.batchSize hmem
  durable := durable_consumeMessages parser client available limits startTime turns

/-! ### The table -/

/-- `ON CONFLICT (strategy_hash) DO UPDATE`: only the score is replaced. -/
def strategiesTable (table : Table String (UpsertArgs D Score))
    (rows : List (UpsertArgs D Score)) : Table String (UpsertArgs D Score) :=
  rows.foldl (upsert (·.strategyHash) fun old new =>
    { old with currentScore := new.currentScore }) table

/-- The first of the rows, with the score of the last. -/
def rescored (rows : List (UpsertArgs D Score)) : Option (UpsertArgs D Score) :=
  rows.head?.map fun first =>
    { first with currentScore := (rows.getLast?.getD first).currentScore }

omit [Zero Score] in
theorem foldl_absorb (rows : List (UpsertArgs D Score)) (old : Option (UpsertArgs D Score)) :
    rows.foldl (absorb fun old new => { old with currentScore := new.currentScore }) old =
      rescored (old.toList ++ rows) := by
  induction rows using List.reverseRecOn with
  | nil => cases old <;> rfl
  | append_singleton rows row ih =>
    rw [List.foldl_append, ih, ← List.append_assoc]
    cases hrows : old.toList ++ rows with
    | nil => rfl
    | cons first rest =>
      have hlast : (first :: (rest ++ [row])).getLast? = some row := by
        rw [← List.cons_append, List.getLast?_concat]
      simp [absorb, rescored, hlast]

/-- However the messages come in polls, partitions and batches: where the database takes them
all, a strategy has the row of its first discovery with the score of its last. -/
theorem lookup_strategiesTable (startTime : ℚ) (turns : List Turn)
    (table : Table String (UpsertArgs D Score)) (havailable : ∀ i, available i)
    (hgood : ∀ row ∈ readRows parser limits startTime turns, ¬ row.HasRejection client)
    (hash : String) :
    (strategiesTable table ((consumeMessages parser client available limits startTime
        turns).durable.filterMap Statement.strategyRow)).lookup hash =
      rescored ((table.lookup hash).toList ++
        ((readRows parser limits startTime turns).filterMap (Row.accepted client)).filter
          (·.strategyHash = hash)) := by
  have hall : (handedOver parser limits startTime turns).zipIdx.flatMap
      (keptRows client available) =
        (readRows parser limits startTime turns).filterMap (Row.accepted client) := by
    rw [← flatten_handedOver parser limits startTime turns] at hgood ⊢
    exact flatMap_keptRows client havailable hgood
  rw [durable_consumeMessages, hall, strategiesTable, lookup_foldl_upsert, foldl_absorb]

end

/-- A strategy without parameters of the symbol `B`, with the score 1 and then 2. -/
def scoreOne : List UInt8 := [0x11, 0, 0, 0, 0, 0, 0, 0xf0, 0x3f, 0x1a, 1, 0x42]

def scoreTwo : List UInt8 := [0x11, 0, 0, 0, 0, 0, 0, 0, 0x40, 0x1a, 1, 0x42]

def emptyParser : Parser ℤ where
  fromString bytes :=
    if bytes = scoreOne then some ⟨⟨"", ⟨"", []⟩⟩, 1, "B", ⟨0, 0⟩, ⟨0, 0⟩⟩
    else if bytes = scoreTwo then some ⟨⟨"", ⟨"", []⟩⟩, 2, "B", ⟨0, 0⟩, ⟨0, 0⟩⟩
    else none
  -- the digest of the empty message
  sha256 _ :=
    [0xe3, 0xb0, 0xc4, 0x42, 0x98, 0xfc, 0x1c, 0x14, 0x9a, 0xfb, 0xf4, 0xc8, 0x99, 0x6f,
      0xb9, 0x24, 0x27, 0xae, 0x41, 0xe4, 0x64, 0x9b, 0x93, 0x4c, 0xa4, 0x95, 0x99, 0x1b,
      0x78, 0x52, 0xb8, 0x55]
  timestampToIso ts := if ts = ⟨0, 0⟩ then some "1970-01-01T00:00:00+00:00" else none

/-- A client for which a time is its text. -/
def textClient : Client String := ⟨some, fun text => String.ofList (text.toList.take 19), id⟩

def messageOf (bytes : List UInt8) : Message :=
  ⟨some bytes, .accepted, .accepted, .accepted, some "spec", .accepted⟩

def twoPolls : List Turn :=
  [⟨true, 0, [[messageOf scoreOne]], 1⟩, ⟨true, 1, [[messageOf scoreTwo]], 2⟩]

theorem twoPolls_rescored :
    ((strategiesTable ∅ ((consumeMessages emptyParser textClient (fun _ => true) ⟨100, 60, 300⟩ 0
        twoPolls).durable.filterMap Statement.strategyRow)).lookup
          (strategyHash emptyParser.sha256 ⟨"", []⟩)).map (·.currentScore) = some 2 := by
  have hgood : ∀ row ∈ readRows emptyParser ⟨100, 60, 300⟩ 0 twoPolls,
      ¬ row.HasRejection textClient := by
    decide +kernel
  rw [lookup_strategiesTable emptyParser textClient (fun _ => true) ⟨100, 60, 300⟩ 0 twoPolls ∅
    (fun _ => rfl) hgood]
  decide +kernel

end TradeStream.KafkaConsumer
