import TradeStream.DiscoveredStrategy
import TradeStream.KeyedTable
import TradeStream.StrategyConsumer

/-! The table `Strategies`: its two writers, `PostgresStrategyRepository.saveAll` and
the Kafka consumer, and the reader of its `parameters` column. -/
namespace TradeStream.Discovery
open TradeStream.Transaction TradeStream.StrategyConsumer

/-! ### The `parameters` column -/

/-- The JSON that `StrategyCsvUtil.convertToCsvRow` wraps the parameters in. -/
def wrappedJson (parameters : AnyMessage) : Json :=
  .obj [("base64_data", .str (String.ofList (Base64.encode parameters.toByteArray)))]

/-- `_extract_strategy_parameters` of the Kafka consumer. -/
def extractStrategyParameters (parameters : AnyMessage) : Json :=
  let hex := String.ofList (Hex.encode parameters.value)
  .obj [("protobuf_type", .str parameters.typeUrl), ("protobuf_data", .str hex),
    ("raw_parameters", .obj [("type_url", .str parameters.typeUrl), ("value", .str hex)])]

/-- `JSONObject.getString`; `none` stands for a `JSONException`. -/
def Json.getString (json : Json) (key : String) : Option String :=
  match json with
  | .obj fields =>
    match fields.lookup key with
    | some (.str value) => some value
    | _ => none
  | _ => none

/-- How `mapRowToDiscoveredStrategy` reads the column; `none` where it throws. -/
def readParameters (parametersJson : Json) : Option AnyMessage := do
  let base64 ← Json.getString parametersJson "base64_data"
  let bytes ← Base64.decode base64.toList
  AnyMessage.parseFrom bytes

inductive Writer where
  | csvUtil
  | kafkaConsumer
  deriving DecidableEq

/-- The JSON that a writer stores for the parameters of a message. -/
def Writer.parametersJson : Writer → AnyMessage → Json
  | .csvUtil => wrappedJson
  | .kafkaConsumer => extractStrategyParameters

theorem readParameters_wrappedJson (parameters : AnyMessage) :
    readParameters (wrappedJson parameters) = some parameters := by
  have hfield : Json.getString (wrappedJson parameters) "base64_data" =
      some (String.ofList (Base64.encode parameters.toByteArray)) := rfl
  rw [readParameters, hfield]
  simp [Base64.decode_encode, AnyMessage.parseFrom_toByteArray]

/-- The consumer's fields have other names than the one the reader asks for. -/
theorem readParameters_extractStrategyParameters (parameters : AnyMessage) :
    readParameters (extractStrategyParameters parameters) = none := by
  have hfield : Json.getString (extractStrategyParameters parameters) "base64_data" = none := rfl
  rw [readParameters, hfield]
  rfl

def smaRsiStrategy (symbol : String) : DiscoveredStrategy ℤ :=
  ⟨⟨"SMA_RSI", ⟨"type.googleapis.com/strategies.SmaRsiParameters", [8, 14]⟩⟩, 1, symbol, ⟨0, 0⟩,
    ⟨3600, 0⟩⟩

/-- A row of `Strategies`, without its times. -/
structure StrategyRow (Score : Type*) where
  symbol : String
  strategyType : String
  parameters : Json
  currentScore : Score
  strategyHash : String
  discoverySymbol : String

/-- What hashes and serializes on behalf of the writers. -/
structure Runtime (D : Type*) where
  sha256 : List UInt8 → List UInt8
  timestampToIso : Timestamp → Option String
  client : Client D

variable {D Score : Type*}

/-- The fields of a CSV row, in the columns that `COPY` loads them into. -/
def convertToCsvRow (runtime : Runtime D) (element : DiscoveredStrategy Score) :
    StrategyRow Score where
  symbol := element.symbol
  strategyType := element.strategy.strategyName
  parameters := wrappedJson element.strategy.parameters
  currentScore := element.score
  strategyHash := strategyHash runtime.sha256 element.strategy.parameters
  discoverySymbol := element.symbol

/-- `_parse_strategy_message`, once the message is decoded. -/
def parseStrategyMessage (runtime : Runtime D) (m : DiscoveredStrategy Score) :
    StrategyConsumer.Strategy Score where
  symbol := some m.symbol
  strategyType := some m.strategy.strategyName
  parameters := some (extractStrategyParameters m.strategy.parameters)
  currentScore := some m.score
  strategyHash := some (strategyHash runtime.sha256 m.strategy.parameters)
  discoverySymbol := some m.symbol
  discoveryStartTime := runtime.timestampToIso m.startTime
  discoveryEndTime := runtime.timestampToIso m.endTime

def upsertedRow (args : UpsertArgs D Score) : StrategyRow Score where
  symbol := args.symbol
  strategyType := args.strategyType
  parameters := args.parameters
  currentScore := args.currentScore
  strategyHash := args.strategyHash
  discoverySymbol := args.discoverySymbol

/-- A write: a batch saved by the repository, or one that the consumer inserts. -/
inductive Write (Score : Type*) where
  | saveAll (strategies : List (DiscoveredStrategy Score))
  | insertStrategies (messages : List (DiscoveredStrategy Score))

/-- A database that rejects none of a row's statements on its own. -/
def acceptingReplies : Replies := ⟨.accepted, .accepted, .accepted, some "spec", .accepted⟩

namespace Write

/-- The rows that a write upserts. One `INSERT` cannot update a row twice: a batch of
the repository that repeats a hash fails as a whole. -/
def rows [Zero Score] (runtime : Runtime D) : Write Score → List (StrategyRow Score)
  | .saveAll strategies =>
    let batchData := strategies.map (convertToCsvRow runtime)
    if (batchData.map StrategyRow.strategyHash).Nodup then batchData else []
  | .insertStrategies messages =>
    let strategies := messages.map fun m => ⟨parseStrategyMessage runtime m, acceptingReplies⟩
    (StrategyConsumer.insertStrategies runtime.client strategies).durableRows.map upsertedRow

/-- The strategies that a write has written: none where the whole batch fails, and of
the consumer's those whose times it can parse. -/
def written [Zero Score] (runtime : Runtime D) : Write Score → List (DiscoveredStrategy Score)
  | .saveAll strategies =>
    if (strategies.map fun m => strategyHash runtime.sha256 m.strategy.parameters).Nodup then
      strategies
    else []
  | .insertStrategies messages =>
    messages.filter fun m => (prepare runtime.client (parseStrategyMessage runtime m)).isSome

end Write

/-- `ON CONFLICT (strategy_hash) DO UPDATE SET current_score = EXCLUDED.current_score`. -/
def updateScore (old new : StrategyRow Score) : StrategyRow Score :=
  { old with currentScore := new.currentScore }

/-- The table after some writes, keyed by `strategy_hash`. -/
def strategiesAfter [Zero Score] (runtime : Runtime D) (writes : List (Write Score)) :
    KeyedTable.Table String (StrategyRow Score) :=
  (writes.flatMap (Write.rows runtime)).foldl
    (KeyedTable.upsert StrategyRow.strategyHash updateScore) ∅

/-- What the identity of a row and its score rest on. -/
structure Content (Score : Type*) where
  symbol : String
  strategyType : String
  strategyHash : String
  score : Score

def StrategyRow.content (row : StrategyRow Score) : Content Score :=
  ⟨row.symbol, row.strategyType, row.strategyHash, row.currentScore⟩

def DiscoveredStrategy.content (runtime : Runtime D) (m : DiscoveredStrategy Score) :
    Content Score :=
  ⟨m.symbol, m.strategy.strategyName, strategyHash runtime.sha256 m.strategy.parameters, m.score⟩

def Content.updateScore (old new : Content Score) : Content Score :=
  { old with score := new.score }

theorem accepted_parseStrategyMessage [Zero Score] (runtime : Runtime D)
    (m : DiscoveredStrategy Score) (args : UpsertArgs D Score)
    (h : prepare runtime.client (parseStrategyMessage runtime m) = some args) :
    (upsertedRow args).content = m.content runtime := by
  unfold prepare at h
  split at h
  · cases h
    rfl
  · cases h

theorem Write.rows_content [Zero Score] (runtime : Runtime D) (write : Write Score) :
    (write.rows runtime).map StrategyRow.content =
      (write.written runtime).map (DiscoveredStrategy.content runtime) := by
  cases write with
  | saveAll strategies =>
    simp only [rows, written, List.map_map]
    have hhash : StrategyRow.strategyHash ∘ convertToCsvRow runtime =
        fun m : DiscoveredStrategy Score => strategyHash runtime.sha256 m.strategy.parameters :=
      rfl
    rw [hhash]
    split_ifs
    · rw [List.map_map]
      rfl
    · rfl
  | insertStrategies messages =>
    -- nothing is rejected, so the rows are those whose times can be parsed
    have hgood : ∀ row ∈ messages.map (fun m =>
        (⟨parseStrategyMessage runtime m, acceptingReplies⟩ : Row Score)),
        ¬ row.HasRejection runtime.client := by
      intro row hrow
      obtain ⟨m, _, rfl⟩ := List.mem_map.mp hrow
      simp [Row.HasRejection, acceptingReplies, Replies.V2Rejected]
    simp only [rows, written]
    rw [(outcome_of_no_rejection runtime.client _ hgood).1]
    clear hgood
    induction messages with
    | nil => rfl
    | cons m messages ih =>
      have hacc : (⟨parseStrategyMessage runtime m, acceptingReplies⟩ : Row Score).accepted
          runtime.client = prepare runtime.client (parseStrategyMessage runtime m) := rfl
      rw [List.map_cons, List.filterMap_cons, hacc]
      cases hp : prepare runtime.client (parseStrategyMessage runtime m) with
      | none => simpa [hp] using ih
      | some args =>
        rw [List.filter_cons_of_pos (by simp [hp])]
        simp only [List.map_cons, ih, accepted_parseStrategyMessage runtime m args hp]

/-- The symbol, strategy name and parameters of a discovery. -/
structure Triple where
  symbol : String
  strategyName : String
  parameters : AnyMessage
  deriving DecidableEq

theorem Triple.ext {t t' : Triple} (hsymbol : t.symbol = t'.symbol)
    (hname : t.strategyName = t'.strategyName) (hparams : t.parameters = t'.parameters) :
    t = t' := by
  cases t
  cases t'
  simp_all

def DiscoveredStrategy.triple (m : DiscoveredStrategy Score) : Triple :=
  ⟨m.symbol, m.strategy.strategyName, m.strategy.parameters⟩

/-- The score of the last write of a triple. -/
def lastScore (written : List (DiscoveredStrategy Score)) (t : Triple) : Option Score :=
  (written.filter fun m => m.triple = t).getLast?.map DiscoveredStrategy.score

/-- `row` is the row of the table for a written triple. -/
structure IsRowOf (runtime : Runtime D) (table : KeyedTable.Table String (StrategyRow Score))
    (written : List (DiscoveredStrategy Score)) (t : Triple) (row : StrategyRow Score) : Prop where
  stored : table.lookup row.strategyHash = some row
  symbol : row.symbol = t.symbol
  strategyType : row.strategyType = t.strategyName
  hash : row.strategyHash = strategyHash runtime.sha256 t.parameters
  score : lastScore written t = some row.currentScore

/-- Every triple written has a row of its own, with the score of its last write. -/
def KeepsIdentity [Zero Score] (runtime : Runtime D) (writes : List (Write Score)) : Prop :=
  let written := writes.flatMap (Write.written runtime)
  ∃ rowOf : Triple → StrategyRow Score,
    Set.InjOn rowOf {t | ∃ m ∈ written, m.triple = t} ∧
      ∀ m ∈ written, IsRowOf runtime (strategiesAfter runtime writes) written m.triple
        (rowOf m.triple)

/-- Written strategies with the same parameters agree in symbol and name. -/
def ParametersIdentify (written : List (DiscoveredStrategy Score)) : Prop :=
  ∀ m ∈ written, ∀ m' ∈ written, m.strategy.parameters = m'.strategy.parameters →
    m.triple = m'.triple

/-- The row of a hash: the columns of its first write, the score of its last. -/
theorem strategiesAfter_lookup [Zero Score] (runtime : Runtime D) (writes : List (Write Score))
    (hash : String) (ms : List (DiscoveredStrategy Score))
    (hms : ((writes.flatMap (Write.written runtime)).filter fun m =>
      strategyHash runtime.sha256 m.strategy.parameters = hash) = ms) :
    ((strategiesAfter runtime writes).lookup hash).map StrategyRow.content =
      ms.head?.bind fun first => ms.getLast?.map fun last =>
        (first.content runtime).updateScore (last.content runtime) := by
  have hcontent : (writes.flatMap (Write.rows runtime)).map StrategyRow.content =
      (writes.flatMap (Write.written runtime)).map (DiscoveredStrategy.content runtime) := by
    rw [List.map_flatMap, List.map_flatMap]
    apply List.flatMap_congr
    intro write _
    exact write.rows_content runtime
  -- by content the table is a fold over the strategies written, whoever wrote them
  have hfilter : (((writes.flatMap (Write.written runtime)).map
      (DiscoveredStrategy.content runtime)).filter fun c => c.strategyHash = hash) =
        ms.map (DiscoveredStrategy.content runtime) := by
    rw [List.filter_map, ← hms]
    rfl
  rw [strategiesAfter, KeyedTable.lookup_foldl_upsert_map StrategyRow.strategyHash updateScore
    Content.strategyHash Content.updateScore StrategyRow.content (fun _ => rfl) (fun _ _ => rfl),
    hcontent, KeyedTable.lookup_foldl_upsert_empty Content.strategyHash Content.updateScore
    (fun _ => rfl) (fun _ _ _ => rfl), hfilter, List.head?_map, List.getLast?_map]
  cases ms.head? with
  | none => rfl
  | some first =>
    cases ms.getLast? with
    | none => rfl
    | some last => rfl

/-- Two triples that share their parameters share their row, so only one of them
can have a row of its own. -/
theorem KeepsIdentity.parametersIdentify [Zero Score] {runtime : Runtime D}
    {writes : List (Write Score)} (h : KeepsIdentity runtime writes) :
    ParametersIdentify (writes.flatMap (Write.written runtime)) := by
  obtain ⟨rowOf, _, hrow⟩ := h
  intro m hm m' hm' hparams
  have h1 := hrow m hm
  have h2 := hrow m' hm'
  have hhash : (rowOf m.triple).strategyHash = (rowOf m'.triple).strategyHash := by
    rw [h1.hash, h2.hash]
    exact congrArg (strategyHash runtime.sha256) hparams
  have hsame : rowOf m.triple = rowOf m'.triple := by
    have hstored := h1.stored
    rw [hhash, h2.stored] at hstored
    exact (Option.some.inj hstored).symm
  have hsymbol : m.triple.symbol = m'.triple.symbol := by
    rw [← h1.symbol, ← h2.symbol, hsame]
  have hname : m.triple.strategyName = m'.triple.strategyName := by
    rw [← h1.strategyType, ← h2.strategyType, hsame]
  exact Triple.ext hsymbol hname hparams

theorem exists_row [Zero Score] (runtime : Runtime D) (hsha : Function.Injective runtime.sha256)
    (writes : List (Write Score))
    (h : ParametersIdentify (writes.flatMap (Write.written runtime)))
    (m : DiscoveredStrategy Score) (hm : m ∈ writes.flatMap (Write.written runtime)) :
    ∃ row, (strategiesAfter runtime writes).lookup
        (strategyHash runtime.sha256 m.strategy.parameters) = some row ∧
      IsRowOf runtime (strategiesAfter runtime writes)
        (writes.flatMap (Write.written runtime)) m.triple row := by
  set written := writes.flatMap (Write.written runtime) with hwritten
  set ms := written.filter fun m' => m'.triple = m.triple with hmsdef
  -- The writes with the hash of `m` are the writes of its triple.
  have hfilter : (written.filter fun m' => strategyHash runtime.sha256 m'.strategy.parameters =
      strategyHash runtime.sha256 m.strategy.parameters) = ms := by
    apply List.filter_congr
    intro m' hm'
    rw [decide_eq_decide]
    constructor
    · intro he
      exact h m' hm' m hm (strategyHash_injective hsha he)
    · intro he
      have hparams : m'.strategy.parameters = m.strategy.parameters :=
        congrArg Triple.parameters he
      rw [hparams]
  have hlookup := strategiesAfter_lookup runtime writes _ ms hfilter
  have hne : ms ≠ [] := List.ne_nil_of_mem (List.mem_filter.mpr ⟨hm, by simp⟩)
  have hfirst : ms.head? = some (ms.head hne) := List.head?_eq_some_head hne
  have hlast : ms.getLast? = some (ms.getLast hne) := List.getLast?_eq_some_getLast hne
  have htriple : (ms.head hne).triple = m.triple := by
    have := (List.mem_filter.mp (List.head_mem hne)).2
    simpa using this
  rw [hfirst, hlast, Option.bind_some, Option.map_some] at hlookup
  obtain ⟨row, hrow, hcontent⟩ := Option.map_eq_some_iff.mp hlookup
  have hparams : (ms.head hne).strategy.parameters = m.strategy.parameters :=
    congrArg Triple.parameters htriple
  have hhash : row.strategyHash = strategyHash runtime.sha256 m.strategy.parameters := by
    have hfield := congrArg Content.strategyHash hcontent
    rw [← hparams]
    exact hfield
  refine ⟨row, hrow, ?_⟩
  refine { stored := ?_, symbol := ?_, strategyType := ?_, hash := hhash, score := ?_ }
  · rw [hhash]
    exact hrow
  · exact (congrArg Content.symbol hcontent).trans (congrArg Triple.symbol htriple)
  · exact (congrArg Content.strategyType hcontent).trans (congrArg Triple.strategyName htriple)
  · rw [lastScore, ← hmsdef, hlast, Option.map_some]
    exact congrArg some (congrArg Content.score hcontent).symm

/-- The row that the table has for the parameters of a triple, if any. -/
def rowOf [Zero Score] (runtime : Runtime D) (writes : List (Write Score)) (t : Triple) :
    StrategyRow Score :=
  ((strategiesAfter runtime writes).lookup
    (strategyHash runtime.sha256 t.parameters)).getD ⟨"", "", .null, 0, "", ""⟩

/-- The SHA-256 digest of the serialized parameters of `smaRsiStrategy`. -/
def smaRsiDigest : List UInt8 :=
  [28, 163, 63, 238, 120, 203, 25, 165, 132, 239, 147, 17, 145, 203, 70, 35, 254, 146, 135, 157,
    188, 202, 131, 95, 253, 215, 246, 181, 118, 1, 200, 63]

/-- An injective function that has the right digest for these parameters. Times are
represented by their ISO texts. -/
def smaRsiRuntime : Runtime String where
  sha256 := Equiv.swap (smaRsiStrategy "BTC/USD").strategy.parameters.toByteArray smaRsiDigest
  timestampToIso := fun _ => none
  client := plainClient

end TradeStream.Discovery
