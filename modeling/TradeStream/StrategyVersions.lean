import TradeStream.JsonText

/-! Versions of a strategy spec. No codec is registered with asyncpg: it returns `jsonb`
columns as their text, and text that is passed for one is parsed as JSON. -/
namespace TradeStream.StrategyVersions
open TradeStream.JsonText

variable {N : Type} (numbers : NumberText N)

/-- The versioned columns of a row of `strategy_specs`. -/
structure SpecRow (N : Type) where
  name : String
  indicators : Json N
  entryConditions : Json N
  exitConditions : Json N
  parameters : Json N
  description : Option String

/-- What asyncpg returns of them. -/
structure SpecRecord where
  name : String
  indicators : String
  entryConditions : String
  exitConditions : String
  parameters : String
  description : Option String

/-- A row of `strategy_versions`, for the one spec. -/
structure VersionRow (N : Type) where
  versionNumber : ℕ
  configSnapshot : Json N
  changeDescription : Option String
  createdBy : Option String

structure Db (N : Type) where
  spec : Option (SpecRow N)
  versions : List (VersionRow N)

def SpecRow.record (row : SpecRow N) : SpecRecord where
  name := row.name
  indicators := jsonbOut numbers row.indicators
  entryConditions := jsonbOut numbers row.entryConditions
  exitConditions := jsonbOut numbers row.exitConditions
  parameters := jsonbOut numbers row.parameters
  description := row.description

def getSpec (db : Db N) : Option SpecRecord := db.spec.map (SpecRow.record numbers)

def textOrNull : Option String → Json N
  | some text => .str text
  | none => .null

/-- `_spec_to_snapshot`. -/
def specToSnapshot (spec : SpecRecord) : Json N :=
  .obj [("name", .str spec.name), ("indicators", .str spec.indicators),
    ("entry_conditions", .str spec.entryConditions), ("exit_conditions", .str spec.exitConditions),
    ("parameters", .str spec.parameters), ("description", textOrNull spec.description)]

/-- `COALESCE(MAX(version_number), 0)`. -/
def maxVersion (versions : List (VersionRow N)) : ℕ :=
  (versions.map VersionRow.versionNumber).foldr max 0

/-- The insert fails without the spec that the row refers to, and where the spec has
that version number already. -/
def insertVersion (db : Db N) (version : VersionRow N) : Option (Db N) :=
  if db.spec.isSome ∧ version.versionNumber ∉ db.versions.map VersionRow.versionNumber then
    some { db with versions := db.versions ++ [version] }
  else none

def versionRow (snapshot : Json N) (nextVersion : ℕ)
    (changeDescription createdBy : Option String) : Option (VersionRow N) :=
  (jsonbIn numbers (dumps numbers snapshot)).map fun configSnapshot =>
    ⟨nextVersion, configSnapshot, changeDescription, createdBy⟩

inductive Response (N : Type) where
  | notFound
  | noFields
  | serverError
  | raised
  | created (version : VersionRow N)

/-- `notFound` stands for the `None` that is returned where there is no spec. -/
def createVersionSnapshot (db : Db N) (changeDescription createdBy : Option String) :
    Response N × Db N :=
  match getSpec numbers db with
  | none => (.notFound, db)
  | some spec =>
    match versionRow numbers (specToSnapshot spec) (maxVersion db.versions + 1) changeDescription
      createdBy with
    | none => (.raised, db)
    | some version =>
      match insertVersion db version with
      | none => (.raised, db)
      | some db => (.created version, db)

/-- `snapshot.get(key)`, for a dictionary. -/
def field (snapshot : List (String × Json N)) (key : String) : Option (Json N) := snapshot.lookup key

/-- The parameter of a `NOT NULL` text column. -/
def textColumn : Option (Json N) → Option String
  | some (.str text) => some text
  | _ => none

/-- The parameter of a text column. -/
def nullableTextColumn : Option (Json N) → Option (Option String)
  | some (.str text) => some (some text)
  | some .null => some none
  | none => some none
  | _ => none

/-- `json.dumps(snapshot.get(key, {}))`, cast to `jsonb`. -/
def jsonColumn (snapshot : List (String × Json N)) (key : String) : Option (Json N) :=
  jsonbIn numbers (dumps numbers ((field snapshot key).getD (.obj [])))

/-- The row that the update of a restore writes, from the snapshot's text. -/
def restoredRow (text : String) : Option (SpecRow N) :=
  match loads numbers text with
  | some (.obj snapshot) => do
    let name ← textColumn (field snapshot "name")
    let indicators ← jsonColumn numbers snapshot "indicators"
    let entryConditions ← jsonColumn numbers snapshot "entry_conditions"
    let exitConditions ← jsonColumn numbers snapshot "exit_conditions"
    let parameters ← jsonColumn numbers snapshot "parameters"
    let description ← nullableTextColumn (field snapshot "description")
    some ⟨name, indicators, entryConditions, exitConditions, parameters, description⟩
  | _ => none

def findVersion (db : Db N) (versionNumber : ℕ) : Option (VersionRow N) :=
  db.versions.find? fun version => version.versionNumber = versionNumber

/-- The description of the version that a restore adds. -/
def restoreDescription (changeDescription : Option String) (versionNumber : ℕ) : String :=
  match changeDescription with
  | some text => if text = "" then "Restored to version " ++ toString versionNumber else text
  | none => "Restored to version " ++ toString versionNumber

def restoreVersion (db : Db N) (versionNumber : ℕ) (changeDescription : Option String) :
    Response N × Db N :=
  match db.spec with
  | none => (.notFound, db)
  | some _ =>
    match findVersion db versionNumber with
    | none => (.notFound, db)
    | some version =>
      match restoredRow numbers (jsonbOut numbers version.configSnapshot) with
      | none => (.raised, db)
      | some row =>
        -- the spec is changed before the new version is recorded
        match createVersionSnapshot numbers { db with spec := some row }
          (some (restoreDescription changeDescription versionNumber)) none with
        | (.notFound, db) => (.serverError, db)
        | result => result

/-- `StrategySpecUpdate`. -/
structure SpecUpdate (N : Type) where
  indicators : Option (List (String × Json N))
  entryConditions : Option (List (String × Json N))
  exitConditions : Option (List (String × Json N))
  parameters : Option (List (String × Json N))
  description : Option String

def SpecUpdate.isEmpty (body : SpecUpdate N) : Bool :=
  body.indicators.isNone && body.entryConditions.isNone && body.exitConditions.isNone &&
    body.parameters.isNone && body.description.isNone

def updatedColumn (old : Json N) : Option (List (String × Json N)) → Option (Json N)
  | none => some old
  | some fields => jsonbIn numbers (dumps numbers (.obj fields))

def updatedRow (row : SpecRow N) (body : SpecUpdate N) : Option (SpecRow N) := do
  let indicators ← updatedColumn numbers row.indicators body.indicators
  let entryConditions ← updatedColumn numbers row.entryConditions body.entryConditions
  let exitConditions ← updatedColumn numbers row.exitConditions body.exitConditions
  let parameters ← updatedColumn numbers row.parameters body.parameters
  some ⟨row.name, indicators, entryConditions, exitConditions, parameters,
    body.description.or row.description⟩

def updateSpec (db : Db N) (body : SpecUpdate N) : Response N × Db N :=
  if body.isEmpty then (.noFields, db)
  else
    match db.spec with
    | none => (.notFound, db)
    | some row =>
      match updatedRow numbers row body with
      | none => (.raised, db)
      | some row =>
        createVersionSnapshot numbers { db with spec := some row } (some "Config updated") none

/-- What may happen to the spec between a snapshot and a restore: the requests of the
service, and any other write to the columns. -/
inductive Edit (N : Type) where
  | create (changeDescription createdBy : Option String)
  | update (body : SpecUpdate N)
  | restore (versionNumber : ℕ) (changeDescription : Option String)
  | write (row : SpecRow N)

def edit (db : Db N) : Edit N → Db N
  | .create changeDescription createdBy =>
    (createVersionSnapshot numbers db changeDescription createdBy).2
  | .update body => (updateSpec numbers db body).2
  | .restore versionNumber changeDescription =>
    (restoreVersion numbers db versionNumber changeDescription).2
  | .write row => { db with spec := some row }

/-- A snapshot's request, the edits after it, and the request that restores it. -/
structure RoundTrip (N : Type) where
  changeDescription : Option String
  createdBy : Option String
  edits : List (Edit N)
  restoreDescription : Option String

/-- The spec after a snapshot, any edits and a restore of the snapshot, where the two
requests succeed. -/
def afterRestore (db : Db N) (trip : RoundTrip N) : Option (SpecRow N) :=
  match createVersionSnapshot numbers db trip.changeDescription trip.createdBy with
  | (.created version, db) =>
    match restoreVersion numbers (trip.edits.foldl (edit numbers) db) version.versionNumber
      trip.restoreDescription with
    | (.created _, db) => db.spec
    | _ => none
  | _ => none

/-- The columns are equal, as JSON values. -/
def SpecRow.SameColumns (row row' : SpecRow N) : Prop :=
  row.name = row'.name ∧ canonical row.indicators = canonical row'.indicators ∧
    canonical row.entryConditions = canonical row'.entryConditions ∧
    canonical row.exitConditions = canonical row'.exitConditions ∧
    canonical row.parameters = canonical row'.parameters ∧ row.description = row'.description

def RestoresColumns (row : SpecRow N) (versions : List (VersionRow N)) (trip : RoundTrip N) : Prop :=
  ∃ restored, afterRestore numbers ⟨some row, versions⟩ trip = some restored ∧
    restored.SameColumns row

/-- The row that a restore of `spec` writes: each JSON column a string that holds the
text of the value. -/
def textRow (spec : SpecRecord) : SpecRow N :=
  ⟨spec.name, .str spec.indicators, .str spec.entryConditions, .str spec.exitConditions,
    .str spec.parameters, spec.description⟩

theorem restoredRow_specToSnapshot (spec : SpecRecord) :
    restoredRow numbers (jsonbOut numbers (canonical (specToSnapshot spec))) =
      some (textRow spec) := by
  obtain ⟨name, indicators, entryConditions, exitConditions, parameters, description⟩ := spec
  simp only [restoredRow, loads_jsonbOut, specToSnapshot, canonical, field, jsonColumn,
    lookup_canonicalFields, jsonbIn_dumps]
  cases description <;>
    simp [canonicalFields, canonical, textOrNull, textColumn, nullableTextColumn, textRow]

theorem le_maxVersion {versions : List (VersionRow N)} {version : VersionRow N}
    (h : version ∈ versions) : version.versionNumber ≤ maxVersion versions :=
  List.le_max_of_le (List.mem_map_of_mem h) le_rfl

theorem insertVersion_next {db : Db N} (hspec : db.spec.isSome = true) {version : VersionRow N}
    (h : version.versionNumber = maxVersion db.versions + 1) :
    insertVersion db version = some { db with versions := db.versions ++ [version] } := by
  have hfree : version.versionNumber ∉ db.versions.map VersionRow.versionNumber := by
    intro hmem
    obtain ⟨other, hother, hnumber⟩ := List.mem_map.mp hmem
    have hle := le_maxVersion hother
    omega
  rw [insertVersion, if_pos ⟨hspec, hfree⟩]

/-- The version that `create_version_snapshot` adds. -/
def nextVersion (row : SpecRow N) (versions : List (VersionRow N))
    (changeDescription createdBy : Option String) : VersionRow N :=
  ⟨maxVersion versions + 1, canonical (specToSnapshot (row.record numbers)), changeDescription,
    createdBy⟩

theorem createVersionSnapshot_some {db : Db N} {row : SpecRow N} (h : db.spec = some row)
    (changeDescription createdBy : Option String) :
    createVersionSnapshot numbers db changeDescription createdBy =
      (.created (nextVersion numbers row db.versions changeDescription createdBy),
        { db with
          versions :=
            db.versions ++ [nextVersion numbers row db.versions changeDescription createdBy] }) := by
  have hinsert := insertVersion_next (show db.spec.isSome = true by rw [h]; rfl)
    (show (nextVersion numbers row db.versions changeDescription createdBy).versionNumber =
      maxVersion db.versions + 1 from rfl)
  simp only [nextVersion] at hinsert
  simp only [createVersionSnapshot, getSpec, h, Option.map_some, versionRow, jsonbIn_dumps, hinsert,
    nextVersion]

/-- The version stays where it is while there is a spec. -/
def Holds (db : Db N) (version : VersionRow N) : Prop :=
  db.spec.isSome = true ∧ findVersion db version.versionNumber = some version

theorem findVersion_append {db : Db N} {n : ℕ} {version : VersionRow N}
    (h : findVersion db n = some version) (spec : Option (SpecRow N))
    (more : List (VersionRow N)) : findVersion ⟨spec, db.versions ++ more⟩ n = some version := by
  rw [findVersion] at h
  rw [findVersion, List.find?_append, h, Option.some_or]

theorem Holds.createVersionSnapshot {db : Db N} {version : VersionRow N} (h : Holds db version)
    (changeDescription createdBy : Option String) :
    Holds (createVersionSnapshot numbers db changeDescription createdBy).2 version := by
  obtain ⟨row, hrow⟩ := Option.isSome_iff_exists.mp h.1
  rw [createVersionSnapshot_some numbers hrow]
  exact ⟨h.1, findVersion_append h.2 _ _⟩

theorem Holds.write {db : Db N} {version : VersionRow N} (h : Holds db version) (row : SpecRow N) :
    Holds { db with spec := some row } version := ⟨rfl, h.2⟩

theorem Holds.updateSpec {db : Db N} {version : VersionRow N} (h : Holds db version)
    (body : SpecUpdate N) : Holds (updateSpec numbers db body).2 version := by
  unfold StrategyVersions.updateSpec
  split
  · exact h
  · split
    · exact h
    · split
      · exact h
      · exact (h.write _).createVersionSnapshot numbers _ _

theorem Holds.restoreVersion {db : Db N} {version : VersionRow N} (h : Holds db version)
    (n : ℕ) (changeDescription : Option String) :
    Holds (restoreVersion numbers db n changeDescription).2 version := by
  unfold StrategyVersions.restoreVersion
  split
  · exact h
  · split
    · exact h
    · split
      · exact h
      · -- the restore adds a version at the end, and removes none
        rw [createVersionSnapshot_some numbers rfl]
        exact ⟨rfl, findVersion_append h.2 _ _⟩

theorem Holds.foldl_edit {db : Db N} {version : VersionRow N} (h : Holds db version)
    (edits : List (Edit N)) : Holds (edits.foldl (edit numbers) db) version := by
  induction edits generalizing db with
  | nil => exact h
  | cons e edits ih =>
    apply ih
    cases e with
    | create changeDescription createdBy => exact h.createVersionSnapshot numbers _ _
    | update body => exact h.updateSpec numbers body
    | restore n changeDescription => exact h.restoreVersion numbers n changeDescription
    | write row => exact h.write row

theorem holds_nextVersion (row : SpecRow N) (versions : List (VersionRow N))
    (changeDescription createdBy : Option String) :
    Holds ⟨some row, versions ++ [nextVersion numbers row versions changeDescription createdBy]⟩
      (nextVersion numbers row versions changeDescription createdBy) := by
  -- the version is the first of its number: it is higher than all before
  have hnone : versions.find? (fun version =>
      version.versionNumber = (nextVersion numbers row versions changeDescription
        createdBy).versionNumber) = none := by
    rw [List.find?_eq_none]
    intro version hmem
    have hle := le_maxVersion hmem
    have hne : version.versionNumber ≠ maxVersion versions + 1 := by omega
    rw [decide_eq_true_eq]
    exact hne
  refine ⟨rfl, ?_⟩
  rw [findVersion, List.find?_append, hnone]
  simp

theorem restoreVersion_of_restoredRow {db : Db N} {version : VersionRow N}
    (h : Holds db version) {row : SpecRow N}
    (hrow : restoredRow numbers (jsonbOut numbers version.configSnapshot) = some row)
    (changeDescription : Option String) :
    let added := nextVersion numbers row db.versions
      (some (restoreDescription changeDescription version.versionNumber)) none
    restoreVersion numbers db version.versionNumber changeDescription =
      (.created added, ⟨some row, db.versions ++ [added]⟩) := by
  obtain ⟨current, hcurrent⟩ := Option.isSome_iff_exists.mp h.1
  simp only [restoreVersion, hcurrent, h.2, hrow]
  rw [createVersionSnapshot_some numbers rfl]

/-- Both requests succeed, and every JSON column comes back as a string. -/
theorem afterRestore_eq (row : SpecRow N) (versions : List (VersionRow N)) (trip : RoundTrip N) :
    afterRestore numbers ⟨some row, versions⟩ trip = some (textRow (row.record numbers)) := by
  have hholds := (holds_nextVersion numbers row versions trip.changeDescription
    trip.createdBy).foldl_edit numbers trip.edits
  have hrestore := restoreVersion_of_restoredRow numbers hholds
    (restoredRow_specToSnapshot numbers (row.record numbers)) trip.restoreDescription
  rw [afterRestore, createVersionSnapshot_some numbers rfl]
  simp only
  rw [hrestore]

theorem canonical_eq_str {v : Json N} {text : String} (h : canonical v = .str text) :
    v = .str text := by
  cases v <;> simp_all [canonical]

/-- No JSON column is restored: its text, as a string, is another value. -/
theorem not_restoresColumns (row : SpecRow N) (versions : List (VersionRow N))
    (trip : RoundTrip N) : ¬ RestoresColumns numbers row versions trip := by
  rintro ⟨restored, hrestored, hsame⟩
  rw [afterRestore_eq, Option.some.injEq] at hrestored
  subst hrestored
  -- one column is enough, and a string that is its own text there is none
  have htext : canonical row.indicators = .str (jsonbOut numbers row.indicators) :=
    hsame.2.1.symm
  have hstr := canonical_eq_str htext
  exact print_str_ne numbers false _ (congrArg (jsonbOut numbers) hstr).symm

def rsiSpec : SpecRow ℤ where
  name := "RSI_OVERSOLD"
  indicators := .obj [("RSI", .num 14)]
  entryConditions := .obj [("RSI_below", .num 30)]
  exitConditions := .obj [("RSI_above", .num 70)]
  parameters := .obj []
  description := none

/-- With no edit in between, the object of indicators is restored as the string of its
text. -/
theorem rsiSpec_not_restoresColumns :
    (afterRestore integerText ⟨some rsiSpec, []⟩ ⟨none, none, [], none⟩).map SpecRow.indicators =
        some (.str "\x7b\"RSI\": 14\x7d") ∧
      ¬ RestoresColumns integerText rsiSpec [] ⟨none, none, [], none⟩ := by
  have htext : jsonbOut integerText rsiSpec.indicators = "\x7b\"RSI\": 14\x7d" := by
    decide +kernel
  constructor
  · rw [afterRestore_eq, ← htext]
    rfl
  · rintro ⟨restored, hrestored, hsame⟩
    rw [afterRestore_eq, Option.some.injEq] at hrestored
    subst hrestored
    simp [textRow, SpecRow.SameColumns, rsiSpec, canonical] at hsame

end TradeStream.StrategyVersions
