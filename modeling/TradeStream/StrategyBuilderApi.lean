import TradeStream.RunSteps
import TradeStream.UserStrategyConfig

/-! The strategy builder's store of user strategies: requests that create and update them. -/
namespace TradeStream.StrategyBuilderApi
open TradeStream.JsonText TradeStream.KeyedTable TradeStream.RunSteps
open TradeStream.UserStrategyConfig

/-- The dict of a backtest's results. -/
abbrev Results := List (String × Json ℚ)

/-- What a strategy says about itself. -/
structure Details where
  name : String
  description : String
  category : String
  tags : List String

/-- A row of `user_strategies`. -/
structure Row where
  userId : String
  details : Details
  columns : Columns
  version : ℤ
  isPublished : Bool
  backtestResults : Option Results

/-- `UpdateStrategyConfigDTO`. -/
structure UpdateBody where
  name : Option String
  description : Option String
  category : Option String
  indicators : Option (List IndicatorConfig)
  entryConditions : Option (List ConditionConfig)
  exitConditions : Option (List ConditionConfig)
  tags : Option (List String)
  version : ℤ

/-- Only what is given is set. -/
def UpdateBody.columns (body : UpdateBody) (old : Columns) : Columns where
  indicators := body.indicators.getD old.indicators
  entryConditions := body.entryConditions.getD old.entryConditions
  exitConditions := body.exitConditions.getD old.exitConditions

def UpdateBody.details (body : UpdateBody) (old : Details) : Details where
  name := body.name.getD old.name
  description := body.description.getD old.description
  category := body.category.getD old.category
  tags := body.tags.getD old.tags

def updatedRow (body : UpdateBody) (row : Row) : Row :=
  { row with
    details := body.details row.details
    columns := body.columns row.columns
    version := row.version + 1 }

/-- The columns of the body. An empty list counts as one that is not given. -/
def UpdateBody.complete (body : UpdateBody) : Option Columns :=
  match body.indicators, body.entryConditions, body.exitConditions with
  | some indicators, some entryConditions, some exitConditions =>
    if indicators = [] ∨ entryConditions = [] ∨ exitConditions = [] then none
    else some ⟨indicators, entryConditions, exitConditions⟩
  | _, _, _ => none

inductive Response where
  | stored (row : Row)
  | validationError (message : String) (details : List ConfigError)
  | valid (errors : List ConfigError)
  | notFound
  | concurrentModification (currentVersion : ℤ)
  | serverError
  | raised

/-- A request, and whether its statements succeed. -/
inductive Request where
  | create (id userId : String) (details : Details) (config : StrategyConfig) (succeeds : Bool)
  | update (id userId : String) (body : UpdateBody) (succeeds : Bool)
  | validate (config : StrategyConfig)

abbrev Db := Table String Row

section
variable (showNumber : ℚ → String)

/-- What a handler goes on with once the config has been validated. -/
def ifValid (config : StrategyConfig) (db : Db) (go : Db × Response) : Db × Response :=
  match validateStrategyConfig showNumber config with
  | none => (db, .raised)
  | some [] => go
  | some errors => (db, .validationError "Strategy config has errors" errors)

def insertStrategy (db : Db) (id userId : String) (details : Details) (config : StrategyConfig)
    (succeeds : Bool) : Db × Response :=
  if succeeds = true ∧ db.lookup id = none then
    let row : Row := ⟨userId, details, config.toColumns, 1, false, none⟩
    (db.insert id row, .stored row)
  else (db, .serverError)

def createStrategy (db : Db) (id userId : String) (details : Details) (config : StrategyConfig)
    (succeeds : Bool) : Db × Response :=
  ifValid showNumber config db (insertStrategy db id userId details config succeeds)

/-- The `UPDATE` with its check of the version, and the query that tells why it found no
row. -/
def updateRow (db : Db) (id userId : String) (body : UpdateBody) (succeeds : Bool) :
    Db × Response :=
  if succeeds = true then
    match db.lookup id with
    | none => (db, .notFound)
    | some row =>
      if row.userId ≠ userId then (db, .notFound)
      else if row.version ≠ body.version then (db, .concurrentModification row.version)
      else (db.insert id (updatedRow body row), .stored (updatedRow body row))
  else (db, .raised)

def updateStrategy (db : Db) (id userId : String) (body : UpdateBody) (succeeds : Bool) :
    Db × Response :=
  match body.complete with
  -- only a body with all three columns is validated
  | none => updateRow db id userId body succeeds
  | some columns =>
    match strategyConfig columns with
    | none => (db, .raised)
    | some config => ifValid showNumber config db (updateRow db id userId body succeeds)

def handle (db : Db) (request : Request) : Db × Response :=
  match request with
  | .create id userId details config succeeds =>
    createStrategy showNumber db id userId details config succeeds
  | .update id userId body succeeds => updateStrategy showNumber db id userId body succeeds
  | .validate config =>
    match validateStrategyConfig showNumber config with
    | none => (db, .raised)
    | some errors => (db, .valid errors)

def next (db : Db) (request : Request) : Db := (handle showNumber db request).1

/-- Every stored strategy passes validation. -/
def AllValid (db : Db) : Prop := ∀ id row, db.lookup id = some row → row.columns.Valid showNumber

/-- The config that a request has validated. -/
def Request.validated : Request → Option StrategyConfig
  | .create _ _ _ config _ => some config
  | .update _ _ body _ => body.complete.bind strategyConfig
  | .validate config => some config

/-- The stored strategies stay valid, and validation returns its errors. -/
def Meets (db : Db) (request : Request) : Prop :=
  AllValid showNumber (next showNumber db request) ∧ ∀ config, request.validated = some config →
    (validateStrategyConfig showNumber config).isSome = true

end

/-- Validated configs have numbers where there are bounds, and an update that goes through
without validation leaves a strategy that is sound. -/
structure SafeRequest (db : Db) (request : Request) : Prop where
  comparable : ∀ config, request.validated = some config →
    ∀ ind ∈ config.indicators, ind.Comparable
  partialUpdate : ∀ id userId body row, request = .update id userId body true →
    body.complete = none → db.lookup id = some row → row.userId = userId →
      row.version = body.version → (body.columns row.columns).Sound

section
variable {showNumber : ℚ → String} {db : Db}

theorem AllValid.insert (h : AllValid showNumber db) (id : String) {row : Row}
    (hrow : row.columns.Valid showNumber) : AllValid showNumber (db.insert id row) := by
  intro id' row' hlookup
  by_cases hid : id' = id
  · subst hid
    rw [AList.lookup_insert, Option.some.injEq] at hlookup
    rwa [← hlookup]
  · rw [AList.lookup_insert_ne hid] at hlookup
    exact h id' row' hlookup

variable (showNumber db) in
theorem fst_ifValid (config : StrategyConfig) (go : Db × Response) :
    (ifValid showNumber config db go).1 = db ∨
      validateStrategyConfig showNumber config = some [] ∧
        (ifValid showNumber config db go).1 = go.1 := by
  unfold ifValid
  split
  · exact .inl rfl
  · next hvalid => exact .inr ⟨hvalid, rfl⟩
  · exact .inl rfl

variable (db) in
theorem fst_updateRow (id userId : String) (body : UpdateBody) (succeeds : Bool) :
    (updateRow db id userId body succeeds).1 = db ∨
      ∃ row, succeeds = true ∧ db.lookup id = some row ∧ row.userId = userId ∧
        row.version = body.version ∧
          (updateRow db id userId body succeeds).1 = db.insert id (updatedRow body row) := by
  unfold updateRow
  split_ifs with hsucceeds
  · cases hlookup : db.lookup id with
    | none => exact .inl rfl
    | some row =>
      simp only
      split_ifs with huser hversion
      · exact .inl rfl
      · exact .inl rfl
      · exact .inr ⟨row, hsucceeds, rfl, not_not.mp huser, not_not.mp hversion, rfl⟩
  · exact .inl rfl

/-- The columns of a complete body are all that is stored. -/
theorem columns_of_complete {body : UpdateBody} {columns : Columns}
    (h : body.complete = some columns) (old : Columns) : body.columns old = columns := by
  unfold UpdateBody.complete at h
  split at h
  · next hindicators hentry hexit =>
    split_ifs at h
    obtain rfl := Option.some.inj h
    simp [UpdateBody.columns, hindicators, hentry, hexit]
  · cases h

theorem allValid_next {request : Request} (h : AllValid showNumber db)
    (hsafe : SafeRequest db request) : AllValid showNumber (next showNumber db request) := by
  cases request with
  | create id userId details config succeeds =>
    simp only [next, handle, createStrategy]
    obtain hsame | ⟨hvalid, hgo⟩ := fst_ifValid showNumber db config
      (insertStrategy db id userId details config succeeds)
    -- either nothing is written, or the config has passed validation
    · rwa [hsame]
    · rw [hgo, insertStrategy]
      split_ifs
      · exact h.insert id ⟨config, strategyConfig_eq_some_iff.mpr rfl, hvalid⟩
      · exact h
  | update id userId body succeeds =>
    simp only [next, handle, updateStrategy]
    cases hcomplete : body.complete with
    | none =>
      simp only
      obtain hsame | ⟨row, rfl, hlookup, huser, hversion, hrow⟩ :=
        fst_updateRow db id userId body succeeds
      · rwa [hsame]
      · rw [hrow]
        have hsound := hsafe.partialUpdate id userId body row rfl hcomplete hlookup huser hversion
        exact h.insert id ((valid_iff_sound showNumber).mpr hsound)
    | some columns =>
      simp only
      cases hconfig : strategyConfig columns with
      | none => exact h
      | some config =>
        simp only
        obtain hsame | ⟨hvalid, hgo⟩ := fst_ifValid showNumber db config
          (updateRow db id userId body succeeds)
        · rwa [hsame]
        · rw [hgo]
          obtain hsame | ⟨row, -, -, -, -, hrow⟩ :=
            fst_updateRow db id userId body succeeds
          · rwa [hsame]
          · rw [hrow]
            -- what was validated is what is stored
            refine h.insert id ⟨config, ?_, hvalid⟩
            rw [updatedRow, columns_of_complete hcomplete, hconfig]
  | validate config =>
    simp only [next, handle]
    cases validateStrategyConfig showNumber config <;> exact h

theorem meets_iff {request : Request} (h : AllValid showNumber db) :
    Meets showNumber db request ↔ SafeRequest db request := by
  constructor
  · rintro ⟨hvalid, hreturns⟩
    refine ⟨?_, ?_⟩
    · intro config hconfig
      exact (isSome_validateStrategyConfig_iff showNumber config).mp (hreturns config hconfig)
    · rintro id userId body row rfl hcomplete hlookup huser hversion
      -- the update has written this row without validating it
      have hrow := hvalid id (updatedRow body row)
      rw [next, handle, updateStrategy, hcomplete] at hrow
      simp only [updateRow, hlookup, huser, hversion, ↓reduceIte, ne_eq, not_true_eq_false] at hrow
      exact (valid_iff_sound showNumber).mp (hrow (AList.lookup_insert db))
  · intro hsafe
    refine ⟨allValid_next h hsafe, ?_⟩
    intro config hconfig
    exact (isSome_validateStrategyConfig_iff showNumber config).mpr (hsafe.comparable config hconfig)

variable (showNumber) in
/-- All stored strategies stay valid and validation never raises, in every sequence of
requests, if and only if every request is safe in the state it finds. -/
theorem meets_run_iff (requests : List Request) :
    (∀ earlier request, earlier ++ [request] <+: requests →
      Meets showNumber (earlier.foldl (next showNumber) ∅) request) ↔
    ∀ earlier request, earlier ++ [request] <+: requests →
      SafeRequest (earlier.foldl (next showNumber) ∅) request := by
  apply forall_prefix_iff (next showNumber) (I := fun _ => True) (P := AllValid showNumber)
  · exact fun _ _ _ => trivial
  · exact fun db request _ h => meets_iff h
  · exact fun db request _ _ hmeets => hmeets.1
  · trivial
  · intro id row hlookup
    cases hlookup

end

theorem rsi_mem_indicatorTypeSet : "RSI" ∈ indicatorTypeSet := by decide

theorem sma_mem_indicatorTypeSet : "SMA" ∈ indicatorTypeSet := by decide

theorem crossedUp_mem_conditionTypeSet : "CrossedUp" ∈ conditionTypeSet := by decide

def rsi (params : Params) : IndicatorConfig :=
  ⟨"rsi", "RSI", "close", params, rsi_mem_indicatorTypeSet⟩

def sma : IndicatorConfig := ⟨"sma", "SMA", "close", ∅, sma_mem_indicatorTypeSet⟩

def crossedUp (indicator : String) : ConditionConfig :=
  ⟨"CrossedUp", some indicator, ∅, crossedUp_mem_conditionTypeSet⟩

def rsiColumns (params : Params) : Columns := ⟨[rsi params], [crossedUp "rsi"], [crossedUp "rsi"]⟩

theorem sized_rsiColumns (params : Params) : (rsiColumns params).Sized := by
  simp [Columns.Sized, rsiColumns, minItems, maxItems]

def rsiConfig (params : Params) : StrategyConfig := ⟨rsiColumns params, sized_rsiColumns params⟩

/-- The period is given as a text. -/
def quotedPeriod : Params := (∅ : Params).insert "period" (.str "14")

def replaceIndicators : UpdateBody := ⟨none, none, none, some [sma], none, none, none, 1⟩

def createRsi : Request := .create "s" "u" ⟨"s", "", "multi_indicator", []⟩ (rsiConfig ∅) true

/-- The conditions that are stored refer to an indicator that the update has removed; and
validation raises at a period that is no number. -/
theorem replaceIndicators_not_valid :
    ¬ AllValid (fun _ => "") ([createRsi, .update "s" "u" replaceIndicators true].foldl
        (next fun _ => "") ∅) ∧
      validateStrategyConfig (fun _ => "") (rsiConfig quotedPeriod) = none := by
  constructor
  · intro h
    have hvalid := h "s" (updatedRow replaceIndicators
      ⟨"u", ⟨"s", "", "multi_indicator", []⟩, (rsiConfig ∅).toColumns, 1, false, none⟩) rfl
    have hsound := (valid_iff_sound _).mp hvalid
    have hresolves := hsound.entry (crossedUp "rsi") (List.mem_singleton_self _)
    -- the condition still refers to what was removed
    have hmem : "rsi" ∈ ["sma"] := hresolves.1 (by decide)
    exact absurd hmem (by decide)
  · rfl

end TradeStream.StrategyBuilderApi
