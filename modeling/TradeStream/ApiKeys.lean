import TradeStream.Interleaving
import TradeStream.SlidingLog

/-! `api_key_api`: keys are issued and revoked while requests with keys come in, a statement at a
time. The middleware reads the keys in one statement, judges the key that it is given, and
counts the request in another. -/
namespace TradeStream.ApiKeys
open TradeStream.Interleaving TradeStream.SlidingLog

def livePrefix : List Char := "ts_live_".toList

def testPrefix : List Char := "ts_test_".toList

inductive Environment where
  | live
  | test

structure CreateApiKeyRequest where
  name : String
  permissions : List String
  expiresAt : Option String
  environment : Environment
  rateLimitPerMinute : ℤ

/-- A row of `api_keys`. The times of creation and of the last use are left out. -/
structure KeyRow where
  id : String
  name : String
  keyPrefix : List Char
  keyHash : List Char
  permissions : List String
  expiresAt : Option ℤ
  isRevoked : Bool := false
  requestCount : ℕ := 0
  rateLimitPerMinute : ℤ
  deriving DecidableEq

/-- `secrets.token_hex(16)`, which has no dollar sign. -/
structure Salt where
  text : List Char
  plain : '$' ∉ text

/-- A `SELECT` without `ORDER BY` returns the rows in any order. -/
structure Scan where
  rows : List KeyRow → List KeyRow
  perm : ∀ keys, (rows keys).Perm keys

structure Service where
  sha256 : List Char → List Char
  fromIsoformat : String → Option ℤ

/-- The constraints of the fields. -/
def CreateApiKeyRequest.valid (body : CreateApiKeyRequest) : Bool :=
  1 ≤ body.name.length && body.name.length ≤ 255 && body.permissions ≠ [] &&
    1 ≤ body.rateLimitPerMinute && body.rateLimitPerMinute ≤ 10000

def hashKey (service : Service) (key salt : List Char) : List Char :=
  service.sha256 (salt ++ ':' :: key)

def Environment.start : Environment → List Char
  | .live => livePrefix
  | .test => testPrefix

/-- The key, its prefix, and the hash that is stored. -/
def generateApiKey (service : Service) (environment : Environment) (randomPart : List Char)
    (salt : Salt) : List Char × List Char × List Char :=
  let fullKey := environment.start ++ randomPart
  (fullKey, environment.start, salt.text ++ '$' :: hashKey service fullKey salt.text)

def verifyApiKey (service : Service) (providedKey storedHash : List Char) : Bool :=
  if '$' ∈ storedHash then
    hashKey service providedKey (storedHash.takeWhile (· ≠ '$')) =
      (storedHash.dropWhile (· ≠ '$')).tail
  else false

def prefixOf (apiKey : List Char) : Option (List Char) :=
  [livePrefix, testPrefix].find? (·.isPrefixOf apiKey)

def healthPaths : List String := ["/health", "/ready", "/api/health"]

inductive Request where
  | create (body : CreateApiKeyRequest)
  | revoke (keyId : String)
  | call (path : String) (apiKey : Option (List Char))

/-- What the middleware answers itself. -/
inductive Refusal where
  | missing
  | format
  | unavailable
  | invalid
  | expired
  | limited
  deriving DecidableEq

def Refusal.content : Refusal → ℕ × String × String
  | .missing => (401, "UNAUTHORIZED", "Missing API key")
  | .format => (401, "UNAUTHORIZED", "Invalid API key format")
  | .unavailable => (500, "SERVER_ERROR", "Internal server error")
  | .invalid => (401, "UNAUTHORIZED", "Invalid API key")
  | .expired => (401, "UNAUTHORIZED", "API key has expired")
  | .limited => (429, "RATE_LIMITED", "Rate limit exceeded")

inductive Answer where
  | unprocessable
  | validationError (message : String)
  | serverError
  | created (key : List Char) (row : KeyRow)
  | revoked
  | notFound (keyId : String)
  /-- The next handler, with the id and the permissions of the key. -/
  | passed (key : Option (String × List String))
  | refused (refusal : Refusal)
  deriving DecidableEq

/-- What a request does next. -/
inductive Phase where
  | arrived
  | found (rows : List KeyRow)
  | counting (row : KeyRow)
  | ended (answer : Answer)
  deriving DecidableEq

/-- What a turn finds: whether the statement succeeds and in which order it returns rows, the
time, and what is drawn for a new key. -/
structure Input where
  succeeds : Bool
  scan : Scan
  now : ℤ
  monotonic : ℚ
  newId : String
  randomPart : List Char
  salt : Salt

/-- What has happened. -/
inductive Entry (ι : Type*) where
  | issued (key : List Char) (row : KeyRow)
  | revoked (keyId : String)
  | lookedUp (i : ι)
  | admitted (i : ι) (keyId : String) (now : ℤ) (monotonic : ℚ)
  | counted (i : ι) (keyId : String)
  deriving DecidableEq

/-- The table, the windows of the rate limiter, and what has happened, which observes only. -/
structure Db (ι : Type*) where
  keys : List KeyRow := []
  windows : String → List ℚ := fun _ => []
  log : List (Entry ι) := []

variable {ι : Type*}

def KeyRow.Expired (row : KeyRow) (now : ℤ) : Prop := ∃ expiresAt ∈ row.expiresAt, expiresAt < now

instance (row : KeyRow) (now : ℤ) : Decidable (row.Expired now) :=
  inferInstanceAs (Decidable (∃ expiresAt ∈ row.expiresAt, expiresAt < now))

/-- `if body.expires_at` passes over an empty text. -/
def parseExpiry (service : Service) : Option String → Option (Option ℤ)
  | none => some none
  | some text => if text = "" then some none else (service.fromIsoformat text).map some

def createApiKey (service : Service) (body : CreateApiKeyRequest) (input : Input) (db : Db ι) :
    Db ι × Answer :=
  if !body.valid then (db, .unprocessable)
  else
    let (fullKey, keyPrefix, keyHash) :=
      generateApiKey service body.environment input.randomPart input.salt
    match parseExpiry service body.expiresAt with
    | none => (db, .validationError "Invalid expires_at format. Use ISO format.")
    | some expiresAt =>
      -- the id is the primary key
      if input.succeeds && db.keys.all (·.id ≠ input.newId) then
        let row : KeyRow :=
          { id := input.newId, name := body.name, keyPrefix := keyPrefix, keyHash := keyHash
            permissions := body.permissions, expiresAt := expiresAt
            rateLimitPerMinute := body.rateLimitPerMinute }
        ({ db with keys := db.keys ++ [row], log := db.log ++ [.issued fullKey row] },
          .created fullKey row)
      else (db, .serverError)

def updateKeys (keys : List KeyRow) (keyId : String) (set : KeyRow → KeyRow) : List KeyRow :=
  keys.map fun row => if row.id = keyId then set row else row

def revokeApiKey (keyId : String) (input : Input) (db : Db ι) : Db ι × Answer :=
  if !input.succeeds then (db, .serverError)
  else if db.keys.any fun row => row.id = keyId && !row.isRevoked then
    ({ db with
      keys := updateKeys db.keys keyId fun row => { row with isRevoked := true }
      log := db.log ++ [.revoked keyId] }, .revoked)
  else (db, .notFound keyId)

/-- `dispatch`, up to the rows that may match. -/
def lookUp (i : ι) (path : String) (apiKey : Option (List Char)) (input : Input) (db : Db ι) :
    Db ι × Phase :=
  if path ∈ healthPaths then (db, .ended (.passed none))
  else
    let apiKey := apiKey.getD []
    if apiKey = [] then (db, .ended (.refused .missing))
    else
      match prefixOf apiKey with
      | none => (db, .ended (.refused .format))
      | some keyPrefix =>
        if input.succeeds then
          ({ db with log := db.log ++ [.lookedUp i] },
            .found (input.scan.rows
              (db.keys.filter fun row => row.keyPrefix = keyPrefix && !row.isRevoked)))
        else (db, .ended (.refused .unavailable))

/-- From there to the statement that counts the request. -/
def judge (service : Service) (i : ι) (apiKey : Option (List Char)) (rows : List KeyRow)
    (input : Input) (db : Db ι) : Db ι × Phase :=
  match rows.find? fun row => verifyApiKey service (apiKey.getD []) row.keyHash with
  | none => (db, .ended (.refused .invalid))
  | some row =>
    if row.Expired input.now then (db, .ended (.refused .expired))
    else
      let window := db.windows row.id
      let limit := row.rateLimitPerMinute.toNat
      let db := { db with
        windows := Function.update db.windows row.id (request 60 limit window input.monotonic) }
      if admits 60 limit window input.monotonic then
        ({ db with log := db.log ++ [.admitted i row.id input.now input.monotonic] },
          .counting row)
      else (db, .ended (.refused .limited))

/-- The request is let through also if it cannot be counted. -/
def count (i : ι) (row : KeyRow) (input : Input) (db : Db ι) : Db ι × Phase :=
  (if input.succeeds then
    { db with
      keys := updateKeys db.keys row.id fun row => { row with requestCount := row.requestCount + 1 }
      log := db.log ++ [.counted i row.id] }
  else db, .ended (.passed (some (row.id, row.permissions))))

def execute (service : Service) (requests : ι → Request) (i : ι) (input : Input) (db : Db ι)
    (phase : Phase) : Db ι × Phase :=
  match requests i, phase with
  | .create body, .arrived =>
    let (db, answer) := createApiKey service body input db
    (db, .ended answer)
  | .revoke keyId, .arrived =>
    let (db, answer) := revokeApiKey keyId input db
    (db, .ended answer)
  | .call path apiKey, .arrived => lookUp i path apiKey input db
  | .call _ apiKey, .found rows => judge service i apiKey rows input db
  | .call _ _, .counting row => count i row input db
  | _, phase => (db, phase)

section
variable [DecidableEq ι] (service : Service) (requests : ι → Request)

def run (turns : List (Turn ι Input)) : World ι (Db ι) Phase :=
  turns.foldl (World.step (execute service requests)) ⟨{}, fun _ => .arrived⟩

end

/-! ### The table is what the log leaves -/

def Entry.row : Entry ι → Option KeyRow
  | .issued _ row => some row
  | _ => none

def Entry.key : Entry ι → Option (List Char)
  | .issued key _ => some key
  | _ => none

def Entry.revokes (keyId : String) : Entry ι → Bool
  | .revoked id => id = keyId
  | _ => false

def Entry.counts (keyId : String) : Entry ι → Bool
  | .counted _ id => id = keyId
  | _ => false

def issuedRows (log : List (Entry ι)) : List KeyRow := log.filterMap Entry.row

/-- A row as it was issued, with what has happened to it since. -/
def current (log : List (Entry ι)) (row : KeyRow) : KeyRow :=
  { row with isRevoked := log.any (Entry.revokes row.id)
             requestCount := log.countP (Entry.counts row.id) }

def tableOf (log : List (Entry ι)) : List KeyRow := (issuedRows log).map (current log)

/-- The hash that is stored is that of the key that was handed out. -/
def Genuine (service : Service) (key : List Char) (row : KeyRow) : Prop :=
  ∃ environment randomPart salt,
    generateApiKey service environment randomPart salt = (key, row.keyPrefix, row.keyHash)

structure Inv (service : Service) (db : Db ι) : Prop where
  table : db.keys = tableOf db.log
  ids : ((issuedRows db.log).map KeyRow.id).Nodup
  known : ∀ entry ∈ db.log, ∀ keyId, entry.revokes keyId ∨ entry.counts keyId →
    keyId ∈ (issuedRows db.log).map KeyRow.id
  genuine : ∀ key row, Entry.issued key row ∈ db.log → Genuine service key row

theorem issuedRows_concat (log : List (Entry ι)) (entry : Entry ι) :
    issuedRows (log ++ [entry]) = issuedRows log ++ entry.row.toList := by
  rw [issuedRows, List.filterMap_append]
  cases h : entry.row <;> simp [issuedRows, h]

theorem current_concat (log : List (Entry ι)) (entry : Entry ι) (row : KeyRow) :
    current (log ++ [entry]) row =
      { current log row with
        isRevoked := (current log row).isRevoked || entry.revokes row.id
        requestCount := (current log row).requestCount + (entry.counts row.id).toNat } := by
  cases h : entry.counts row.id <;> simp [current, h]

/-- An entry that issues no key changes the rows alike. -/
theorem tableOf_concat {log : List (Entry ι)} {entry : Entry ι} (h : entry.row = none) :
    tableOf (log ++ [entry]) = (tableOf log).map fun row =>
      { row with
        isRevoked := row.isRevoked || entry.revokes row.id
        requestCount := row.requestCount + (entry.counts row.id).toNat } := by
  rw [tableOf, tableOf, issuedRows_concat, h, Option.toList_none, List.append_nil, List.map_map]
  apply List.map_congr_left
  intro row _
  rw [current_concat]
  rfl

theorem mem_tableOf_id {log : List (Entry ι)} {row : KeyRow} (h : row ∈ tableOf log) :
    row.id ∈ (issuedRows log).map KeyRow.id := by
  obtain ⟨issued, hissued, rfl⟩ := List.mem_map.mp h
  exact List.mem_map.mpr ⟨issued, hissued, rfl⟩

theorem map_id_tableOf (log : List (Entry ι)) :
    (tableOf log).map KeyRow.id = (issuedRows log).map KeyRow.id := by
  rw [tableOf, List.map_map]
  rfl

section
variable {service : Service} {db : Db ι}

/-- What issues no key keeps the invariant, if it is about a key that was issued. -/
theorem Inv.concat (h : Inv service db) {entry : Entry ι} (hrow : entry.row = none)
    (hknown : ∀ keyId, entry.revokes keyId ∨ entry.counts keyId →
      keyId ∈ (issuedRows db.log).map KeyRow.id)
    {keys : List KeyRow} (hkeys : keys = db.keys.map fun row =>
      { row with
        isRevoked := row.isRevoked || entry.revokes row.id
        requestCount := row.requestCount + (entry.counts row.id).toNat })
    (windows : String → List ℚ) : Inv service ⟨keys, windows, db.log ++ [entry]⟩ := by
  have hrows : issuedRows (db.log ++ [entry]) = issuedRows db.log := by
    rw [issuedRows_concat, hrow, Option.toList_none, List.append_nil]
  refine ⟨?_, ?_, ?_, ?_⟩
  · rw [hkeys, h.table, tableOf_concat hrow]
  · rw [hrows]
    exact h.ids
  · rw [hrows]
    intro other hmem
    rcases List.mem_append.mp hmem with hold | hnew
    · exact h.known other hold
    · rw [List.mem_singleton.mp hnew]
      exact hknown
  · intro key row hmem
    rcases List.mem_append.mp hmem with hold | hnew
    · exact h.genuine key row hold
    · rw [← List.mem_singleton.mp hnew] at hrow
      cases hrow

theorem Inv.issue (h : Inv service db) {key : List Char} {row : KeyRow}
    (hgenuine : Genuine service key row) (hnew : row.isRevoked = false ∧ row.requestCount = 0)
    (hfresh : row.id ∉ (issuedRows db.log).map KeyRow.id) :
    Inv service { db with keys := db.keys ++ [row], log := db.log ++ [.issued key row] } := by
  have hrows : issuedRows (db.log ++ [.issued key row]) = issuedRows db.log ++ [row] :=
    issuedRows_concat db.log _
  have hcurrent : ∀ old, current (db.log ++ [.issued key row]) old = current db.log old := by
    intro old
    rw [current_concat]
    simp [Entry.revokes, Entry.counts]
  refine ⟨?_, ?_, ?_, ?_⟩
  · have hsame : current db.log row = row := by
      have hrevoked : db.log.any (Entry.revokes row.id) = false := by
        rw [List.any_eq_false]
        exact fun entry hentry hrevokes => hfresh (h.known entry hentry row.id (Or.inl hrevokes))
      have hcount : db.log.countP (Entry.counts row.id) = 0 := by
        rw [List.countP_eq_zero]
        exact fun entry hentry hcounts => hfresh (h.known entry hentry row.id (Or.inr hcounts))
      rw [current, hrevoked, hcount, ← hnew.1, ← hnew.2]
    rw [tableOf, hrows, List.map_append, List.map_singleton, hcurrent, hsame, h.table, tableOf,
      List.map_congr_left fun old _ => (hcurrent old).symm]
  · rw [hrows, List.map_append]
    exact h.ids.append (List.nodup_singleton _) (List.disjoint_singleton.mpr hfresh)
  · rw [hrows, List.map_append]
    intro entry hmem keyId habout
    rcases List.mem_append.mp hmem with hold | hentry
    · exact List.mem_append_left _ (h.known entry hold keyId habout)
    · rw [List.mem_singleton.mp hentry] at habout
      simp [Entry.revokes, Entry.counts] at habout
  · intro other row' hmem
    rcases List.mem_append.mp hmem with hold | hentry
    · exact h.genuine other row' hold
    · cases List.mem_singleton.mp hentry
      exact hgenuine

theorem map_updateKeys (keys : List KeyRow) (keyId : String) (set : KeyRow → KeyRow)
    {change : KeyRow → KeyRow} (hset : ∀ row, row.id = keyId → change row = set row)
    (hkeep : ∀ row, row.id ≠ keyId → change row = row) :
    updateKeys keys keyId set = keys.map change := by
  apply List.map_congr_left
  intro row _
  split_ifs with heq
  · exact (hset row heq).symm
  · exact (hkeep row heq).symm

theorem inv_createApiKey (h : Inv service db) (body : CreateApiKeyRequest) (input : Input) :
    Inv service (createApiKey service body input db).1 := by
  rw [createApiKey]
  split_ifs with hinvalid hsucceeds
  · exact h
  · dsimp only
    cases parseExpiry service body.expiresAt with
    | none => exact h
    | some expiresAt =>
      refine h.issue ⟨body.environment, input.randomPart, input.salt, rfl⟩ ⟨rfl, rfl⟩ ?_
      rw [Bool.and_eq_true, h.table, List.all_eq_true] at hsucceeds
      rw [← map_id_tableOf, List.mem_map]
      rintro ⟨row, hrow, hid⟩
      exact of_decide_eq_true (hsucceeds.2 row hrow) hid
  · dsimp only
    cases parseExpiry service body.expiresAt <;> exact h

theorem inv_revokeApiKey (h : Inv service db) (keyId : String) (input : Input) :
    Inv service (revokeApiKey keyId input db).1 := by
  rw [revokeApiKey]
  split_ifs with hfails hany
  · exact h
  · obtain ⟨row, hrow, hlive⟩ := List.any_eq_true.mp hany
    rw [Bool.and_eq_true, decide_eq_true_iff] at hlive
    refine h.concat rfl ?_ (map_updateKeys db.keys keyId _ ?_ ?_) db.windows
    · intro other hrevokes
      have heq : keyId = other := by simpa [Entry.revokes, Entry.counts] using hrevokes
      rw [← heq, ← hlive.1]
      exact mem_tableOf_id (h.table ▸ hrow)
    · intro row hid
      simp [Entry.revokes, Entry.counts, hid]
    · intro row hid
      simp [Entry.revokes, Entry.counts, Ne.symm hid]
  · exact h

theorem inv_count (h : Inv service db) (i : ι) {row : KeyRow}
    (hrow : row.id ∈ (issuedRows db.log).map KeyRow.id) (input : Input) :
    Inv service (count i row input db).1 := by
  rw [count]
  dsimp only
  split_ifs
  · refine h.concat rfl ?_ (map_updateKeys db.keys row.id _ ?_ ?_) db.windows
    · intro other hcounts
      have heq : row.id = other := by simpa [Entry.revokes, Entry.counts] using hcounts
      exact heq ▸ hrow
    · intro old hid
      simp [Entry.revokes, Entry.counts, hid]
    · intro old hid
      simp [Entry.revokes, Entry.counts, Ne.symm hid]
  · exact h

/-- What is neither about a key nor issues one. -/
theorem Inv.observe (h : Inv service db) {entry : Entry ι} (hrow : entry.row = none)
    (habout : ∀ keyId, entry.revokes keyId = false ∧ entry.counts keyId = false)
    (windows : String → List ℚ) : Inv service ⟨db.keys, windows, db.log ++ [entry]⟩ := by
  refine h.concat hrow (fun keyId hknown => ?_) ?_ windows
  · rw [(habout keyId).1, (habout keyId).2] at hknown
    simp at hknown
  · simp [habout]

end

/-! ### Who is let through -/

/-- The keys were read for the request when this had happened. -/
def LookedUp (log : List (Entry ι)) (i : ι) (before : List (Entry ι)) : Prop :=
  before ++ [.lookedUp i] <+: log

/-- The key has been issued with this row and not been revoked. -/
def Live (log : List (Entry ι)) (key : List Char) (row : KeyRow) : Prop :=
  .issued key row ∈ log ∧ .revoked row.id ∉ log

section
variable (opens : List Char → List Char → KeyRow → Prop)

/-- A key that was live when the keys were read, and that the given key opens. -/
def Uses (log : List (Entry ι)) (i : ι) (key : List Char) (row : KeyRow) : Prop :=
  ∃ before issued, LookedUp log i before ∧ Live before issued row ∧ opens key issued row

/-- What the middleware may answer to a request. -/
def Judged (log : List (Entry ι)) (i : ι) (path : String) (key : List Char) : Answer → Prop
  | .passed none => path ∈ healthPaths
  | .passed (some (keyId, permissions)) =>
    ∃ row now monotonic, Uses opens log i key row ∧ row.id = keyId ∧
      row.permissions = permissions ∧ ¬ row.Expired now ∧ .admitted i keyId now monotonic ∈ log
  | .refused .missing => key = []
  | .refused .format => prefixOf key = none
  | .refused .unavailable => True
  | .refused .invalid =>
    ∃ before, LookedUp log i before ∧ ∀ issued row, Live before issued row → ¬ opens key issued row
  | .refused .expired => ∃ row now, Uses opens log i key row ∧ row.Expired now
  | .refused .limited => ∃ row, Uses opens log i key row
  | _ => False

/-- What a request knows of the log. -/
def Stands (log : List (Entry ι)) (i : ι) (path : String) (key : List Char) : Phase → Prop
  | .arrived => True
  | .found rows =>
    ∃ before keyPrefix, LookedUp log i before ∧ prefixOf key = some keyPrefix ∧
      rows.Perm
        ((tableOf before).filter fun row => row.keyPrefix = keyPrefix && !row.isRevoked)
  | .counting row => Judged opens log i path key (.passed (some (row.id, row.permissions)))
  | .ended answer => Judged opens log i path key answer

variable {opens} {log more : List (Entry ι)} {i : ι} {path : String} {key : List Char}

theorem Uses.mono {row : KeyRow} (h : Uses opens log i key row) (hlog : log <+: more) :
    Uses opens more i key row := by
  obtain ⟨before, issued, hlooked, hlive⟩ := h
  exact ⟨before, issued, hlooked.trans hlog, hlive⟩

theorem Judged.mono {answer : Answer} (h : Judged opens log i path key answer)
    (hlog : log <+: more) : Judged opens more i path key answer := by
  cases answer with
  | passed found =>
    cases found with
    | none => exact h
    | some found =>
      obtain ⟨row, now, monotonic, huses, hid, hpermissions, hexpired, hadmitted⟩ := h
      exact ⟨row, now, monotonic, huses.mono hlog, hid, hpermissions, hexpired,
        hlog.subset hadmitted⟩
  | refused refusal =>
    cases refusal with
    | missing => exact h
    | format => exact h
    | unavailable => exact h
    | invalid =>
      obtain ⟨before, hlooked, hnone⟩ := h
      exact ⟨before, hlooked.trans hlog, hnone⟩
    | expired =>
      obtain ⟨row, now, huses, hexpired⟩ := h
      exact ⟨row, now, huses.mono hlog, hexpired⟩
    | limited =>
      obtain ⟨row, huses⟩ := h
      exact ⟨row, huses.mono hlog⟩
  | _ => exact h

theorem Stands.mono {phase : Phase} (h : Stands opens log i path key phase)
    (hlog : log <+: more) : Stands opens more i path key phase := by
  cases phase with
  | arrived => trivial
  | found rows =>
    obtain ⟨before, keyPrefix, hlooked, hprefix, hrows⟩ := h
    exact ⟨before, keyPrefix, hlooked.trans hlog, hprefix, hrows⟩
  | counting row =>
    have hpassed : Judged opens log i path key (.passed (some (row.id, row.permissions))) := h
    exact hpassed.mono hlog
  | ended answer => exact Judged.mono h hlog

end

/-- The key is compared with the rows of its own prefix. -/
def Opens (service : Service) (key _issued : List Char) (row : KeyRow) : Prop :=
  prefixOf key = some row.keyPrefix ∧ verifyApiKey service key row.keyHash = true

theorem any_revokes_iff (log : List (Entry ι)) (keyId : String) :
    log.any (Entry.revokes keyId) = true ↔ .revoked keyId ∈ log := by
  rw [List.any_eq_true]
  constructor
  · rintro ⟨entry, hentry, hrevokes⟩
    cases entry with
    | revoked id =>
      have hid : id = keyId := of_decide_eq_true hrevokes
      exact hid ▸ hentry
    | _ => cases hrevokes
  · exact fun hmem => ⟨_, hmem, decide_eq_true rfl⟩

theorem mem_issuedRows_iff {log : List (Entry ι)} {row : KeyRow} :
    row ∈ issuedRows log ↔ ∃ key, .issued key row ∈ log := by
  rw [issuedRows, List.mem_filterMap]
  constructor
  · rintro ⟨entry, hentry, hrow⟩
    cases entry with
    | issued key other =>
      cases hrow
      exact ⟨key, hentry⟩
    | _ => cases hrow
  · rintro ⟨key, hentry⟩
    exact ⟨_, hentry, rfl⟩

/-- The rows that a request reads are those of the live keys. -/
theorem mem_filter_tableOf_iff {log : List (Entry ι)} {keyPrefix : List Char} {row : KeyRow} :
    row ∈ (tableOf log).filter (fun row => row.keyPrefix = keyPrefix && !row.isRevoked) ↔
      ∃ key issued, Live log key issued ∧ issued.keyPrefix = keyPrefix ∧
        row = current log issued := by
  rw [List.mem_filter, tableOf, List.mem_map, Bool.and_eq_true, decide_eq_true_iff,
    Bool.not_eq_true']
  constructor
  · rintro ⟨⟨issued, hissued, rfl⟩, hprefix, hlive⟩
    obtain ⟨key, hkey⟩ := mem_issuedRows_iff.mp hissued
    refine ⟨key, issued, ⟨hkey, fun hrevoked => ?_⟩, hprefix, rfl⟩
    exact Bool.eq_false_iff.mp hlive ((any_revokes_iff log issued.id).mpr hrevoked)
  · rintro ⟨key, issued, ⟨hkey, hlive⟩, hprefix, rfl⟩
    refine ⟨⟨issued, mem_issuedRows_iff.mpr ⟨key, hkey⟩, rfl⟩, hprefix, ?_⟩
    exact Bool.eq_false_iff.mpr fun hrevoked => hlive ((any_revokes_iff log issued.id).mp hrevoked)

section
variable {service : Service} {db : Db ι} {i : ι} {path : String}

theorem stands_lookUp (h : Inv service db) (apiKey : Option (List Char)) (input : Input) :
    Stands (Opens service) (lookUp i path apiKey input db).1.log i path (apiKey.getD [])
      (lookUp i path apiKey input db).2 := by
  rw [lookUp]
  dsimp only
  split_ifs with hhealth hmissing hsucceeds
  · exact hhealth
  · exact hmissing
  · cases hprefix : prefixOf (apiKey.getD []) with
    | none => exact hprefix
    | some keyPrefix =>
      refine ⟨db.log, keyPrefix, List.prefix_rfl, hprefix, ?_⟩
      rw [← h.table]
      exact input.scan.perm _
  · cases hprefix : prefixOf (apiKey.getD []) with
    | none => exact hprefix
    | some keyPrefix => trivial

theorem stands_judge {apiKey : Option (List Char)} {rows : List KeyRow} (input : Input)
    (h : Stands (Opens service) db.log i path (apiKey.getD []) (.found rows)) :
    Stands (Opens service) (judge service i apiKey rows input db).1.log i path (apiKey.getD [])
      (judge service i apiKey rows input db).2 := by
  obtain ⟨before, keyPrefix, hlooked, hprefix, hrows⟩ := h
  rw [judge]
  cases hfind : rows.find? fun row => verifyApiKey service (apiKey.getD []) row.keyHash with
  | none =>
    refine ⟨before, hlooked, fun issued row hlive hopens => ?_⟩
    have hmem : current before row ∈ rows := by
      refine hrows.mem_iff.mpr (mem_filter_tableOf_iff.mpr ⟨issued, row, hlive, ?_, rfl⟩)
      exact Option.some.inj (hopens.1.symm.trans hprefix)
    exact List.find?_eq_none.mp hfind _ hmem hopens.2
  | some row =>
    obtain ⟨key, issued, hlive, hissued, rfl⟩ :=
      mem_filter_tableOf_iff.mp (hrows.mem_iff.mp (List.mem_of_find?_eq_some hfind))
    have hverify := List.find?_some hfind
    have huses : Uses (Opens service) db.log i (apiKey.getD []) issued :=
      ⟨before, key, hlooked, hlive, hissued ▸ hprefix, hverify⟩
    dsimp only
    split_ifs with hexpired hadmitted
    · exact ⟨issued, input.now, huses, hexpired⟩
    · exact ⟨issued, input.now, input.monotonic, huses.mono (List.prefix_append _ _), rfl, rfl,
        hexpired, List.mem_append_right _ (List.mem_singleton_self _)⟩
    · exact ⟨issued, huses⟩

theorem stands_count {key : List Char} {row : KeyRow} (input : Input)
    (h : Stands (Opens service) db.log i path key (.counting row)) :
    Stands (Opens service) (count i row input db).1.log i path key (count i row input db).2 := by
  rw [count]
  dsimp only
  have hpassed : Judged (Opens service) db.log i path key
      (.passed (some (row.id, row.permissions))) := h
  split_ifs
  · exact hpassed.mono (List.prefix_append _ _)
  · exact hpassed

end

/-- What each request for the services behind the middleware knows. -/
def StandsFor (service : Service) (requests : ι → Request) (i : ι) (db : Db ι) (phase : Phase) :
    Prop :=
  match requests i with
  | .call path apiKey => Stands (Opens service) db.log i path (apiKey.getD []) phase
  | _ => True

section
variable [DecidableEq ι] (service : Service) (requests : ι → Request)

section
omit [DecidableEq ι]

theorem log_createApiKey (body : CreateApiKeyRequest) (input : Input) (db : Db ι) :
    db.log <+: (createApiKey service body input db).1.log := by
  rw [createApiKey]
  split_ifs
  · exact List.prefix_rfl
  · dsimp only
    cases parseExpiry service body.expiresAt <;> simp
  · dsimp only
    cases parseExpiry service body.expiresAt <;> simp

theorem log_lookUp (i : ι) (path : String) (apiKey : Option (List Char)) (input : Input)
    (db : Db ι) : db.log <+: (lookUp i path apiKey input db).1.log := by
  rw [lookUp]
  dsimp only
  split_ifs
  · exact List.prefix_rfl
  · exact List.prefix_rfl
  · cases prefixOf (apiKey.getD []) <;> simp
  · cases prefixOf (apiKey.getD []) <;> simp

theorem log_judge (i : ι) (apiKey : Option (List Char)) (rows : List KeyRow) (input : Input)
    (db : Db ι) : db.log <+: (judge service i apiKey rows input db).1.log := by
  rw [judge]
  cases rows.find? fun row => verifyApiKey service (apiKey.getD []) row.keyHash with
  | none => exact List.prefix_rfl
  | some row =>
    dsimp only
    split_ifs <;> simp

theorem log_execute (i : ι) (input : Input) (db : Db ι) (phase : Phase) :
    db.log <+: (execute service requests i input db phase).1.log := by
  unfold execute
  split
  · exact log_createApiKey service _ input db
  · rw [revokeApiKey]
    split_ifs <;> simp
  · exact log_lookUp i _ _ input db
  · exact log_judge service i _ _ input db
  · rw [count]
    dsimp only
    split_ifs <;> simp
  · exact List.prefix_rfl

end

variable {service requests} in
omit [DecidableEq ι] in
/-- A request that is let through is counted for a key that was issued. -/
theorem issued_of_counting {db : Db ι} {i : ι} {path : String} {key : List Char} {row : KeyRow}
    (h : Stands (Opens service) db.log i path key (.counting row)) :
    row.id ∈ (issuedRows db.log).map KeyRow.id := by
  obtain ⟨used, now, monotonic, ⟨before, issued, hlooked, hlive, -⟩, hid, -⟩ := h
  have hissued : .issued issued used ∈ db.log :=
    hlooked.subset (List.mem_append_left _ hlive.1)
  exact hid ▸ List.mem_map_of_mem (mem_issuedRows_iff.mpr ⟨issued, hissued⟩)

omit [DecidableEq ι] in
theorem inv_execute {i : ι} {db : Db ι} {phase : Phase} (h : Inv service db)
    (hstands : StandsFor service requests i db phase) (input : Input) :
    Inv service (execute service requests i input db phase).1 ∧
      StandsFor service requests i (execute service requests i input db phase).1
        (execute service requests i input db phase).2 := by
  unfold execute
  rw [StandsFor] at hstands ⊢
  cases hrequest : requests i with
  | create body =>
    cases phase with
    | arrived => exact ⟨inv_createApiKey h body input, trivial⟩
    | _ => exact ⟨h, trivial⟩
  | revoke keyId =>
    cases phase with
    | arrived => exact ⟨inv_revokeApiKey h keyId input, trivial⟩
    | _ => exact ⟨h, trivial⟩
  | call path apiKey =>
    rw [hrequest] at hstands
    cases phase with
    | arrived =>
      refine ⟨?_, stands_lookUp h apiKey input⟩
      dsimp only
      rw [lookUp]
      dsimp only
      split_ifs
      · exact h
      · exact h
      · cases prefixOf (apiKey.getD []) with
        | none => exact h
        | some keyPrefix => exact h.observe rfl (fun _ => ⟨rfl, rfl⟩) db.windows
      · cases prefixOf (apiKey.getD []) <;> exact h
    | found rows =>
      refine ⟨?_, stands_judge input hstands⟩
      dsimp only
      rw [judge]
      cases rows.find? fun row => verifyApiKey service (apiKey.getD []) row.keyHash with
      | none => exact h
      | some row =>
        dsimp only
        split_ifs
        · exact h
        · exact h.observe rfl (fun _ => ⟨rfl, rfl⟩) _
        · exact ⟨h.table, h.ids, h.known, h.genuine⟩
    | counting row =>
      exact ⟨inv_count h i (issued_of_counting hstands) input, stands_count input hstands⟩
    | ended answer => exact ⟨h, hstands⟩

theorem inv_run (turns : List (Turn ι Input)) :
    Inv service (run service requests turns).db ∧
      ∀ i, StandsFor service requests i (run service requests turns).db
        ((run service requests turns).processes i) := by
  refine List.foldlRecOn (motive := fun world : World ι (Db ι) Phase => Inv service world.db ∧
    ∀ i, StandsFor service requests i world.db (world.processes i)) turns _ ?_ ?_
  · refine ⟨⟨rfl, List.nodup_nil, nofun, nofun⟩, fun i => ?_⟩
    rw [StandsFor]
    cases requests i <;> trivial
  · intro world hworld turn _
    obtain ⟨i, input⟩ := turn
    obtain ⟨hinv, hown⟩ := inv_execute service requests hworld.1 (hworld.2 i) input
    refine ⟨hinv, ?_⟩
    apply forall_processes_step (execute service requests) (K := StandsFor service requests)
      hworld.2 i input hown
    intro j _ hj
    rw [StandsFor] at hj ⊢
    cases hrequest : requests j with
    | call path apiKey =>
      rw [hrequest] at hj
      exact Stands.mono hj (log_execute service requests i input world.db (world.processes i))
    | _ => trivial

/-- In every interleaving the table has the keys that were issued, each as it was issued, revoked
if a revocation has found it and with the number of requests that were counted for it. -/
theorem keys_eq_tableOf (turns : List (Turn ι Input)) :
    (run service requests turns).db.keys = tableOf (run service requests turns).db.log ∧
      ((tableOf (run service requests turns).db.log).map KeyRow.id).Nodup := by
  have hinv := (inv_run service requests turns).1
  rw [map_id_tableOf]
  exact ⟨hinv.table, hinv.ids⟩

end

/-- The key that is given is not another one with the hash that is stored for this one. -/
def Apart (service : Service) (key issued : List Char) (row : KeyRow) : Prop :=
  ∀ salt, row.keyHash = salt ++ '$' :: hashKey service issued salt →
    hashKey service key salt = hashKey service issued salt → key = issued

theorem prefixOf_start (environment : Environment) (randomPart : List Char) :
    prefixOf (environment.start ++ randomPart) = some environment.start := by
  cases environment with
  | live => rfl
  | test => rfl

theorem verifyApiKey_append (service : Service) (key : List Char) (salt : Salt)
    (hash : List Char) :
    verifyApiKey service key (salt.text ++ '$' :: hash) = true ↔
      hashKey service key salt.text = hash := by
  have hsalt : ∀ c ∈ salt.text, decide (c ≠ '$') = true :=
    fun c hc => decide_eq_true fun heq => salt.plain (heq ▸ hc)
  have htake : (salt.text ++ '$' :: hash).takeWhile (· ≠ '$') = salt.text := by
    rw [List.takeWhile_append_of_pos hsalt]
    simp
  have hdrop : (salt.text ++ '$' :: hash).dropWhile (· ≠ '$') = '$' :: hash := by
    rw [List.dropWhile_append_of_pos hsalt]
    simp
  rw [verifyApiKey, if_pos (by simp), htake, hdrop, decide_eq_true_iff, List.tail_cons]

theorem opens_iff {service : Service} {key issued : List Char} {row : KeyRow}
    (hgenuine : Genuine service issued row) (hapart : Apart service key issued row) :
    Opens service key issued row ↔ key = issued := by
  obtain ⟨environment, randomPart, salt, hkey⟩ := hgenuine
  obtain ⟨rfl, hprefix, hhash⟩ : environment.start ++ randomPart = issued ∧
      environment.start = row.keyPrefix ∧
      salt.text ++ '$' :: hashKey service (environment.start ++ randomPart) salt.text =
        row.keyHash := by
    simpa [generateApiKey] using hkey
  rw [Opens, ← hhash, verifyApiKey_append, ← hprefix]
  constructor
  · rintro ⟨-, hsame⟩
    exact hapart salt.text hhash.symm hsame
  · rintro rfl
    exact ⟨prefixOf_start environment randomPart, rfl⟩

theorem Uses.congr {opens opens' : List Char → List Char → KeyRow → Prop} {log : List (Entry ι)}
    {i : ι} {key : List Char} {row : KeyRow} (h : Uses opens log i key row)
    (hopens : ∀ issued row, .issued issued row ∈ log →
      (opens key issued row ↔ opens' key issued row)) : Uses opens' log i key row := by
  obtain ⟨before, issued, hlooked, hlive, hkey⟩ := h
  have hissued := hlooked.subset (List.mem_append_left _ hlive.1)
  exact ⟨before, issued, hlooked, hlive, (hopens issued row hissued).mp hkey⟩

theorem Judged.congr {opens opens' : List Char → List Char → KeyRow → Prop}
    {log : List (Entry ι)} {i : ι} {path : String} {key : List Char} {answer : Answer}
    (h : Judged opens log i path key answer)
    (hopens : ∀ issued row, .issued issued row ∈ log →
      (opens key issued row ↔ opens' key issued row)) : Judged opens' log i path key answer := by
  cases answer with
  | passed found =>
    cases found with
    | none => exact h
    | some found =>
      obtain ⟨row, now, monotonic, huses, hrest⟩ := h
      exact ⟨row, now, monotonic, huses.congr hopens, hrest⟩
  | refused refusal =>
    cases refusal with
    | missing => exact h
    | format => exact h
    | unavailable => exact h
    | invalid =>
      obtain ⟨before, hlooked, hnone⟩ := h
      refine ⟨before, hlooked, fun issued row hlive hkey => hnone issued row hlive ?_⟩
      have hissued := hlooked.subset (List.mem_append_left _ hlive.1)
      exact (hopens issued row hissued).mpr hkey
    | expired =>
      obtain ⟨row, now, huses, hexpired⟩ := h
      exact ⟨row, now, huses.congr hopens, hexpired⟩
    | limited =>
      obtain ⟨row, huses⟩ := h
      exact ⟨row, huses.congr hopens⟩
  | _ => exact h

section
variable [DecidableEq ι] (service : Service) (requests : ι → Request)

/-- Where no given key shares a stored hash with another one: a request passes with the id and
the permissions of the very key that it gives, which had been issued, not been revoked when the
keys were read, and not expired; and it is told that its key is invalid only if there was no
such key. -/
theorem call_judged (turns : List (Turn ι Input))
    (hapart : ∀ i path apiKey issued row, requests i = .call path apiKey →
      .issued issued row ∈ (run service requests turns).db.log →
        Apart service (apiKey.getD []) issued row)
    {i : ι} {path : String} {apiKey : Option (List Char)} {answer : Answer}
    (hrequest : requests i = .call path apiKey)
    (hended : (run service requests turns).processes i = .ended answer) :
    Judged (fun key issued _ => key = issued) (run service requests turns).db.log i path
      (apiKey.getD []) answer := by
  obtain ⟨hinv, hstands⟩ := inv_run service requests turns
  have hjudged := hstands i
  rw [StandsFor, hrequest, hended] at hjudged
  refine Judged.congr hjudged fun issued row hissued => ?_
  exact opens_iff (hinv.genuine issued row hissued)
    (hapart i path apiKey issued row hrequest hissued)

end

def aliceKey : List Char := livePrefix ++ List.replicate 43 'A'

def aliceSalt : Salt := ⟨List.replicate 32 '0', by decide⟩

/-- The digest of the one text that is hashed. -/
def aliceService : Service where
  sha256 text :=
    if text = aliceSalt.text ++ ':' :: aliceKey then
      "d8fa28949757b065388a5ce4f6ab8ec839296a00a9a9657ce6678ec2e713a299".toList
    else []
  fromIsoformat _ := none

/-- A key for one request a minute is issued, and two requests come with it. -/
def aliceRequests : Option Bool → Request
  | none => .create ⟨"alice", ["read"], none, .live, 1⟩
  | some _ => .call "/test" (some aliceKey)

def aliceInput (monotonic : ℚ) : Input :=
  ⟨true, ⟨id, fun _ => .refl _⟩, 0, monotonic, "k", List.replicate 43 'A', aliceSalt⟩

def aliceTurns : List (Turn (Option Bool) Input) :=
  [⟨none, aliceInput 0⟩, ⟨some false, aliceInput 1⟩, ⟨some true, aliceInput 2⟩,
    ⟨some false, aliceInput 3⟩, ⟨some true, aliceInput 4⟩, ⟨some false, aliceInput 5⟩]

theorem aliceRequests_judged :
    Judged (fun key issued _ => key = issued) (run aliceService aliceRequests aliceTurns).db.log
      (some false) "/test" aliceKey (.passed (some ("k", ["read"]))) := by
  have hissued : ∀ row ∈ (run aliceService aliceRequests aliceTurns).db.log.filterMap Entry.key,
      row = aliceKey := by
    decide +kernel
  refine call_judged aliceService aliceRequests aliceTurns ?_ (i := some false) rfl
    (by decide +kernel)
  intro i path apiKey issued row hrequest hentry salt _ _
  have hkey := hissued issued (List.mem_filterMap.mpr ⟨_, hentry, rfl⟩)
  cases i with
  | none => cases hrequest
  | some _ =>
    cases hrequest
    exact hkey.symm

/-! ### How many are let through -/

def Entry.admittedAt (keyId : String) : Entry ι → Option ℚ
  | .admitted _ id _ monotonic => if id = keyId then some monotonic else none
  | _ => none

def admittedTimes (keyId : String) (log : List (Entry ι)) : List ℚ :=
  log.filterMap (Entry.admittedAt keyId)

/-- The windows of the keys, at a time that no request is later than. -/
structure Paced (db : Db ι) (clock : ℚ) : Prop where
  issued : ∀ row ∈ issuedRows db.log, Keeps 60 row.rateLimitPerMinute.toNat
    (admittedTimes row.id db.log) (db.windows row.id) clock
  others : ∀ keyId, keyId ∉ (issuedRows db.log).map KeyRow.id →
    admittedTimes keyId db.log = [] ∧ db.windows keyId = []

theorem admittedTimes_concat (keyId : String) (log : List (Entry ι)) (entry : Entry ι) :
    admittedTimes keyId (log ++ [entry]) =
      admittedTimes keyId log ++ (entry.admittedAt keyId).toList := by
  rw [admittedTimes, List.filterMap_append]
  cases h : entry.admittedAt keyId <;> simp [admittedTimes, h]

section
variable {service : Service} {db : Db ι} {clock : ℚ}

theorem Paced.observe (h : Paced db clock) {entry : Entry ι} (hrow : entry.row = none)
    (hadmitted : ∀ keyId, entry.admittedAt keyId = none) (keys : List KeyRow) :
    Paced ⟨keys, db.windows, db.log ++ [entry]⟩ clock := by
  have hrows : issuedRows (db.log ++ [entry]) = issuedRows db.log := by
    rw [issuedRows_concat, hrow, Option.toList_none, List.append_nil]
  have htimes : ∀ keyId, admittedTimes keyId (db.log ++ [entry]) = admittedTimes keyId db.log := by
    intro keyId
    rw [admittedTimes_concat, hadmitted, Option.toList_none, List.append_nil]
  refine ⟨fun row hmem => ?_, fun keyId hother => ?_⟩
  · rw [htimes]
    exact h.issued row (hrows ▸ hmem)
  · rw [htimes]
    exact h.others keyId (hrows ▸ hother)

theorem Paced.issue (h : Paced db clock) {key : List Char} {row : KeyRow}
    (hfresh : row.id ∉ (issuedRows db.log).map KeyRow.id) (keys : List KeyRow) :
    Paced ⟨keys, db.windows, db.log ++ [.issued key row]⟩ clock := by
  have hrows : issuedRows (db.log ++ [.issued key row]) = issuedRows db.log ++ [row] :=
    issuedRows_concat db.log _
  have htimes : ∀ keyId, admittedTimes keyId (db.log ++ [.issued key row]) =
      admittedTimes keyId db.log := by
    intro keyId
    rw [admittedTimes_concat]
    exact List.append_nil _
  refine ⟨fun old hmem => ?_, fun keyId hother => ?_⟩
  · rw [hrows] at hmem
    rw [htimes]
    rcases List.mem_append.mp hmem with hold | hnew
    · exact h.issued old hold
    · rw [List.mem_singleton.mp hnew, (h.others row.id hfresh).1, (h.others row.id hfresh).2]
      exact keeps_nil clock
  · rw [hrows, List.map_append, List.mem_append, not_or] at hother
    rw [htimes]
    exact h.others keyId hother.1

/-- The rows that a request has read have the limits of the keys. -/
theorem issued_of_found {i : ι} {path : String} {key : List Char} {rows : List KeyRow}
    (h : Stands (Opens service) db.log i path key (.found rows)) {row : KeyRow}
    (hrow : row ∈ rows) : ∃ issued ∈ issuedRows db.log, issued.id = row.id ∧
      issued.rateLimitPerMinute = row.rateLimitPerMinute := by
  obtain ⟨before, keyPrefix, hlooked, -, hrows⟩ := h
  obtain ⟨key, issued, hlive, -, rfl⟩ := mem_filter_tableOf_iff.mp (hrows.mem_iff.mp hrow)
  have hissued := hlooked.subset (List.mem_append_left _ hlive.1)
  exact ⟨issued, mem_issuedRows_iff.mpr ⟨key, hissued⟩, rfl, rfl⟩

theorem Inv.eq_of_id (h : Inv service db) {row other : KeyRow} (hrow : row ∈ issuedRows db.log)
    (hother : other ∈ issuedRows db.log) (hid : row.id = other.id) : row = other :=
  List.inj_on_of_nodup_map h.ids hrow hother hid

/-- A request changes the window of its own key only. -/
theorem Paced.update (h : Paced db clock) (hinv : Inv service db) {row : KeyRow}
    (hrow : row ∈ issuedRows db.log) {log : List (Entry ι)} {window : List ℚ}
    (hrows : issuedRows log = issuedRows db.log)
    (hothers : ∀ keyId ≠ row.id, admittedTimes keyId log = admittedTimes keyId db.log)
    (hkeeps : Keeps 60 row.rateLimitPerMinute.toNat (admittedTimes row.id log) window clock) :
    Paced ⟨db.keys, Function.update db.windows row.id window, log⟩ clock := by
  refine ⟨fun other hother => ?_, fun keyId hother => ?_⟩
  · rw [hrows] at hother
    dsimp only
    by_cases heq : other.id = row.id
    · rw [hinv.eq_of_id hother hrow heq, Function.update_self]
      exact hkeeps
    · rw [Function.update_of_ne heq, hothers other.id heq]
      exact h.issued other hother
  · rw [hrows] at hother
    have hne : keyId ≠ row.id := fun heq => hother (heq ▸ List.mem_map_of_mem hrow)
    dsimp only
    rw [Function.update_of_ne hne, hothers keyId hne]
    exact h.others keyId hother

theorem paced_judge (hinv : Inv service db) (h : Paced db clock) {i : ι} {path : String}
    {apiKey : Option (List Char)} {rows : List KeyRow}
    (hstands : Stands (Opens service) db.log i path (apiKey.getD []) (.found rows)) (input : Input)
    (hclock : clock ≤ input.monotonic) :
    Paced (judge service i apiKey rows input db).1 input.monotonic ∧
      ((judge service i apiKey rows input db).2 = .ended (.refused .limited) →
        ∃ row ∈ issuedRows db.log, row.rateLimitPerMinute.toNat ≤
          (prune 60 (admittedTimes row.id db.log) input.monotonic).length) := by
  have hlater : Paced db input.monotonic :=
    ⟨fun row hrow => (h.issued row hrow).mono hclock, h.others⟩
  rw [judge]
  cases hfind : rows.find? fun row => verifyApiKey service (apiKey.getD []) row.keyHash with
  | none => exact ⟨hlater, nofun⟩
  | some row =>
    obtain ⟨issued, hissued, hid, hlimit⟩ :=
      issued_of_found hstands (List.mem_of_find?_eq_some hfind)
    have hkeeps := h.issued issued hissued
    have hnext := hkeeps.request hclock
    dsimp only
    rw [← hid, ← hlimit]
    split_ifs with hexpired hadmitted
    · exact ⟨hlater, nofun⟩
    · rw [if_pos hadmitted] at hnext
      refine ⟨hlater.update hinv hissued ?_ (fun keyId hne => ?_) ?_, nofun⟩
      · rw [issuedRows_concat]
        exact List.append_nil _
      · rw [admittedTimes_concat, Entry.admittedAt, if_neg (Ne.symm hne), Option.toList_none,
          List.append_nil]
      · rw [admittedTimes_concat, Entry.admittedAt, if_pos rfl]
        exact hnext
    · rw [if_neg hadmitted] at hnext
      exact ⟨hlater.update hinv hissued rfl (fun _ _ => rfl) hnext,
        fun _ => ⟨issued, hissued, hkeeps.full_of_not_admits hclock hadmitted⟩⟩

theorem paced_createApiKey (hinv : Inv service db) (h : Paced db clock)
    (body : CreateApiKeyRequest) (input : Input) :
    Paced (createApiKey service body input db).1 clock := by
  rw [createApiKey]
  split_ifs with hinvalid hsucceeds
  · exact h
  · dsimp only
    cases parseExpiry service body.expiresAt with
    | none => exact h
    | some expiresAt =>
      refine h.issue ?_ _
      rw [Bool.and_eq_true, hinv.table, List.all_eq_true] at hsucceeds
      rw [← map_id_tableOf, List.mem_map]
      rintro ⟨row, hrow, hid⟩
      exact of_decide_eq_true (hsucceeds.2 row hrow) hid
  · dsimp only
    cases parseExpiry service body.expiresAt <;> exact h

/-- One turn, and what it means if it refuses a request for its number. -/
theorem paced_execute {requests : ι → Request} {i : ι} {phase : Phase} (hinv : Inv service db)
    (hstands : StandsFor service requests i db phase) (h : Paced db clock) (input : Input)
    (hclock : clock ≤ input.monotonic) :
    Paced (execute service requests i input db phase).1 input.monotonic ∧
      (∀ rows, phase = .found rows →
        (execute service requests i input db phase).2 = .ended (.refused .limited) →
          ∃ row ∈ issuedRows db.log, row.rateLimitPerMinute.toNat ≤
            (prune 60 (admittedTimes row.id db.log) input.monotonic).length) := by
  have hlater : Paced db input.monotonic :=
    ⟨fun row hrow => (h.issued row hrow).mono hclock, h.others⟩
  unfold execute
  rw [StandsFor] at hstands
  cases hrequest : requests i with
  | create body =>
    cases phase with
    | arrived => exact ⟨paced_createApiKey hinv hlater body input, nofun⟩
    | found rows => exact ⟨hlater, fun _ _ => nofun⟩
    | _ => exact ⟨hlater, nofun⟩
  | revoke keyId =>
    cases phase with
    | arrived =>
      refine ⟨?_, nofun⟩
      dsimp only
      rw [revokeApiKey]
      split_ifs
      · exact hlater
      · exact hlater.observe rfl (fun _ => rfl) _
      · exact hlater
    | found rows => exact ⟨hlater, fun _ _ => nofun⟩
    | _ => exact ⟨hlater, nofun⟩
  | call path apiKey =>
    rw [hrequest] at hstands
    cases phase with
    | arrived =>
      refine ⟨?_, nofun⟩
      dsimp only
      rw [lookUp]
      dsimp only
      split_ifs
      · exact hlater
      · exact hlater
      · cases prefixOf (apiKey.getD []) with
        | none => exact hlater
        | some keyPrefix => exact hlater.observe rfl (fun _ => rfl) _
      · cases prefixOf (apiKey.getD []) <;> exact hlater
    | found rows =>
      obtain ⟨hpaced, hfull⟩ := paced_judge hinv h hstands input hclock
      exact ⟨hpaced, fun _ _ => hfull⟩
    | counting row =>
      refine ⟨?_, nofun⟩
      dsimp only
      rw [count]
      dsimp only
      split_ifs
      · exact hlater.observe rfl (fun _ => rfl) _
      · exact hlater
    | ended answer => exact ⟨hlater, nofun⟩

end

section
variable [DecidableEq ι] (service : Service) (requests : ι → Request)

theorem paced_run (turns : List (Turn ι Input))
    (hclock : turns.Pairwise fun earlier later => earlier.input.monotonic ≤ later.input.monotonic)
    (clock : ℚ) (hlast : ∀ turn ∈ turns, turn.input.monotonic ≤ clock) :
    Paced (run service requests turns).db clock := by
  induction turns using List.reverseRecOn generalizing clock with
  | nil => exact ⟨nofun, fun _ _ => ⟨rfl, rfl⟩⟩
  | append_singleton turns turn ih =>
    obtain ⟨i, input⟩ := turn
    obtain ⟨hturns, -, hbefore⟩ := List.pairwise_append.mp hclock
    obtain ⟨hinv, hstands⟩ := inv_run service requests turns
    have hearlier := ih hturns input.monotonic
      fun turn hturn => hbefore turn hturn _ (List.mem_singleton_self _)
    have hstep := (paced_execute hinv (hstands i) hearlier input le_rfl).1
    have hinput : input.monotonic ≤ clock := hlast ⟨i, input⟩ (by simp)
    rw [run, List.foldl_append]
    exact ⟨fun row hrow => (hstep.issued row hrow).mono hinput, hstep.others⟩

/-- No more requests with a key are admitted in any minute than the limit of the key allows, and
a request is refused for their number only if as many were admitted in the minute before. -/
theorem admitted_le (turns : List (Turn ι Input))
    (hclock : turns.Pairwise fun earlier later =>
      earlier.input.monotonic ≤ later.input.monotonic) :
    (∀ row ∈ issuedRows (run service requests turns).db.log, ∀ since,
      (admittedTimes row.id (run service requests turns).db.log).countP (within 60 since) ≤
        row.rateLimitPerMinute.toNat) ∧
    ∀ earlier turn rows, earlier ++ [turn] <+: turns →
      (run service requests earlier).processes turn.process = .found rows →
      (run service requests (earlier ++ [turn])).processes turn.process =
        .ended (.refused .limited) →
      ∃ row ∈ issuedRows (run service requests earlier).db.log, row.rateLimitPerMinute.toNat ≤
        (prune 60 (admittedTimes row.id (run service requests earlier).db.log)
          turn.input.monotonic).length := by
  constructor
  · intro row hrow since
    obtain ⟨clock, hlast⟩ : ∃ clock, ∀ turn ∈ turns, turn.input.monotonic ≤ clock := by
      obtain ⟨clock, hmax⟩ := (turns.map fun turn => turn.input.monotonic).toFinset.bddAbove
      refine ⟨clock, fun turn hturn => hmax ?_⟩
      rw [Finset.mem_coe, List.mem_toFinset]
      exact List.mem_map_of_mem hturn
    exact ((paced_run service requests turns hclock clock hlast).issued row hrow).bounded since
  · rintro earlier ⟨i, input⟩ rows hpre hfound hrefused
    obtain ⟨hturns, -, hbefore⟩ := List.pairwise_append.mp (hclock.sublist hpre.sublist)
    obtain ⟨hinv, hstands⟩ := inv_run service requests earlier
    have hearlier := paced_run service requests earlier hturns input.monotonic
      fun turn hturn => hbefore turn hturn _ (List.mem_singleton_self _)
    rw [run, List.foldl_append, List.foldl_cons, List.foldl_nil, processes_step_self] at hrefused
    exact (paced_execute hinv (hstands i) hearlier input le_rfl).2 rows hfound hrefused

end

/-- The second request is refused. -/
theorem aliceTurns_admitted :
    (∀ row ∈ issuedRows (run aliceService aliceRequests aliceTurns).db.log, ∀ since,
      (admittedTimes row.id (run aliceService aliceRequests aliceTurns).db.log).countP
        (within 60 since) ≤ row.rateLimitPerMinute.toNat) ∧
    ∀ earlier turn rows, earlier ++ [turn] <+: aliceTurns →
      (run aliceService aliceRequests earlier).processes turn.process = .found rows →
      (run aliceService aliceRequests (earlier ++ [turn])).processes turn.process =
        .ended (.refused .limited) →
      ∃ row ∈ issuedRows (run aliceService aliceRequests earlier).db.log,
        row.rateLimitPerMinute.toNat ≤
          (prune 60 (admittedTimes row.id (run aliceService aliceRequests earlier).db.log)
            turn.input.monotonic).length := by
  apply admitted_le
  simp only [aliceTurns, aliceInput, List.pairwise_cons, List.mem_cons, List.not_mem_nil, or_false,
    forall_eq_or_imp, forall_eq, List.Pairwise.nil, false_imp_iff, implies_true, and_true]
  norm_num

end TradeStream.ApiKeys
