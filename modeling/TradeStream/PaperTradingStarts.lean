import TradeStream.Interleaving
import TradeStream.PaperTradingStore
import TradeStream.RunSteps

/-! Requests that start and stop paper trading sessions, a statement at a time. A start
looks for an active session in one statement and inserts its own in another, and no
constraint of `paper_trading_sessions` is about active sessions. -/
namespace TradeStream.PaperTradingStarts
open TradeStream.PaperTrading TradeStream.Interleaving TradeStream.RunSteps

/-- A row of `paper_trading_sessions`. -/
structure SessionRow where
  id : String
  startingBalance : ℚ
  currentBalance : ℚ
  status : SessionStatus
  startedAt : ℤ
  stoppedAt : Option ℤ
  totalRealizedPnl : ℚ
  totalTrades : ℕ
  deriving DecidableEq

inductive Request where
  | start (startingBalance : ℚ)
  | stop (sessionId : String)

/-- The statement that a request executes next, or how it ended. -/
inductive Phase where
  | selectActive (startingBalance : ℚ)
  | insertSession (startingBalance : ℚ)
  | updateStopped (sessionId : String)
  | started (row : SessionRow)
  | stopped (row : SessionRow)
  | alreadyActive (sessionId : String)
  | notFound (sessionId : String)
  | raised
  deriving DecidableEq

/-- What a statement finds: `gen_random_uuid()` and `NOW()`. -/
structure Input where
  newId : String
  now : ℤ

def Request.begin : Request → Phase
  | .start startingBalance => .selectActive startingBalance
  | .stop sessionId => .updateStopped sessionId

def activeSessions (sessions : List SessionRow) : List SessionRow :=
  sessions.filter (·.status = .active)

/-- The latest of the active sessions. -/
def getActiveSession (sessions : List SessionRow) : Option SessionRow :=
  ((activeSessions sessions).insertionSort fun a b => b.startedAt ≤ a.startedAt).head?

/-- The row of a new session, with the defaults of the table. -/
def newSession (startingBalance : ℚ) (input : Input) : SessionRow where
  id := input.newId
  startingBalance := numeric startingBalance
  currentBalance := numeric startingBalance
  status := .active
  startedAt := input.now
  stoppedAt := none
  totalRealizedPnl := 0
  totalTrades := 0

/-- The primary key is the only constraint that an insert can violate. -/
def IdTaken (sessions : List SessionRow) (id : String) : Prop :=
  ∃ row ∈ sessions, row.id = id

instance (sessions : List SessionRow) (id : String) : Decidable (IdTaken sessions id) :=
  inferInstanceAs (Decidable (∃ row ∈ sessions, row.id = id))

def createSession (sessions : List SessionRow) (startingBalance : ℚ) (input : Input) :
    Option (SessionRow × List SessionRow) :=
  if IdTaken sessions input.newId then none
  else
    let row := newSession startingBalance input
    some (row, sessions ++ [row])

def SessionRow.stop (row : SessionRow) (now : ℤ) : SessionRow :=
  { row with status := .stopped, stoppedAt := some now }

def SessionRow.MatchesStop (row : SessionRow) (sessionId : String) : Prop :=
  row.id = sessionId ∧ row.status = .active

instance (row : SessionRow) (sessionId : String) : Decidable (row.MatchesStop sessionId) :=
  inferInstanceAs (Decidable (_ ∧ _))

def stopSession (sessions : List SessionRow) (sessionId : String) (now : ℤ) :
    Option SessionRow × List SessionRow :=
  ((sessions.find? (·.MatchesStop sessionId)).map (·.stop now),
    sessions.map fun row => if row.MatchesStop sessionId then row.stop now else row)

/-- A statement of a request, and the code up to the next one. -/
def executeStatement (input : Input) (sessions : List SessionRow) (phase : Phase) :
    List SessionRow × Phase :=
  match phase with
  | .selectActive startingBalance =>
    match getActiveSession sessions with
    | some active => (sessions, .alreadyActive active.id)
    | none => (sessions, .insertSession startingBalance)
  -- the insert does not look for an active session again
  | .insertSession startingBalance =>
    match createSession sessions startingBalance input with
    | none => (sessions, .raised)
    | some (row, sessions') => (sessions', .started row)
  | .updateStopped sessionId =>
    match stopSession sessions sessionId input.now with
    | (none, sessions') => (sessions', .notFound sessionId)
    | (some row, sessions') => (sessions', .stopped row)
  | ended => (sessions, ended)

def AtMostOneActive (sessions : List SessionRow) : Prop :=
  (activeSessions sessions).length ≤ 1

instance (sessions : List SessionRow) : Decidable (AtMostOneActive sessions) :=
  inferInstanceAs (Decidable (_ ≤ _))

/-! ### What a statement does to the active sessions -/

theorem getActiveSession_eq_none_iff (sessions : List SessionRow) :
    getActiveSession sessions = none ↔ activeSessions sessions = [] := by
  rw [getActiveSession, List.head?_eq_none_iff, ← List.length_eq_zero_iff,
    List.length_insertionSort, List.length_eq_zero_iff]

theorem activeSessions_append_newSession (sessions : List SessionRow) (startingBalance : ℚ)
    (input : Input) :
    activeSessions (sessions ++ [newSession startingBalance input]) =
      activeSessions sessions ++ [newSession startingBalance input] := by
  simp [activeSessions, List.filter_append, newSession]

/-- A stopped session leaves the active ones, and no other does. -/
theorem activeSessions_stopSession (sessions : List SessionRow) (sessionId : String) (now : ℤ) :
    activeSessions (stopSession sessions sessionId now).2 =
      (activeSessions sessions).filter (·.id ≠ sessionId) := by
  induction sessions with
  | nil => rfl
  | cons row rest ih =>
    simp only [stopSession, activeSessions] at ih ⊢
    by_cases hactive : row.status = .active
    · by_cases hid : row.id = sessionId
      · simpa [SessionRow.MatchesStop, SessionRow.stop, hactive, hid] using ih
      · simpa [SessionRow.MatchesStop, hactive, hid] using ih
    · simpa [SessionRow.MatchesStop, hactive] using ih

/-- The state of the table in which an insert leaves at most one session active. -/
def InsertFindsNone (sessions : List SessionRow) (phase : Phase) (input : Input) : Prop :=
  ∀ startingBalance, phase = .insertSession startingBalance → ¬ IdTaken sessions input.newId →
    activeSessions sessions = []

theorem atMostOneActive_executeStatement_iff {sessions : List SessionRow}
    (h : AtMostOneActive sessions) (input : Input) (phase : Phase) :
    AtMostOneActive (executeStatement input sessions phase).1 ↔
      InsertFindsNone sessions phase input := by
  cases phase with
  | selectActive startingBalance =>
    simp only [InsertFindsNone, reduceCtorEq, false_implies, implies_true, iff_true]
    unfold executeStatement
    dsimp only
    split <;> exact h
  | insertSession startingBalance =>
    -- a taken id violates the primary key, and nothing is inserted
    by_cases htaken : IdTaken sessions input.newId
    · simp [executeStatement, createSession, InsertFindsNone, htaken, h]
    · have hlength : AtMostOneActive (sessions ++ [newSession startingBalance input]) ↔
          activeSessions sessions = [] := by
        rw [AtMostOneActive, activeSessions_append_newSession, List.length_append,
          List.length_singleton, ← List.length_eq_zero_iff]
        omega
      simpa [executeStatement, createSession, InsertFindsNone, htaken] using hlength
  | updateStopped sessionId =>
    simp only [InsertFindsNone, reduceCtorEq, false_implies, implies_true, iff_true]
    -- a stop only takes sessions out of the active ones
    have hstop : AtMostOneActive (stopSession sessions sessionId input.now).2 := by
      rw [AtMostOneActive, activeSessions_stopSession]
      exact (List.length_filter_le _ _).trans h
    unfold executeStatement
    dsimp only
    split <;> simp_all
  | _ => simpa [executeStatement, InsertFindsNone] using h

/-! ### Any number of requests -/

section
variable {ι : Type*} [DecidableEq ι]

abbrev Requests (ι : Type*) := World ι (List SessionRow) Phase

def Requests.init (sessions : List SessionRow) (requests : ι → Request) : Requests ι :=
  ⟨sessions, fun i => (requests i).begin⟩

def Requests.step (world : Requests ι) (turn : Turn ι Input) : Requests ι :=
  World.step (fun _ => executeStatement) world turn

/-- Every session is started with none active: the condition on the turn of a request
that is about to insert, and none on other turns. -/
def Requests.InsertFindsNone (world : Requests ι) (turn : Turn ι Input) : Prop :=
  PaperTradingStarts.InsertFindsNone world.db (world.processes turn.process) turn.input

/-- At most one session is active at every moment, exactly if every insert finds none. -/
theorem atMostOneActive_iff_insertFindsNone {sessions : List SessionRow}
    (h : AtMostOneActive sessions) (requests : ι → Request) (turns : List (Turn ι Input)) :
    (∀ reached, reached <+: turns →
        AtMostOneActive (reached.foldl Requests.step (.init sessions requests)).db) ↔
      ∀ earlier turn, earlier ++ [turn] <+: turns →
        (earlier.foldl Requests.step (.init sessions requests)).InsertFindsNone turn := by
  apply forall_reached_iff_forall_step Requests.step (I := fun _ => True)
    (P := fun world : Requests ι => AtMostOneActive world.db) (C := Requests.InsertFindsNone)
  · exact fun _ _ _ => trivial
  · intro world turn _ hworld
    exact atMostOneActive_executeStatement_iff hworld turn.input (world.processes turn.process)
  · trivial
  · exact h

/-- A start whose two statements have no other between them keeps to one active session. -/
theorem atMostOneActive_of_start_alone {world : Requests ι} (h : AtMostOneActive world.db)
    {i : ι} {startingBalance : ℚ} (hphase : world.processes i = .selectActive startingBalance)
    (found inserted : Input) :
    AtMostOneActive ((world.step ⟨i, found⟩).step ⟨i, inserted⟩).db := by
  have hkept : AtMostOneActive (world.step ⟨i, found⟩).db := by
    apply (atMostOneActive_executeStatement_iff h found (world.processes i)).mpr
    simp [PaperTradingStarts.InsertFindsNone, hphase]
  apply (atMostOneActive_executeStatement_iff hkept inserted _).mpr
  intro balance hinsert _
  have hself : (world.step ⟨i, found⟩).processes i =
      (executeStatement found world.db (.selectActive startingBalance)).2 := by
    rw [← hphase]
    exact processes_step_self _ world i found
  have hdb : (world.step ⟨i, found⟩).db = world.db := by
    change (executeStatement found world.db (world.processes i)).1 = world.db
    rw [hphase]
    unfold executeStatement
    dsimp only
    split <;> rfl
  -- the request goes on to its insert only if its own `SELECT` found none
  rw [hself] at hinsert
  rw [hdb, ← getActiveSession_eq_none_iff]
  unfold executeStatement at hinsert
  dsimp only at hinsert
  split at hinsert
  · cases hinsert
  · assumption

end

/-- Two starts of sessions with a balance of 100. -/
def twoStarts (_ : Bool) : Request := .start 100

/-- Both look before either inserts. -/
def crossingStarts : List (Turn Bool Input) :=
  [⟨false, ⟨"a", 1⟩⟩, ⟨true, ⟨"b", 2⟩⟩, ⟨false, ⟨"c", 3⟩⟩, ⟨true, ⟨"d", 4⟩⟩]

theorem crossing_starts_both_active :
    ¬ ∀ reached, reached <+: crossingStarts →
      AtMostOneActive (reached.foldl Requests.step (.init [] twoStarts)).db := by
  intro h
  exact absurd (h crossingStarts List.prefix_rfl) (by decide)

/-- The first request ends before the second looks. -/
def startsInTurn : List (Turn Bool Input) :=
  [⟨false, ⟨"a", 1⟩⟩, ⟨false, ⟨"c", 3⟩⟩, ⟨true, ⟨"b", 2⟩⟩]

theorem atMostOneActive_of_starts_in_turn :
    AtMostOneActive (startsInTurn.foldl Requests.step (.init [] twoStarts)).db := by
  refine (@atMostOneActive_iff_insertFindsNone _ _ [] (by decide) twoStarts startsInTurn).mpr ?_
    startsInTurn List.prefix_rfl
  rw [← eachStep_iff_forall_step]
  refine ⟨?_, fun _ => ⟨?_, fun _ => ⟨?_, fun _ => trivial⟩⟩⟩
  · intro _ h
    cases h
  · intro _ _ _
    rfl
  · intro _ h
    cases h

end TradeStream.PaperTradingStarts
