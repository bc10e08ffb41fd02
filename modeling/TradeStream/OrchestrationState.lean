import TradeStream.Fallible
import TradeStream.JsonText

/-! `OrchestrationState`: the state of the orchestration agent, saved as JSON and loaded field
by field. -/
namespace TradeStream.OrchestrationState
open TradeStream.JsonText

inductive PyError where
  | keyError
  | typeError
  | attributeError
  | jsonDecodeError
  | unicodeDecodeError
  deriving DecidableEq, Repr

/-- What `json.load` makes of the file. An object has each of its keys once. -/
inductive Content (N : Type*) where
  | undecodable
  | notJson
  | json (value : Json N)

variable {N : Type*}

structure CandidateRecord (N : Type*) where
  name : Json N
  spec : Json N
  phase : Json N
  createdAt : Json N
  metrics : Json N
  allocationWeight : Json N

/-- Values are as in a file: nothing checks their types. -/
structure State (N : Type*) where
  cycleNumber : Json N
  lastCycleTime : Json N
  candidates : List (String × CandidateRecord N)
  promotionHistory : Json N
  retirementHistory : Json N
  cycleStats : Json N

/-- `d.get(key, default)`. -/
def getOr (fields : List (String × Json N)) (key : String) (default : Json N) : Json N :=
  (fields.lookup key).getD default

/-- `d[key]`. -/
def getItem (fields : List (String × Json N)) (key : String) : Except PyError (Json N) :=
  match fields.lookup key with
  | some value => .ok value
  | none => .error .keyError

section
variable [Zero N] [DecidableEq N]

def truthy : Json N → Bool
  | .null => false
  | .bool value => value
  | .num value => value ≠ 0
  | .str text => text ≠ ""
  | .arr items => !items.isEmpty
  | .obj fields => !fields.isEmpty

/-- `value or other`. -/
def orElse (value other : Json N) : Json N := if truthy value then value else other

def CandidateRecord.toDict (r : CandidateRecord N) : Json N :=
  .obj [("name", r.name), ("spec", r.spec), ("phase", r.phase), ("created_at", r.createdAt),
    ("metrics", r.metrics), ("allocation_weight", r.allocationWeight)]

/-- `from_dict`, with the constructor's defaults; `now` is `time.time()`. -/
def CandidateRecord.fromDict (now : Json N) : Json N → Except PyError (CandidateRecord N)
  | .obj d => do
    let name ← getItem d "name"
    let spec ← getItem d "spec"
    return {
      name, spec
      phase := getOr d "phase" (.str "discovery")
      createdAt := orElse (getOr d "created_at" (.num 0)) now
      metrics := orElse (getOr d "metrics" (.obj [])) (.obj [])
      allocationWeight := getOr d "allocation_weight" (.num 0) }
  -- what is not a dictionary has no item of a text
  | _ => .error .typeError

/-- One item of the dictionary; `clock` is `time.time()` at its turn. -/
def candidateOf (clock : String → Json N) (e : String × Json N) :
    Except PyError (String × CandidateRecord N) := do
  let record ← CandidateRecord.fromDict (clock e.1) e.2
  return (e.1, record)

def candidatesOf (clock : String → Json N) (data : List (String × Json N)) :
    Except PyError (List (String × CandidateRecord N)) :=
  match getOr data "candidates" (.obj []) with
  | .obj records => records.mapM (candidateOf clock)
  | _ => .error .attributeError

/-- `len` of a JSON value. -/
def hasLen : Json N → Bool
  | .str _ | .arr _ | .obj _ => true
  | .null | .bool _ | .num _ => false

/-- The body of the `try`, with the exception that it ends with. -/
def loadData (clock : String → Json N) (content : Content N) (s : State N) :
    State N × Option PyError :=
  match content with
  | .undecodable => (s, some .unicodeDecodeError)
  | .notJson => (s, some .jsonDecodeError)
  | .json (.obj data) =>
    let s := { s with cycleNumber := getOr data "cycle_number" (.num 0) }
    let s := { s with lastCycleTime := getOr data "last_cycle_time" (.num 0) }
    match candidatesOf clock data with
    | .error e => (s, some e)
    | .ok candidates =>
      let s := { s with candidates }
      let s := { s with promotionHistory := getOr data "promotion_history" (.arr []) }
      let s := { s with retirementHistory := getOr data "retirement_history" (.arr []) }
      let s := { s with cycleStats := getOr data "cycle_stats" (.arr []) }
      -- the lengths of the histories are taken for the log
      if hasLen s.promotionHistory && hasLen s.retirementHistory then (s, none)
      else (s, some .typeError)
  | .json _ => (s, some .attributeError)

/-- The exceptions that `load` logs. -/
def caught : PyError → Bool
  | .jsonDecodeError | .keyError | .typeError => true
  | .attributeError | .unicodeDecodeError => false

/-- `load`, of a file that may not exist. An exception that it does not catch comes with the
state that it leaves. -/
def load (clock : String → Json N) (file : Option (Content N)) (s : State N) :
    State N × Option PyError :=
  match file with
  | none => (s, none)
  | some content =>
    let (s, raised) := loadData clock content s
    (s, raised.filter fun e => !caught e)

end

/-- `value[-100:]`. -/
def lastHundred : Json N → Except PyError (Json N)
  | .arr items => .ok (.arr (items.drop (items.length - 100)))
  | .str text => .ok (.str (String.ofList (text.toList.drop (text.toList.length - 100))))
  | _ => .error .typeError

/-- The data that `save` writes. -/
def State.save (s : State N) : Except PyError (Json N) := do
  let cycleStats ← lastHundred s.cycleStats
  return .obj [("cycle_number", s.cycleNumber), ("last_cycle_time", s.lastCycleTime),
    ("candidates", .obj (s.candidates.map fun e => (e.1, e.2.toDict))),
    ("promotion_history", s.promotionHistory), ("retirement_history", s.retirementHistory),
    ("cycle_stats", cycleStats)]

/-! ### All of the state or nothing -/

/-- The state with the last hundred cycle stats, as a file keeps it. -/
def State.kept (s : State N) : State N :=
  match lastHundred s.cycleStats with
  | .ok cycleStats => { s with cycleStats }
  | .error _ => s

variable [Zero N] [DecidableEq N]

/-- A record as the constructor leaves it. -/
def CandidateRecord.Normal (r : CandidateRecord N) : Prop :=
  truthy r.createdAt ∧ (truthy r.metrics ∨ r.metrics = .obj [])

/-- The state that a file describes as a whole, with the defaults for what it leaves out. -/
def described (clock : String → Json N) : Content N → Option (State N)
  | .json (.obj data) =>
    match candidatesOf clock data with
    | .ok candidates => some {
        cycleNumber := getOr data "cycle_number" (.num 0)
        lastCycleTime := getOr data "last_cycle_time" (.num 0)
        candidates
        promotionHistory := getOr data "promotion_history" (.arr [])
        retirementHistory := getOr data "retirement_history" (.arr [])
        cycleStats := getOr data "cycle_stats" (.arr []) }
    | .error _ => none
  | _ => none

/-- `load` does not raise, and the state after it is the one of the file or the one before;
a file that `save` wrote gives back what was saved. -/
structure AllOrNothing (clock : String → Json N) (file : Option (Content N)) (s : State N) :
    Prop where
  returns : (load clock file s).2 = none
  whole : (load clock file s).1 = s ∨
    ∃ content, file = some content ∧ described clock content = some (load clock file s).1
  saved : ∀ saved : State N, (∀ e ∈ saved.candidates, e.2.Normal) → ∀ data,
    saved.save = .ok data → file = some (.json data) → (load clock file s).1 = saved.kept

/-- A record that makes a candidate: an object with a name and a spec. -/
def IsRecord : Json N → Prop
  | .obj d => (d.lookup "name").isSome ∧ (d.lookup "spec").isSome
  | _ => False

/-- The candidates are an object of such records, or the two fields before them are those
that the state has. -/
def Harmless (data : List (String × Json N)) (s : State N) : Prop :=
  match getOr data "candidates" (.obj []) with
  | .obj records => (∀ e ∈ records, IsRecord e.2) ∨
      (getOr data "cycle_number" (.num 0) = s.cycleNumber ∧
        getOr data "last_cycle_time" (.num 0) = s.lastCycleTime)
  | _ => False

/-- There is no file, it is not JSON, or it is a harmless object. -/
def Loadable (file : Option (Content N)) (s : State N) : Prop :=
  match file with
  | none | some .notJson => True
  | some (.json (.obj data)) => Harmless data s
  | some .undecodable | some (.json _) => False

/-! ### Records -/

section
variable {clock : String → Json N} {now : Json N}

omit [Zero N] [DecidableEq N] in
theorem getItem_eq_ok_iff {d : List (String × Json N)} {key : String} {value : Json N} :
    getItem d key = .ok value ↔ d.lookup key = some value := by
  unfold getItem
  cases d.lookup key <;> simp

/-- A record is read, or refused with an exception that `load` catches. -/
theorem fromDict_cases (now : Json N) (rec : Json N) :
    (IsRecord rec ∧ ∃ r, CandidateRecord.fromDict now rec = .ok r) ∨
      (¬ IsRecord rec ∧ ∃ e, CandidateRecord.fromDict now rec = .error e ∧ caught e) := by
  cases rec with
  | obj d =>
    cases hname : d.lookup "name" with
    | none =>
      right
      have hitem : getItem d "name" = .error .keyError := by rw [getItem, hname]
      refine ⟨fun h => by simp [IsRecord, hname] at h, .keyError, ?_, rfl⟩
      rw [CandidateRecord.fromDict, hitem]
      rfl
    | some name =>
      have hitem : getItem d "name" = .ok name := getItem_eq_ok_iff.mpr hname
      cases hspec : d.lookup "spec" with
      | none =>
        right
        have hitem' : getItem d "spec" = .error .keyError := by rw [getItem, hspec]
        refine ⟨fun h => by simp [IsRecord, hspec] at h, .keyError, ?_, rfl⟩
        rw [CandidateRecord.fromDict, hitem, hitem']
        rfl
      | some spec =>
        left
        have hitem' : getItem d "spec" = .ok spec := getItem_eq_ok_iff.mpr hspec
        refine ⟨by simp [IsRecord, hname, hspec], ?_⟩
        rw [CandidateRecord.fromDict, hitem, hitem']
        exact ⟨_, rfl⟩
  | _ => exact Or.inr ⟨id, .typeError, rfl, rfl⟩

/-- The candidates of an object, all read or stopped at a record. -/
theorem mapM_candidateOf_cases (clock : String → Json N) (records : List (String × Json N)) :
    ((∀ e ∈ records, IsRecord e.2) ∧
        ∃ candidates, records.mapM (candidateOf clock) = .ok candidates) ∨
      ((¬ ∀ e ∈ records, IsRecord e.2) ∧
        ∃ error, records.mapM (candidateOf clock) = .error error ∧ caught error) := by
  induction records with
  | nil => exact Or.inl ⟨by simp, [], rfl⟩
  | cons e rest ih =>
    rw [List.mapM_cons, List.forall_mem_cons, candidateOf]
    rcases fromDict_cases (clock e.1) e.2 with ⟨he, r, hr⟩ | ⟨he, error, hr, hcaught⟩
    · rw [hr]
      rcases ih with ⟨hrest, candidates, hc⟩ | ⟨hrest, error, hc, hcaught⟩
      · left
        refine ⟨⟨he, hrest⟩, (e.1, r) :: candidates, ?_⟩
        rw [hc]
        rfl
      · right
        refine ⟨fun h => hrest h.2, error, ?_, hcaught⟩
        rw [hc]
        rfl
    · right
      rw [hr]
      exact ⟨fun h => he h.1, error, rfl, hcaught⟩

/-- A record that is saved is read as it was. -/
theorem fromDict_toDict {r : CandidateRecord N} (h : r.Normal) :
    CandidateRecord.fromDict now r.toDict = .ok r := by
  have hcreated : orElse r.createdAt now = r.createdAt := if_pos h.1
  have hmetrics : orElse r.metrics (.obj []) = r.metrics := by
    rcases h.2 with htruthy | hempty
    · exact if_pos htruthy
    · rw [hempty]
      rfl
  have hread : CandidateRecord.fromDict now r.toDict = .ok
      { r with
        createdAt := orElse r.createdAt now
        metrics := orElse r.metrics (.obj []) } := rfl
  rw [hread, hcreated, hmetrics]

/-- Names are not read from the records, but kept as the keys. -/
theorem candidatesOf_save {candidates : List (String × CandidateRecord N)}
    (h : ∀ e ∈ candidates, e.2.Normal) :
    (candidates.map fun e => (e.1, e.2.toDict)).mapM (candidateOf clock) = .ok candidates := by
  have hread (e : String × CandidateRecord N) (he : e.2.Normal) :
      candidateOf clock (e.1, e.2.toDict) = .ok e := by
    rw [candidateOf, fromDict_toDict he]
    rfl
  induction candidates with
  | nil => rfl
  | cons e rest ih =>
    rw [List.forall_mem_cons] at h
    rw [List.map_cons, List.mapM_cons, hread e h.1, ih h.2]
    rfl

/-- The file of a state describes it, up to the cycle stats that it leaves out. -/
theorem described_save {saved : State N} (h : ∀ e ∈ saved.candidates, e.2.Normal)
    {data : Json N} (hsave : saved.save = .ok data) :
    described clock (.json data) = some saved.kept := by
  cases hstats : lastHundred saved.cycleStats with
  | error e =>
    rw [State.save, hstats] at hsave
    cases hsave
  | ok stats =>
    rw [State.save, hstats] at hsave
    obtain rfl := Except.ok.inj hsave
    have hcandidates : candidatesOf clock [("cycle_number", saved.cycleNumber),
        ("last_cycle_time", saved.lastCycleTime),
        ("candidates", .obj (saved.candidates.map fun e => (e.1, e.2.toDict))),
        ("promotion_history", saved.promotionHistory),
        ("retirement_history", saved.retirementHistory), ("cycle_stats", stats)] =
          .ok saved.candidates := candidatesOf_save h
    simp only [described, hcandidates, State.kept, hstats]
    rfl

/-- A file that describes a state is loaded as a whole, with what is logged of it. -/
theorem load_of_described {content : Content N} {s s' : State N}
    (h : described clock content = some s') : load clock (some content) s = (s', none) := by
  unfold described at h
  split at h
  · rename_i data
    split at h
    · rename_i candidates hcandidates
      obtain rfl := Option.some.inj h
      simp only [load, loadData, hcandidates]
      split_ifs <;> rfl
    · cases h
  · cases h

/-- The fields that are set before the candidates are read. -/
theorem load_of_error {data : List (String × Json N)} {e : PyError}
    (h : candidatesOf clock data = .error e) (s : State N) :
    load clock (some (.json (.obj data))) s =
      ({ s with
          cycleNumber := getOr data "cycle_number" (.num 0)
          lastCycleTime := getOr data "last_cycle_time" (.num 0) },
        if caught e then none else some e) := by
  simp only [load, loadData, h]
  cases e <;> rfl

/-- The three ways an object ends: described as a whole, stopped at a record after the first
two fields, or raising where the candidates are not an object. -/
theorem object_cases (clock : String → Json N) (data : List (String × Json N)) :
    (∃ records, getOr data "candidates" (.obj []) = .obj records ∧
        ((∀ e ∈ records, IsRecord e.2) ∧ (∃ s', described clock (.json (.obj data)) = some s') ∨
          (¬ ∀ e ∈ records, IsRecord e.2) ∧
            ∃ e, candidatesOf clock data = .error e ∧ caught e)) ∨
      ((∀ records, getOr data "candidates" (.obj []) ≠ .obj records) ∧
        candidatesOf clock data = .error .attributeError) := by
  cases hfield : getOr data "candidates" (.obj []) with
  | obj records =>
    left
    refine ⟨records, rfl, ?_⟩
    have hread : candidatesOf clock data = records.mapM (candidateOf clock) := by
      rw [candidatesOf, hfield]
    rcases mapM_candidateOf_cases clock records with
      ⟨hall, candidates, hc⟩ | ⟨hall, e, hc, hcaught⟩
    · left
      refine ⟨hall, ?_⟩
      simp only [described, hread, hc]
      exact ⟨_, rfl⟩
    · exact Or.inr ⟨hall, e, hread.trans hc, hcaught⟩
  | _ =>
    right
    refine ⟨by simp, ?_⟩
    rw [candidatesOf, hfield]

theorem object_allOrNothing_iff (clock : String → Json N) (data : List (String × Json N))
    (s : State N) :
    ((load clock (some (.json (.obj data))) s).2 = none ∧
        ((load clock (some (.json (.obj data))) s).1 = s ∨
          described clock (.json (.obj data)) =
            some (load clock (some (.json (.obj data))) s).1)) ↔ Harmless data s := by
  rcases object_cases clock data with
    ⟨records, hfield, ⟨hall, s', hs'⟩ | ⟨hnot, e, he, hcaught⟩⟩ | ⟨hfield, he⟩
  · rw [load_of_described hs', Harmless, hfield]
    exact iff_of_true ⟨rfl, Or.inr hs'⟩ (Or.inl hall)
  · have hnone : described clock (.json (.obj data)) = none := by simp only [described, he]
    rw [load_of_error he, if_pos hcaught, hnone, Harmless, hfield]
    simp only [true_and, reduceCtorEq, or_false, hnot, false_or]
    constructor
    · intro heq
      exact ⟨congrArg State.cycleNumber heq, congrArg State.lastCycleTime heq⟩
    · rintro ⟨hnumber, htime⟩
      rw [hnumber, htime]
  · rw [load_of_error he]
    apply iff_of_false
    · intro h
      cases h.1
    · rw [Harmless]
      split
      · rename_i records hrecords
        exact absurd hrecords (hfield records)
      · exact id

end

/-- `__init__`. -/
def State.init : State N where
  cycleNumber := .num 0
  lastCycleTime := .num 0
  candidates := []
  promotionHistory := .arr []
  retirementHistory := .arr []
  cycleStats := .arr []

/-- The seventh cycle, with a candidate that has no spec. -/
def recordWithoutSpec : List (String × Json ℤ) :=
  [("cycle_number", .num 7), ("candidates", .obj [("macd", .obj [("name", .str "macd")])]),
    ("promotion_history", .arr [.obj [("name", .str "rsi")]])]

end TradeStream.OrchestrationState
