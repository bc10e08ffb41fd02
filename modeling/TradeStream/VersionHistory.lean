import TradeStream.RunSteps
import TradeStream.StrategyVersions

/-! Requests on one spec, a statement at a time: no transaction is opened, and each
statement commits by itself. -/
namespace TradeStream.VersionHistory
open TradeStream.JsonText TradeStream.StrategyVersions TradeStream.RunSteps

inductive Request (N : Type) where
  | create (changeDescription createdBy : Option String)
  | update (body : SpecUpdate N)
  | restore (versionNumber : ℕ) (changeDescription : Option String)

/-- The description and the author of the version that a request adds. -/
def Request.label {N : Type} : Request N → Option String × Option String
  | .create changeDescription createdBy => (changeDescription, createdBy)
  | .update _ => (some "Config updated", none)
  | .restore versionNumber changeDescription =>
    (some (restoreDescription changeDescription versionNumber), none)

/-- The statement that a request executes next, with what it has read. -/
inductive Phase (N : Type) where
  | updateSpec (body : SpecUpdate N)
  | selectSpec (versionNumber : ℕ)
  | selectVersion (versionNumber : ℕ)
  | restoreSpec (row : SpecRow N)
  | getSpec
  | maxVersion (spec : SpecRecord)
  | insert (version : VersionRow N)
  | ended (response : Response N)

/-- `updated` says whether the request has changed the row of the spec. -/
structure Process (N : Type) where
  phase : Phase N
  updated : Bool

def Request.begin {N : Type} : Request N → Process N
  | .create _ _ => ⟨.getSpec, false⟩
  | .update body => ⟨if body.isEmpty then .ended .noFields else .updateSpec body, false⟩
  | .restore versionNumber _ => ⟨.selectSpec versionNumber, false⟩

variable {N : Type} (numbers : NumberText N)

/-- A statement that succeeds, and the code up to the next one. -/
def execute (request : Request N) (db : Db N) (process : Process N) : Db N × Process N :=
  match process.phase with
  | .updateSpec body =>
    match db.spec with
    | none => (db, { process with phase := .ended .notFound })
    | some row =>
      match updatedRow numbers row body with
      | none => (db, { process with phase := .ended .raised })
      | some row => ({ db with spec := some row }, ⟨.getSpec, true⟩)
  | .selectSpec versionNumber =>
    match db.spec with
    | none => (db, { process with phase := .ended .notFound })
    | some _ => (db, { process with phase := .selectVersion versionNumber })
  | .selectVersion versionNumber =>
    match findVersion db versionNumber with
    | none => (db, { process with phase := .ended .notFound })
    | some version =>
      match restoredRow numbers (jsonbOut numbers version.configSnapshot) with
      | none => (db, { process with phase := .ended .raised })
      | some row => (db, { process with phase := .restoreSpec row })
  -- an `UPDATE` of its own, which is committed before the version is written
  | .restoreSpec row => ({ db with spec := db.spec.map fun _ => row }, ⟨.getSpec, true⟩)
  | .getSpec =>
    match getSpec numbers db with
    | none => (db, { process with phase := .ended .notFound })
    | some spec => (db, { process with phase := .maxVersion spec })
  | .maxVersion spec =>
    match versionRow numbers (specToSnapshot spec) (maxVersion db.versions + 1) request.label.1
      request.label.2 with
    | none => (db, { process with phase := .ended .raised })
    | some version => (db, { process with phase := .insert version })
  | .insert version =>
    match insertVersion db version with
    | none => (db, { process with phase := .ended .raised })
    | some db => (db, { process with phase := .ended (.created version) })
  | .ended _ => (db, process)

/-- The request alone, without a statement that fails. -/
def alone (request : Request N) (statements : ℕ) (db : Db N) : Db N × Process N :=
  (fun s : Db N × Process N => execute numbers request s.1 s.2)^[statements] (db, request.begin)

/-- A statement that fails raises; the statements before it stay. -/
def fail (process : Process N) : Process N :=
  match process.phase with
  | .ended _ => process
  | _ => { process with phase := .ended .raised }

structure World (ι N : Type) where
  db : Db N
  processes : ι → Process N

section
variable {ι : Type} [DecidableEq ι] (requests : ι → Request N)

/-- A spec with no versions yet. -/
def World.init (row : SpecRow N) : World ι N where
  db := ⟨some row, []⟩
  processes p := (requests p).begin

/-- The next statement of a request, and whether it succeeds. -/
structure Event (ι : Type) where
  request : ι
  succeeds : Bool

def World.step (world : World ι N) (e : Event ι) : World ι N :=
  if e.succeeds then
    let (db, process) := execute numbers (requests e.request) world.db (world.processes e.request)
    ⟨db, Function.update world.processes e.request process⟩
  else
    { world with
      processes := Function.update world.processes e.request (fail (world.processes e.request)) }

/-- The version numbers are distinct and consecutive from 1. -/
def Consecutive (versions : List (VersionRow N)) : Prop :=
  versions.map VersionRow.versionNumber = List.range' 1 versions.length

/-- A restore that has ended has changed the spec just when a version that describes it
is recorded. -/
def Recorded (request : Request N) (db : Db N) (process : Process N) : Prop :=
  ∀ versionNumber changeDescription response,
    request = .restore versionNumber changeDescription → process.phase = .ended response →
    (process.updated = true ↔ ∃ version ∈ db.versions, response = .created version ∧
      version.changeDescription = some (restoreDescription changeDescription versionNumber))

def World.Audited (world : World ι N) : Prop :=
  Consecutive world.db.versions ∧
    ∀ p, Recorded (requests p) world.db (world.processes p)

/-- Once a restore has changed the spec, none of its statements fails, and the number it
inserts is still free. -/
def RestoreCompletes (request : Request N) (db : Db N) (process : Process N) (succeeds : Bool) :
    Prop :=
  ∀ versionNumber changeDescription, request = .restore versionNumber changeDescription →
    match process.phase with
    | .getSpec => succeeds = true
    | .maxVersion _ => succeeds = true
    | .insert version =>
      succeeds = true ∧ version.versionNumber ∉ db.versions.map VersionRow.versionNumber
    | _ => True

end

theorem maxVersion_of_consecutive {versions : List (VersionRow N)} (h : Consecutive versions) :
    maxVersion versions = versions.length := by
  rw [maxVersion, h]
  apply le_antisymm
  · apply List.max_le_of_forall_le
    intro n hn
    rw [List.mem_range'_1] at hn
    omega
  · rcases Nat.eq_zero_or_pos versions.length with hzero | hpos
    · rw [hzero]
      exact Nat.zero_le _
    · apply List.le_max_of_le (List.mem_range'_1.mpr ?_) le_rfl
      omega

theorem Consecutive.append {versions : List (VersionRow N)} (h : Consecutive versions)
    {version : VersionRow N} (hpos : 1 ≤ version.versionNumber)
    (hle : version.versionNumber ≤ versions.length + 1)
    (hfree : version.versionNumber ∉ versions.map VersionRow.versionNumber) :
    Consecutive (versions ++ [version]) := by
  rw [h, List.mem_range'_1] at hfree
  have hnumber : version.versionNumber = 1 + versions.length := by omega
  rw [Consecutive, List.map_append, h, List.length_append, List.length_singleton,
    List.range'_1_concat, List.map_singleton, hnumber]

/-- What holds between two statements of a request. -/
structure Kept (request : Request N) (db : Db N) (process : Process N) : Prop where
  inserts : ∀ version, process.phase = .insert version →
    1 ≤ version.versionNumber ∧ version.versionNumber ≤ db.versions.length + 1 ∧
      version.changeDescription = request.label.1
  created : ∀ version, process.phase = .ended (.created version) →
    version ∈ db.versions ∧ version.changeDescription = request.label.1
  restores : ∀ versionNumber changeDescription,
    request = .restore versionNumber changeDescription →
      match process.phase with
      | .getSpec | .maxVersion _ | .insert _ | .ended (.created _) => process.updated = true
      | .ended .raised => True
      | _ => process.updated = false

theorem Kept.mono {request : Request N} {db db' : Db N} {process : Process N}
    (h : Kept request db process) (hversions : db.versions <+: db'.versions) :
    Kept request db' process where
  inserts version hphase := by
    have hi := h.inserts version hphase
    have hlen := hversions.length_le
    exact ⟨hi.1, by omega, hi.2.2⟩
  created version hphase :=
    ⟨hversions.subset (h.created version hphase).1, (h.created version hphase).2⟩
  restores := h.restores

theorem kept_begin (request : Request N) (db : Db N) : Kept request db request.begin := by
  cases request with
  | create changeDescription createdBy =>
    constructor <;> simp [Request.begin]
  | update body =>
    by_cases hempty : body.isEmpty <;> constructor <;> simp [Request.begin, hempty]
  | restore versionNumber changeDescription =>
    constructor <;> simp [Request.begin]

theorem insertVersion_eq_some_iff {db db' : Db N} (hspec : db.spec.isSome = true)
    {version : VersionRow N} :
    insertVersion db version = some db' ↔
      version.versionNumber ∉ db.versions.map VersionRow.versionNumber ∧
        db' = { db with versions := db.versions ++ [version] } := by
  rw [insertVersion]
  split_ifs with h
  · rw [Option.some.injEq]
    exact ⟨fun heq => ⟨h.2, heq.symm⟩, fun heq => heq.2.symm⟩
  · simp only [false_iff]
    exact fun heq => h ⟨hspec, heq.1⟩

/-- The last three statements of every request are `create_version_snapshot`. -/
theorem execute_createVersionSnapshot (request : Request N) {db : Db N} {row : SpecRow N}
    (h : db.spec = some row) (updated : Bool) :
    (fun s : Db N × Process N => execute numbers request s.1 s.2)^[3] (db, ⟨.getSpec, updated⟩) =
      ((createVersionSnapshot numbers db request.label.1 request.label.2).2,
        ⟨.ended (createVersionSnapshot numbers db request.label.1 request.label.2).1, updated⟩) := by
  have hinsert := insertVersion_next (show db.spec.isSome = true by rw [h]; rfl)
    (show (nextVersion numbers row db.versions request.label.1 request.label.2).versionNumber =
      maxVersion db.versions + 1 from rfl)
  simp only [nextVersion] at hinsert
  rw [createVersionSnapshot_some numbers h]
  simp [Function.iterate_succ_apply, execute, getSpec, h, versionRow, jsonbIn_dumps, hinsert,
    nextVersion]

/-- With no other request between its statements, a restore is `restoreVersion`. -/
theorem alone_restore {db : Db N} {row : SpecRow N} (h : db.spec = some row) (versionNumber : ℕ)
    (changeDescription : Option String) :
    (alone numbers (.restore versionNumber changeDescription) 6 db).1 =
        (restoreVersion numbers db versionNumber changeDescription).2 ∧
      (alone numbers (.restore versionNumber changeDescription) 6 db).2.phase =
        .ended (restoreVersion numbers db versionNumber changeDescription).1 := by
  cases hfind : findVersion db versionNumber with
  | none =>
    simp [alone, Function.iterate_succ_apply, Request.begin, execute, restoreVersion, h, hfind]
  | some version =>
    cases hrow : restoredRow numbers (jsonbOut numbers version.configSnapshot) with
    | none =>
      simp [alone, Function.iterate_succ_apply, Request.begin, execute, restoreVersion, h, hfind,
        hrow]
    | some row' =>
      have hcreate := execute_createVersionSnapshot numbers
        (.restore versionNumber changeDescription) (show (Db.mk (some row') db.versions).spec =
          some row' from rfl) true
      -- three statements up to the update, and the three of the snapshot
      have hfirst : (fun s : Db N × Process N =>
          execute numbers (.restore versionNumber changeDescription) s.1 s.2)^[3]
            (db, Request.begin (.restore versionNumber changeDescription)) =
          (⟨some row', db.versions⟩, ⟨.getSpec, true⟩) := by
        simp [Function.iterate_succ_apply, Request.begin, execute, h, hfind, hrow]
      have hrestore : restoreVersion numbers db versionNumber changeDescription =
          createVersionSnapshot numbers ⟨some row', db.versions⟩
            (some (restoreDescription changeDescription versionNumber)) none := by
        simp only [restoreVersion, h, hfind, hrow]
        rw [createVersionSnapshot_some numbers rfl]
      simp only [Request.label] at hcreate
      rw [alone, Function.iterate_add_apply _ 3 3, hfirst, hcreate, hrestore]
      simp

/-- What a statement leaves behind. -/
structure Executed (request : Request N) (db db' : Db N) (process' : Process N) : Prop where
  consecutive : Consecutive db'.versions
  spec : db'.spec.isSome = true
  versions : db.versions <+: db'.versions
  kept : Kept request db' process'

theorem executed {request : Request N} {db : Db N} {process : Process N}
    (hcons : Consecutive db.versions) (hspec : db.spec.isSome = true)
    (h : Kept request db process) :
    Executed request db (execute numbers request db process).1
      (execute numbers request db process).2 := by
  have hstay {process' : Process N} (hkept : Kept request db process') :
      Executed request db db process' := ⟨hcons, hspec, List.prefix_rfl, hkept⟩
  have hrestores := h.restores
  obtain ⟨row, hrow⟩ := Option.isSome_iff_exists.mp hspec
  obtain ⟨phase, updated⟩ := process
  cases phase with
  | updateSpec body =>
    simp only [execute, hrow]
    cases updatedRow numbers row body with
    | none => exact hstay ⟨by simp, by simp, by simp⟩
    | some row' => exact ⟨hcons, rfl, List.prefix_rfl, by simp, by simp, by simp⟩
  | selectSpec versionNumber =>
    simp only [execute, hrow]
    exact hstay ⟨by simp, by simp, by simpa using hrestores⟩
  | selectVersion versionNumber =>
    simp only [execute]
    cases findVersion db versionNumber with
    | none => exact hstay ⟨by simp, by simp, by simpa using hrestores⟩
    | some version =>
      simp only
      cases restoredRow numbers (jsonbOut numbers version.configSnapshot) with
      | none => exact hstay ⟨by simp, by simp, by simp⟩
      | some row' => exact hstay ⟨by simp, by simp, by simpa using hrestores⟩
  | restoreSpec row' =>
    simp only [execute, hrow]
    exact ⟨hcons, rfl, List.prefix_rfl, by simp, by simp, by simp⟩
  | getSpec =>
    simp only [execute, getSpec, hrow, Option.map_some]
    exact hstay ⟨by simp, by simp, by simpa using hrestores⟩
  | maxVersion spec =>
    simp only [execute, versionRow, jsonbIn_dumps, Option.map_some]
    have hmax := maxVersion_of_consecutive hcons
    refine hstay ⟨?_, by simp, by simpa using hrestores⟩
    -- the number is one more than there are versions now; others may come in between
    rintro version ⟨⟩
    exact ⟨by simp, by simp [hmax], rfl⟩
  | insert version =>
    obtain ⟨hpos, hle, hlabel⟩ := h.inserts version rfl
    simp only [execute]
    cases hinsert : insertVersion db version with
    | none => exact hstay ⟨by simp, by simp, by simp⟩
    | some db' =>
      -- a free number that is at most one more than the versions is the next
      obtain ⟨hfree, rfl⟩ := (insertVersion_eq_some_iff hspec).mp hinsert
      refine ⟨hcons.append hpos hle hfree, hspec, List.prefix_append _ _, by simp, ?_,
        by simpa using hrestores⟩
      rintro version' ⟨⟩
      exact ⟨by simp, hlabel⟩
  | ended response => exact hstay h

/-- Of a request in good order only this can be wrong: it raised after its update. -/
theorem recorded_iff {request : Request N} {db : Db N} {process : Process N}
    (h : Kept request db process) :
    Recorded request db process ↔ ∀ versionNumber changeDescription,
      request = .restore versionNumber changeDescription → process.phase = .ended .raised →
        process.updated = false := by
  constructor
  · intro hrec versionNumber changeDescription hrequest hphase
    have hiff := hrec versionNumber changeDescription .raised hrequest hphase
    simpa using hiff
  · intro hraised versionNumber changeDescription response hrequest hphase
    have hrestores := h.restores versionNumber changeDescription hrequest
    rw [hphase] at hrestores
    -- a request that found nothing to restore has not changed the spec
    cases response with
    | raised => simp [hraised versionNumber changeDescription hrequest hphase]
    | created version =>
      obtain ⟨hmem, hlabel⟩ := h.created version hphase
      rw [hrequest] at hlabel
      simp only at hrestores
      simp only [hrestores, true_iff]
      exact ⟨version, hmem, rfl, hlabel⟩
    | notFound => simp_all
    | noFields => simp_all
    | serverError => simp_all

theorem recorded_execute_iff {request : Request N} {db : Db N} {process : Process N}
    (hcons : Consecutive db.versions) (hspec : db.spec.isSome = true)
    (h : Kept request db process) (hrec : Recorded request db process) :
    Recorded request (execute numbers request db process).1 (execute numbers request db process).2 ↔
      RestoreCompletes request db process true := by
  have hkept := (executed numbers hcons hspec h).kept
  rw [recorded_iff hkept]
  rw [recorded_iff h] at hrec
  apply forall_congr'
  intro versionNumber
  apply forall_congr'
  intro changeDescription
  apply imp_congr_right
  intro hrequest
  have hrestores := h.restores versionNumber changeDescription hrequest
  have hraised := hrec versionNumber changeDescription hrequest
  obtain ⟨row, hrow⟩ := Option.isSome_iff_exists.mp hspec
  obtain ⟨phase, updated⟩ := process
  -- of the statements after the update, only the insert can raise by itself
  cases phase with
  | updateSpec body =>
    simp only at hrestores
    simp only [execute, hrow]
    cases updatedRow numbers row body <;> simp [hrestores]
  | selectSpec n =>
    simp [execute, hrow]
  | selectVersion n =>
    simp only at hrestores
    simp only [execute]
    cases findVersion db n with
    | none => simp
    | some version =>
      simp only
      cases restoredRow numbers (jsonbOut numbers version.configSnapshot) <;> simp [hrestores]
  | restoreSpec row' => simp [execute]
  | getSpec => simp [execute, getSpec, hrow]
  | maxVersion spec => simp [execute, versionRow, jsonbIn_dumps]
  | insert version =>
    simp only at hrestores
    simp only [execute, true_and]
    cases hinsert : insertVersion db version with
    | none =>
      have hnone : ¬ (db.spec.isSome = true ∧
          version.versionNumber ∉ db.versions.map VersionRow.versionNumber) := by
        intro hfree
        rw [insertVersion, if_pos hfree] at hinsert
        cases hinsert
      simp only [hspec, true_and] at hnone
      simp only [hrestores, hnone, iff_false]
      simp
    | some db' =>
      have hfree := ((insertVersion_eq_some_iff hspec).mp hinsert).1
      simp only [hfree, not_false_eq_true]
      simp
  | ended response => simpa [execute] using hraised

theorem kept_fail {request : Request N} {db : Db N} {process : Process N}
    (h : Kept request db process) : Kept request db (fail process) := by
  obtain ⟨phase, updated⟩ := process
  cases phase with
  | ended response => exact h
  | _ => exact ⟨by simp [fail], by simp [fail], by simp [fail]⟩

theorem recorded_fail_iff {request : Request N} {db : Db N} {process : Process N}
    (h : Kept request db process) (hrec : Recorded request db process) :
    Recorded request db (fail process) ↔ RestoreCompletes request db process false := by
  rw [recorded_iff (kept_fail h)]
  rw [recorded_iff h] at hrec
  apply forall_congr'
  intro versionNumber
  apply forall_congr'
  intro changeDescription
  apply imp_congr_right
  intro hrequest
  have hrestores := h.restores versionNumber changeDescription hrequest
  have hraised := hrec versionNumber changeDescription hrequest
  obtain ⟨phase, updated⟩ := process
  cases phase with
  | ended response => simpa [fail] using hraised
  | _ =>
    simp only at hrestores
    simp [fail, hrestores]

section
variable {ι : Type} [DecidableEq ι] (requests : ι → Request N)

/-- What holds whatever happens. -/
structure Inv (world : World ι N) : Prop where
  consecutive : Consecutive world.db.versions
  spec : world.db.spec.isSome = true
  kept : ∀ p, Kept (requests p) world.db (world.processes p)

omit [DecidableEq ι] in
theorem inv_init (row : SpecRow N) : Inv requests (World.init requests row) where
  consecutive := rfl
  spec := rfl
  kept p := kept_begin (requests p) _

theorem inv_step {world : World ι N} (h : Inv requests world) (e : Event ι) :
    Inv requests (world.step numbers requests e) := by
  have hexecuted := executed numbers h.consecutive h.spec (h.kept e.request)
  unfold World.step
  split
  · refine ⟨hexecuted.consecutive, hexecuted.spec, ?_⟩
    intro p
    simp only [Function.update_apply]
    split_ifs with hp
    · rw [hp]
      exact hexecuted.kept
    · exact (h.kept p).mono hexecuted.versions
  · refine ⟨h.consecutive, h.spec, ?_⟩
    intro p
    simp only [Function.update_apply]
    split_ifs with hp
    · rw [hp]
      exact kept_fail (h.kept e.request)
    · exact h.kept p

/-- Of the other requests, nothing that matters changes. -/
theorem recorded_mono {request : Request N} {db db' : Db N} {process : Process N}
    (h : Kept request db process) (hversions : db.versions <+: db'.versions)
    (hrec : Recorded request db process) : Recorded request db' process := by
  rw [recorded_iff h] at hrec
  rwa [recorded_iff (h.mono hversions)]

theorem audited_step_iff {world : World ι N} (h : Inv requests world)
    (haudited : world.Audited requests) (e : Event ι) :
    (world.step numbers requests e).Audited requests ↔
      RestoreCompletes (requests e.request) world.db (world.processes e.request) e.succeeds := by
  have hinv := inv_step numbers requests h e
  have hexecuted := executed numbers h.consecutive h.spec (h.kept e.request)
  have hrec := haudited.2 e.request
  obtain ⟨p, succeeds⟩ := e
  simp only [World.Audited, hinv.consecutive, true_and]
  cases succeeds with
  | true =>
    rw [← recorded_execute_iff numbers h.consecutive h.spec (h.kept p) hrec]
    constructor
    · intro hall
      simpa [World.step] using hall p
    · intro hp q
      by_cases hq : q = p
      · subst hq
        simpa [World.step] using hp
      · -- another request sees only that there may be one version more
        have hmono := recorded_mono (h.kept q) hexecuted.versions (haudited.2 q)
        simpa [World.step, hq] using hmono
  | false =>
    rw [← recorded_fail_iff (h.kept p) hrec]
    constructor
    · intro hall
      simpa [World.step] using hall p
    · intro hp q
      by_cases hq : q = p
      · subst hq
        simpa [World.step] using hp
      · simpa [World.step, hq] using haudited.2 q

omit [DecidableEq ι] in
theorem audited_init (row : SpecRow N) : (World.init requests row).Audited requests := by
  refine ⟨rfl, ?_⟩
  intro p
  refine (recorded_iff (kept_begin (requests p) _)).mpr ?_
  intro versionNumber changeDescription hrequest
  simp [hrequest, Request.begin]

/-- The numbers are in order in every run. -/
theorem consecutive_run (row : SpecRow N) (events : List (Event ι)) :
    Consecutive (events.foldl (World.step numbers requests) (World.init requests row)).db.versions := by
  have hinv : Inv requests
      (events.foldl (World.step numbers requests) (World.init requests row)) := by
    apply List.foldlRecOn
    · exact inv_init requests row
    · exact fun world h e _ => inv_step numbers requests h e
  exact hinv.consecutive

/-- In every state that any interleaving of the requests reaches, the numbers are
consecutive and the restores that have ended are recorded just when they took effect: if
and only if every restore completes once it has changed the spec. -/
theorem audited_iff (row : SpecRow N) (events : List (Event ι)) :
    (∀ reached, reached <+: events →
      (reached.foldl (World.step numbers requests) (World.init requests row)).Audited requests) ↔
    ∀ earlier e, earlier ++ [e] <+: events →
      let world := earlier.foldl (World.step numbers requests) (World.init requests row)
      RestoreCompletes (requests e.request) world.db (world.processes e.request) e.succeeds := by
  apply forall_reached_iff_forall_step (World.step numbers requests) (I := Inv requests)
    (P := fun world => world.Audited requests)
    (C := fun world e =>
      RestoreCompletes (requests e.request) world.db (world.processes e.request) e.succeeds)
  · exact fun world e h => inv_step numbers requests h e
  · exact fun world e h haudited => audited_step_iff numbers requests h haudited e
  · exact inv_init requests row
  · exact audited_init requests row

end

/-- A snapshot, a restore of it, and an edit at the same time. -/
def raceRequests : Fin 3 → Request ℤ
  | 0 => .create none none
  | 1 => .restore 1 none
  | 2 => .create none none

def raceEvents : List (Event (Fin 3)) :=
  [0, 0, 0, 1, 1, 1, 1, 1, 2, 2, 2, 1].map fun p => ⟨p, true⟩

/-- After these events the restore has changed the spec and raised, whatever the spec. -/
theorem phase_raceEvents (requests : Fin 3 → Request N) (row : SpecRow N)
    (hcreate : requests 0 = .create none none) (hrestore : requests 1 = .restore 1 none)
    (hedit : requests 2 = .create none none) :
    ((raceEvents.foldl (World.step numbers requests) (World.init requests row)).processes 1).phase =
        .ended .raised ∧
      ((raceEvents.foldl (World.step numbers requests)
        (World.init requests row)).processes 1).updated = true := by
  simp [raceEvents, World.init, World.step, hcreate, hrestore, hedit, Request.begin, execute,
    getSpec, versionRow, jsonbIn_dumps, insertVersion, maxVersion, findVersion,
    restoredRow_specToSnapshot]

def bareSpec : SpecRow ℤ := ⟨"RSI", .obj [], .obj [], .obj [], .obj [], none⟩

def raceWorld : World (Fin 3) ℤ :=
  raceEvents.foldl (World.step integerText raceRequests) (World.init raceRequests bareSpec)

/-- The edit takes the number that the restore is about to insert. -/
theorem race_not_audited : ¬ raceWorld.Audited raceRequests := by
  intro h
  rw [raceWorld] at h
  obtain ⟨hphase, hupdated⟩ :=
    phase_raceEvents integerText raceRequests bareSpec rfl rfl rfl
  obtain ⟨version, -, hresponse, -⟩ := (h.2 1 1 none .raised rfl hphase).mp hupdated
  cases hresponse

end TradeStream.VersionHistory
