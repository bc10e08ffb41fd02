import TradeStream.Interleaving
import TradeStream.JanitorAgent
import TradeStream.RetirementLog

/-! Reactivations of retired implementations, a statement at a time, among retirements and
repairs of the retirement log. -/
namespace TradeStream.Reactivation
open TradeStream.Interleaving TradeStream.RetirementLog TradeStream.RowNumber
open TradeStream.RetirementCriteria (day)
open TradeStream.JanitorAgent (Status)
open scoped List

/-- What a reactivation reads of the `RetirementConfig`. -/
structure Config where
  maxReactivationAttempts : ℤ := 2
  reactivationCooldownDays : ℤ := 30

/-- A row of `reactivation_log`. -/
structure ReactivationRow where
  implId : String
  reason : String
  requester : String
  reactivatedAt : ℤ

structure Db where
  /-- The status of each implementation there is. -/
  status : String → Option Status
  retirementLog : LogTable
  reactivationLog : List ReactivationRow

inductive Event where
  | retired (implId : String) (time : ℤ)
  | reactivated (implId : String) (time : ℤ)

/-- The tables, and what has been done to them. -/
structure Observed where
  db : Db
  history : List Event := []

structure Answer where
  success : Bool
  details : Option String := none
  error : Option String := none

/-- The statement that a request executes next. -/
inductive Phase where
  | getRetirementInfo
  | getReactivationCount (daysSince : ℤ) (canReactivateFlag : Bool)
  | update
  | answered (answer : Answer)
  | raised

structure Request where
  implId : String
  reason : String
  requester : String
  phase : Phase := .getRetirementInfo

/-- When a statement is executed, and the text of its exception if it fails. -/
structure Input where
  now : ℤ
  failure : Option String := none

variable (config : Config)

def canReactivate (reactivationCount daysSinceRetirement : ℤ) (canReactivateFlag : Bool) :
    Bool × String :=
  if !canReactivateFlag then (false, "Implementation marked as non-reactivatable")
  else if reactivationCount ≥ config.maxReactivationAttempts then
    (false, "Maximum reactivation attempts (" ++ toString config.maxReactivationAttempts ++
      ") exceeded")
  else if daysSinceRetirement < config.reactivationCooldownDays then
    (false, "Cooling off period: " ++
      toString (config.reactivationCooldownDays - daysSinceRetirement) ++ " days remaining")
  else (true, "Eligible for reactivation")

/-- The row that `ORDER BY retired_at DESC LIMIT 1` finds. -/
def getRetirementInfo (log : LogTable) (implId : String) : Option LogRow :=
  firstBy NoEarlier (log.rows.filter fun row => row.implId = some implId)

def reactivationRows (db : Db) (implId : String) : ℕ :=
  db.reactivationLog.countP fun row => row.implId = implId

/-- A query that fails finds none. -/
def getReactivationCount (db : Db) (implId : String) (input : Input) : ℕ :=
  if input.failure.isSome then 0 else reactivationRows db implId

def noRetirementRecord : Answer where
  success := false
  error := some "No retirement record found"

/-- The first statement of `JanitorAgent.reactivate_implementation`. A missing row and a failed
query are one. -/
def informed (db : Db) (request : Request) (input : Input) : Phase :=
  match if input.failure.isSome then none
    else getRetirementInfo db.retirementLog request.implId with
  | none => .answered noRetirementRecord
  | some row =>
    match row.retiredAt with
    -- a null has no `replace`
    | none => .raised
    | some retiredAt =>
      .getReactivationCount ((input.now - retiredAt) / day) (row.canReactivate.getD false)

/-- The second one. -/
def checked (db : Db) (request : Request) (daysSince : ℤ) (flag : Bool) (input : Input) : Phase :=
  let (eligible, message) :=
    canReactivate config (getReactivationCount db request.implId input) daysSince flag
  if eligible then .update else .answered { success := false, error := some message }

/-- `PostgreSQLMaintenance.reactivate_implementation`, one transaction. -/
def reactivate (observed : Observed) (request : Request) (input : Input) : Observed × Answer :=
  match input.failure with
  | some error =>
    (observed, {
      success := false
      details := some ("Failed to reactivate implementation " ++ request.implId)
      error := some error })
  | none =>
    if observed.db.status request.implId = some .RETIRED then
      ({ db := { observed.db with
          status := Function.update observed.db.status request.implId (some .VALIDATING)
          reactivationLog := observed.db.reactivationLog ++
            [⟨request.implId, request.reason, request.requester, input.now⟩] }
         history := observed.history ++ [.reactivated request.implId input.now] },
        { success := true
          details := some ("Implementation " ++ request.implId ++ " reactivated: " ++
            request.reason) })
    else
      (observed, {
        success := false
        details := some ("Implementation " ++ request.implId ++ " not found or not retired") })

def execute (input : Input) (observed : Observed) (request : Request) : Observed × Request :=
  match request.phase with
  | .getRetirementInfo => (observed, { request with phase := informed observed.db request input })
  | .getReactivationCount daysSince flag =>
    (observed, { request with phase := checked config observed.db request daysSince flag input })
  | .update =>
    let (observed, answer) := reactivate observed request input
    (observed, { request with phase := .answered answer })
  | .answered _ | .raised => (observed, request)

def retirementRow (logId implId reason agentReasoning : String) (now : ℤ) : LogRow where
  logId := logId
  implId := some implId
  specId := none
  retirementType := "implementation"
  reason := reason
  agentReasoning := some agentReasoning
  retiredAt := some now
  canReactivate := some true

/-- The table with one row more, whose id is new. -/
def addRow (log : LogTable) (row : LogRow) (h : row.logId ∉ log.rows.map (·.logId)) : LogTable where
  rows := log.rows ++ [row]
  primaryKey := by
    rw [List.map_append, List.map_singleton]
    exact List.nodup_append_comm.mp (List.nodup_cons.mpr ⟨h, log.primaryKey⟩)

/-- `execute_retirement`, one transaction. `logId` is the id that the table makes, which fails if
there is a row with it. -/
def executeRetirement (observed : Observed) (logId implId reason agentReasoning : String)
    (now : ℤ) : Observed :=
  if h : logId ∉ observed.db.retirementLog.rows.map (·.logId) then
    if observed.db.status implId = none ∨ observed.db.status implId = some .RETIRED then observed
    else
      { db := { observed.db with
          status := Function.update observed.db.status implId (some .RETIRED)
          retirementLog := addRow observed.db.retirementLog
            (retirementRow logId implId reason agentReasoning now) h }
        history := observed.history ++ [.retired implId now] }
  else observed

/-- A turn of a request, or of one of the other parties. -/
inductive Turn (ι : Type*) where
  | request (i : ι) (input : Input)
  | executeRetirement (logId implId reason agentReasoning : String) (now : ℤ)
  | repairDuplicateRetirementLogs
  /-- Another service writes a status. -/
  | setStatus (implId : String) (status : Status)

variable {ι : Type*} [DecidableEq ι]

def step (world : World ι Observed Request) : Turn ι → World ι Observed Request
  | .request i input => world.step (fun _ => execute config) ⟨i, input⟩
  | .executeRetirement logId implId reason agentReasoning now =>
    { world with db := executeRetirement world.db logId implId reason agentReasoning now }
  | .repairDuplicateRetirementLogs =>
    { world with db := { world.db with db := { world.db.db with
        retirementLog := repairDuplicateRetirementLogs world.db.db.retirementLog } } }
  | .setStatus implId status =>
    { world with db := { world.db with db := { world.db.db with
        status := fun id =>
          if id = implId then (world.db.db.status id).map fun _ => status
          else world.db.db.status id } } }

def run (world : World ι Observed Request) (turns : List (Turn ι)) : World ι Observed Request :=
  turns.foldl (step config) world

/-! ### How often an implementation is reactivated -/

/-- The request has been found eligible and has still to update the implementation. -/
def Eligible (implId : String) (_ : ι) (request : Request) : Prop :=
  request.implId = implId ∧ request.phase = .update

/-- The turn is a count of reactivations that fails. -/
def CountFails (world : World ι Observed Request) : Turn ι → Prop
  | .request i input =>
    input.failure.isSome ∧
      ∃ daysSince flag, (world.processes i).phase = .getReactivationCount daysSince flag
  | _ => False

def reactivations (implId : String) (observed : Observed) : ℕ :=
  reactivationRows observed.db implId

omit [DecidableEq ι] in
theorem le_of_canReactivate {count daysSince : ℤ} {flag : Bool}
    (h : (canReactivate config count daysSince flag).1 = true) :
    count < config.maxReactivationAttempts ∧ config.reactivationCooldownDays ≤ daysSince := by
  unfold canReactivate at h
  split_ifs at h with hflag hcount hcool
  exact ⟨not_le.mp hcount, not_lt.mp hcool⟩

omit [DecidableEq ι] in
theorem of_checked {db : Db} {request : Request} {daysSince : ℤ} {flag : Bool} {input : Input}
    (h : checked config db request daysSince flag input = .update) :
    config.reactivationCooldownDays ≤ daysSince ∧
      (input.failure.isSome = false →
        (reactivationRows db request.implId : ℤ) < config.maxReactivationAttempts) := by
  simp only [checked] at h
  split_ifs at h with heligible
  obtain ⟨hcount, hcool⟩ := le_of_canReactivate config heligible
  refine ⟨hcool, fun hanswered => ?_⟩
  simpa [getReactivationCount, hanswered] using hcount

section
variable {config} {world : World ι Observed Request} {implId : String}

/-- The number of reactivations, with those to come of requests that have been found eligible. -/
noncomputable def granted (implId : String) (world : World ι Observed Request) : ℕ∞ :=
  booked (reactivations implId) (Eligible implId) world

theorem granted_of_not_eligible {i : ι} {request : Request}
    (hbefore : ¬ Eligible implId i (world.processes i)) (hafter : ¬ Eligible implId i request) :
    granted implId ⟨world.db, Function.update world.processes i request⟩ =
      granted implId world := by
  rw [granted, granted, booked, booked, tally_update_of_iff (iff_of_false hafter hbefore)]

/-- A transaction moves one from those to come to those that are done, or drops it. -/
theorem granted_of_update {i : ι} (hphase : (world.processes i).phase = .update) (input : Input) :
    granted implId ⟨(reactivate world.db (world.processes i) input).1,
        Function.update world.processes i { world.processes i with
          phase := .answered (reactivate world.db (world.processes i) input).2 }⟩ ≤
      granted implId world := by
  by_cases himpl : (world.processes i).implId = implId
  · have hbefore : Eligible implId i (world.processes i) := ⟨himpl, hphase⟩
    have hafter : ¬ Eligible implId i { world.processes i with
        phase := .answered (reactivate world.db (world.processes i) input).2 } :=
      fun h => Phase.noConfusion h.2
    have hvalue : reactivations implId (reactivate world.db (world.processes i) input).1 ≤
        reactivations implId world.db + 1 := by
      unfold reactivate reactivations reactivationRows
      split
      · exact Nat.le_succ _
      · split_ifs
        · simp [himpl]
        · exact Nat.le_succ _
    rw [granted, granted, booked, booked, ← tally_update_add_one hbefore hafter, ← add_assoc,
      add_right_comm]
    gcongr
    exact_mod_cast hvalue
  · have hvalue : reactivations implId (reactivate world.db (world.processes i) input).1 =
        reactivations implId world.db := by
      unfold reactivate reactivations reactivationRows
      split
      · rfl
      · split_ifs
        · simp [himpl]
        · rfl
    rw [granted, granted, booked, booked, hvalue,
      tally_update_of_iff (iff_of_false (fun h => himpl h.1) fun h => himpl h.1)]

theorem processes_step_request (i : ι) (input : Input) :
    step config world (.request i input) =
      ⟨(execute config input world.db (world.processes i)).1,
        Function.update world.processes i
          (execute config input world.db (world.processes i)).2⟩ := rfl

/-- A turn adds to what is granted only where a request is found eligible, and then the
implementation has been reactivated less often than is allowed. -/
theorem granted_step {k : ℕ} (hpos : 0 < k)
    (hgranted : granted implId world ≤ (config.maxReactivationAttempts.toNat + (k - 1) : ℕ))
    {turn : Turn ι} (hcounts : ¬ CountFails world turn)
    (hk : tally (Eligible implId) (step config world turn).processes ≤ k) :
    granted implId (step config world turn) ≤
      (config.maxReactivationAttempts.toNat + (k - 1) : ℕ) := by
  cases turn with
  | executeRetirement logId id reason agentReasoning now =>
    have hsame : reactivations implId
        (executeRetirement world.db logId id reason agentReasoning now) =
        reactivations implId world.db := by
      unfold executeRetirement
      split_ifs <;> rfl
    rw [granted, booked] at hgranted ⊢
    rw [step, hsame]
    exact hgranted
  | repairDuplicateRetirementLogs => exact hgranted
  | setStatus id status => exact hgranted
  | request i input =>
    rw [processes_step_request] at hk ⊢
    cases hphase : (world.processes i).phase with
    | getRetirementInfo =>
      simp only [execute, hphase] at hk ⊢
      rw [granted_of_not_eligible]
      · exact hgranted
      · rintro ⟨-, h⟩
        rw [hphase] at h
        cases h
      · rintro ⟨-, h⟩
        simp only [informed] at h
        split at h
        · cases h
        · split at h <;> cases h
    | getReactivationCount daysSince flag =>
      simp only [execute, hphase] at hk ⊢
      have hanswered : input.failure.isSome = false := by
        rw [← Bool.not_eq_true]
        exact fun hfails => hcounts ⟨hfails, daysSince, flag, hphase⟩
      by_cases hafter : Eligible implId i { world.processes i with
          phase := checked config world.db.db (world.processes i) daysSince flag input }
      · have hcount := (of_checked config hafter.2).2 hanswered
        have himpl : (world.processes i).implId = implId := hafter.1
        rw [himpl] at hcount
        have hvalue : reactivations implId world.db + k ≤
            config.maxReactivationAttempts.toNat + (k - 1) := by
          rw [reactivations]
          omega
        calc granted implId _ ≤ (reactivations implId world.db : ℕ∞) + k := by
              rw [granted, booked]
              gcongr
          _ ≤ (config.maxReactivationAttempts.toNat + (k - 1) : ℕ) := by exact_mod_cast hvalue
      · rw [granted_of_not_eligible _ hafter]
        · exact hgranted
        · rintro ⟨-, h⟩
          rw [hphase] at h
          cases h
    | update =>
      simp only [execute, hphase]
      exact (granted_of_update hphase input).trans hgranted
    | answered answer =>
      simp only [execute, hphase, Function.update_eq_self]
      exact hgranted
    | raised =>
      simp only [execute, hphase, Function.update_eq_self]
      exact hgranted

end

/-- Where never more than `k` requests for an implementation are between their check and their
update, it is reactivated at most `k - 1` times more often than is allowed. -/
theorem reactivations_le {k : ℕ} (hpos : 0 < k) {world : World ι Observed Request}
    (hstart : ∀ i, (world.processes i).phase = .getRetirementInfo) {implId : String}
    (hcount : reactivations implId world.db ≤ config.maxReactivationAttempts.toNat)
    {turns : List (Turn ι)}
    (hanswered : ∀ earlier turn, earlier ++ [turn] <+: turns →
      ¬ CountFails (run config world earlier) turn)
    (htogether : ∀ earlier, earlier <+: turns →
      tally (Eligible implId) (run config world earlier).processes ≤ k) :
    reactivations implId (run config world turns).db ≤
      config.maxReactivationAttempts.toNat + (k - 1) := by
  have hgranted : granted implId (run config world turns) ≤
      (config.maxReactivationAttempts.toNat + (k - 1) : ℕ) := by
    induction turns using List.reverseRecOn with
    | nil =>
      have hnone : tally (Eligible implId) world.processes = 0 := by
        apply tally_eq_zero
        rintro i ⟨-, h⟩
        rw [hstart] at h
        cases h
      rw [run, List.foldl_nil, granted, booked, hnone, add_zero]
      exact_mod_cast hcount.trans (Nat.le_add_right _ _)
    | append_singleton turns turn ih =>
      have hbefore := ih
        (fun earlier turn' h => hanswered earlier turn' (h.trans (List.prefix_append _ _)))
        (fun earlier h => htogether earlier (h.trans (List.prefix_append _ _)))
      have hrun : run config world (turns ++ [turn]) =
          step config (run config world turns) turn := by
        rw [run, List.foldl_append]
        rfl
      rw [hrun]
      apply granted_step hpos hbefore (hanswered turns turn List.prefix_rfl)
      rw [← hrun]
      exact htogether _ List.prefix_rfl
  exact_mod_cast le_self_add.trans hgranted

/-- One implementation, and a request for it. -/
def oneImplementation : World Unit Observed Request where
  db := { db := {
    status := fun implId => if implId = "a" then some .VALIDATED else none
    retirementLog := ⟨[], List.nodup_nil⟩
    reactivationLog := [] } }
  processes := fun _ => { implId := "a", reason := "retest", requester := "ops" }

/-- It is retired, and reactivated after 40 days. -/
def fortyDays : List (Turn Unit) :=
  [.executeRetirement "1" "a" "low Sharpe" "" 0, .request () ⟨40 * day, none⟩,
    .request () ⟨40 * day, none⟩, .request () ⟨40 * day, none⟩]

theorem fortyDays_le : reactivations "a" (run {} oneImplementation fortyDays).db ≤ 2 + (1 - 1) := by
  apply reactivations_le {} one_pos
  · exact fun _ => rfl
  · exact Nat.zero_le _
  · intro earlier turn hturn
    have hmem : turn ∈ fortyDays := hturn.subset (by simp)
    simp only [fortyDays, List.mem_cons, List.not_mem_nil, or_false] at hmem
    rcases hmem with rfl | rfl | rfl | rfl <;> simp [CountFails]
  · intro earlier _
    calc tally (Eligible "a") (run {} oneImplementation earlier).processes
        ≤ Set.encard (Set.univ : Set Unit) := Set.encard_le_encard (Set.subset_univ _)
      _ = (1 : ℕ) := by simp

/-! ### What a request reads of the log -/

theorem firstBy_filter_of_mem {rows : List LogRow} (hnodup : rows.Nodup) {row : LogRow}
    (hfirst : firstBy NoEarlier rows = some row) {p : LogRow → Bool} (hp : p row = true) :
    firstBy NoEarlier (rows.filter p) = some row := by
  have hmem : row ∈ rows.filter p := List.mem_filter.mpr ⟨mem_of_firstBy _ hfirst, hp⟩
  cases hother : firstBy NoEarlier (rows.filter p) with
  | none =>
    rw [(firstBy_eq_none_iff _ _).mp hother] at hmem
    cases hmem
  | some other =>
    by_contra hne
    have hother' := List.mem_filter.mp (mem_of_firstBy _ hother)
    have hprecedes : Precedes NoEarlier rows row other :=
      precedes_of_firstBy _ hfirst hother'.1 fun heq => hne (by rw [heq])
    exact not_precedes_firstBy _ (hnodup.filter p) hmem hother
      ((precedes_filter_iff _ p hp hother'.2).mpr hprecedes)

/-- The repair of the log keeps the entry that a request reads. -/
theorem getRetirementInfo_repair (log : LogTable) (implId : String) :
    getRetirementInfo (repairDuplicateRetirementLogs log) implId =
      getRetirementInfo log implId := by
  have hrows : (repairDuplicateRetirementLogs log).rows.filter (fun row => row.implId = some implId)
      = (log.rows.filter fun row => row.implId = some implId).filter fun row =>
        ¬ 1 < rowNumber NoEarlier partitionKey log.rows row := by
    rw [rows_repair, firstRows, List.filter_filter, List.filter_filter]
    simp only [Bool.and_comm]
  rw [getRetirementInfo, getRetirementInfo, hrows]
  cases hfirst : firstBy NoEarlier (log.rows.filter fun row => row.implId = some implId) with
  | none =>
    rw [(firstBy_eq_none_iff _ _).mp hfirst]
    rfl
  | some row =>
    have hnodup : (log.rows.filter fun row => row.implId = some implId).Nodup :=
      log.nodup.filter _
    obtain ⟨hmem, himpl⟩ := List.mem_filter.mp (mem_of_firstBy _ hfirst)
    apply firstBy_filter_of_mem hnodup hfirst
    rw [decide_eq_true_eq, not_one_lt_rowNumber_iff _ _ hmem]
    -- its partition is among the entries of the implementation
    have hpartition : partition partitionKey log.rows (partitionKey row) =
        (log.rows.filter fun row => row.implId = some implId).filter fun other =>
          partitionKey other = partitionKey row := by
      rw [partition, List.filter_filter]
      apply List.filter_congr
      intro other _
      rw [Bool.eq_iff_iff]
      simp only [partitionKey, Prod.mk.injEq, Bool.and_eq_true, decide_eq_true_eq] at himpl ⊢
      constructor
      · exact fun h => ⟨h, h.1.trans himpl⟩
      · exact fun h => h.1
    rw [hpartition]
    exact firstBy_filter_of_mem hnodup hfirst (by simp)

/-- What a request reads for an implementation was retired no earlier than `time`. -/
def ReadsSince (log : LogTable) (implId : String) (time : ℤ) : Prop :=
  ∀ row, getRetirementInfo log implId = some row → ∀ retiredAt ∈ row.retiredAt, time ≤ retiredAt

/-! ### Requests that are not interleaved with anything else -/

/-- A request is not between two of its statements. -/
def Request.Idle (request : Request) : Prop :=
  request.phase = .getRetirementInfo ∨ (∃ answer, request.phase = .answered answer) ∨
    request.phase = .raised

/-- All the statements of a request. -/
def executeAll (first second third : Input) (observed : Observed) (request : Request) :
    Observed × Request :=
  let (observed, request) := execute config first observed request
  let (observed, request) := execute config second observed request
  execute config third observed request

omit [DecidableEq ι] in
theorem informed_cases (db : Db) (request : Request) (input : Input) :
    (∃ answer, informed db request input = .answered answer) ∨
      informed db request input = .raised ∨
      ∃ row retiredAt flag, getRetirementInfo db.retirementLog request.implId = some row ∧
        retiredAt ∈ row.retiredAt ∧
        informed db request input = .getReactivationCount ((input.now - retiredAt) / day) flag := by
  cases hfails : input.failure.isSome with
  | true => exact .inl ⟨noRetirementRecord, by simp only [informed, hfails, if_true]⟩
  | false =>
    cases hrow : getRetirementInfo db.retirementLog request.implId with
    | none =>
      refine .inl ⟨noRetirementRecord, ?_⟩
      simp only [informed, hfails, hrow, Bool.false_eq_true, if_false]
    | some row =>
      cases hretired : row.retiredAt with
      | none =>
        refine .inr (.inl ?_)
        simp only [informed, hfails, hrow, hretired, Bool.false_eq_true, if_false]
      | some retiredAt =>
        refine .inr (.inr ⟨row, retiredAt, row.canReactivate.getD false, rfl, hretired, ?_⟩)
        simp only [informed, hfails, hrow, hretired, Bool.false_eq_true, if_false]

omit [DecidableEq ι] in
theorem checked_cases (db : Db) (request : Request) (daysSince : ℤ) (flag : Bool)
    (input : Input) :
    checked config db request daysSince flag input = .update ∨
      ∃ answer, checked config db request daysSince flag input = .answered answer := by
  simp only [checked]
  split_ifs
  · exact .inl rfl
  · exact .inr ⟨_, rfl⟩

omit [DecidableEq ι] in
theorem reactivate_cases (observed : Observed) (request : Request) (input : Input) :
    (reactivate observed request input).1 = observed ∨
      observed.db.status request.implId = some .RETIRED ∧ input.failure = none := by
  unfold reactivate
  split
  · exact .inl rfl
  · rename_i hanswered
    split_ifs with hretired
    · exact .inr ⟨hretired, hanswered⟩
    · exact .inl rfl

omit [DecidableEq ι] in
/-- What is reactivated is retired, and what was read of its retirement is long enough ago. -/
theorem executeAll_cases {request : Request} (h : request.Idle) (first second third : Input)
    (observed : Observed) :
    (executeAll config first second third observed request).2.Idle ∧
      ((executeAll config first second third observed request).1 = observed ∨
        observed.db.status request.implId = some .RETIRED ∧ third.failure = none ∧
        (∃ row retiredAt, getRetirementInfo observed.db.retirementLog request.implId = some row ∧
          retiredAt ∈ row.retiredAt ∧
          config.reactivationCooldownDays ≤ (first.now - retiredAt) / day) ∧
        (executeAll config first second third observed request).1 =
          (reactivate observed { request with phase := .update } third).1) := by
  rcases h with hstart | ⟨answer, hanswered⟩ | hraised
  · rcases informed_cases observed.db request first with
      ⟨answer, hinformed⟩ | hinformed | ⟨row, retiredAt, flag, hrow, hretired, hinformed⟩
    · simp only [executeAll, execute, hstart, hinformed]
      exact ⟨.inr (.inl ⟨answer, rfl⟩), .inl trivial⟩
    · simp only [executeAll, execute, hstart, hinformed]
      exact ⟨.inr (.inr rfl), .inl trivial⟩
    · rcases checked_cases config observed.db
          { request with phase := .getReactivationCount ((first.now - retiredAt) / day) flag }
          ((first.now - retiredAt) / day) flag second with hchecked | ⟨answer, hchecked⟩
      · have hcool := (of_checked config hchecked).1
        simp only [executeAll, execute, hstart, hinformed, hchecked]
        refine ⟨.inr (.inl ⟨_, rfl⟩), ?_⟩
        rcases reactivate_cases observed { request with phase := .update } third with
          hsame | ⟨hstatus, hfailure⟩
        · exact .inl hsame
        · exact .inr ⟨hstatus, hfailure, ⟨row, retiredAt, hrow, hretired, hcool⟩, trivial⟩
      · simp only [executeAll, execute, hstart, hinformed, hchecked]
        exact ⟨.inr (.inl ⟨answer, rfl⟩), .inl trivial⟩
  · simp only [executeAll, execute, hanswered]
    exact ⟨.inr (.inl ⟨answer, hanswered⟩), .inl trivial⟩
  · simp only [executeAll, execute, hraised]
    exact ⟨.inr (.inr hraised), .inl trivial⟩

/-- A request from beginning to end, or a turn of one of the other parties. -/
inductive Call (ι : Type*) where
  | reactivate (i : ι) (first second third : Input)
  | executeRetirement (logId implId reason agentReasoning : String) (now : ℤ)
  | repairDuplicateRetirementLogs
  | setStatus (implId : String) (status : Status)

def Call.turns : Call ι → List (Turn ι)
  | .reactivate i first second third =>
    [.request i first, .request i second, .request i third]
  | .executeRetirement logId implId reason agentReasoning now =>
    [.executeRetirement logId implId reason agentReasoning now]
  | .repairDuplicateRetirementLogs => [.repairDuplicateRetirementLogs]
  | .setStatus implId status => [.setStatus implId status]

/-- The clock does not go back within a request, and no other service writes or overwrites the
status of what is retired. -/
def Call.Regular (world : World ι Observed Request) : Call ι → Prop
  | .reactivate _ first _ third => first.now ≤ third.now
  | .setStatus implId status => status ≠ .RETIRED ∧ world.db.db.status implId ≠ some .RETIRED
  | _ => True

theorem run_reactivate (world : World ι Observed Request) (i : ι) (first second third : Input) :
    run config world (Call.turns (.reactivate i first second third)) =
      ⟨(executeAll config first second third world.db (world.processes i)).1,
        Function.update world.processes i
          (executeAll config first second third world.db (world.processes i)).2⟩ := by
  simp [run, Call.turns, processes_step_request, executeAll, Function.update_idem]

/-! ### The history of one implementation -/

def Event.implId : Event → String
  | .retired implId _ => implId
  | .reactivated implId _ => implId

def historyOf (implId : String) (observed : Observed) : List Event :=
  observed.history.filter fun event => event.implId = implId

/-- Retirements and reactivations alternate, and a reactivation is late enough. -/
def Follows : Event → Event → Prop
  | .retired _ time, .reactivated _ time' =>
    time + config.reactivationCooldownDays * day ≤ time'
  | .reactivated _ _, .retired _ _ => True
  | _, _ => False

/-- What the last event says of the status and of what a request reads. -/
structure Settled (implId : String) (observed : Observed) : Prop where
  chain : (historyOf implId observed).IsChain (Follows config)
  retired : ∀ time, (historyOf implId observed).getLast? = some (.retired implId time) →
    observed.db.status implId = some .RETIRED ∧
      ReadsSince observed.db.retirementLog implId time
  reactivated : ∀ time, (historyOf implId observed).getLast? = some (.reactivated implId time) →
    observed.db.status implId ≠ some .RETIRED

section
variable {config} {implId : String} {observed : Observed}

omit [DecidableEq ι] in
theorem getLast_historyOf (implId : String) (observed : Observed) {event : Event}
    (h : (historyOf implId observed).getLast? = some event) : event.implId = implId := by
  simpa using (List.mem_filter.mp (List.mem_of_getLast? h)).2

/-- What changes neither the history nor what matters of the tables. -/
theorem Settled.congr (h : Settled config implId observed) {observed' : Observed}
    (hhistory : historyOf implId observed' = historyOf implId observed)
    (hstatus : observed'.db.status implId = some .RETIRED ↔
      observed.db.status implId = some .RETIRED)
    (hlog : getRetirementInfo observed'.db.retirementLog implId =
      getRetirementInfo observed.db.retirementLog implId) : Settled config implId observed' where
  chain := hhistory ▸ h.chain
  retired time htime := by
    rw [hhistory] at htime
    obtain ⟨hretired, hreads⟩ := h.retired time htime
    refine ⟨hstatus.mpr hretired, ?_⟩
    rw [ReadsSince, hlog]
    exact hreads
  reactivated time htime := by
    rw [hhistory] at htime
    rw [Ne, hstatus]
    exact h.reactivated time htime

omit [DecidableEq ι] in
theorem executeRetirement_cases (observed : Observed)
    (logId id reason agentReasoning : String) (now : ℤ) :
    executeRetirement observed logId id reason agentReasoning now = observed ∨
      observed.db.status id ≠ some .RETIRED ∧
      ∃ log, log.rows =
          observed.db.retirementLog.rows ++ [retirementRow logId id reason agentReasoning now] ∧
        executeRetirement observed logId id reason agentReasoning now =
          { db := { observed.db with
              status := Function.update observed.db.status id (some .RETIRED)
              retirementLog := log }
            history := observed.history ++ [.retired id now] } := by
  by_cases hid : logId ∈ observed.db.retirementLog.rows.map (·.logId)
  · exact .inl (dif_neg (not_not.mpr hid))
  · by_cases hstatus : observed.db.status id = none ∨ observed.db.status id = some .RETIRED
    · refine .inl ?_
      rw [executeRetirement, dif_pos hid, if_pos hstatus]
    · refine .inr ⟨fun hretired => hstatus (.inr hretired),
        addRow observed.db.retirementLog (retirementRow logId id reason agentReasoning now) hid,
        rfl, ?_⟩
      rw [executeRetirement, dif_pos hid, if_neg hstatus]

omit [DecidableEq ι] in
theorem historyOf_append_self {event : Event} (h : event.implId = implId) (db : Db) :
    historyOf implId ⟨db, observed.history ++ [event]⟩ = historyOf implId observed ++ [event] := by
  simp [historyOf, List.filter_append, h]

omit [DecidableEq ι] in
theorem historyOf_append_of_ne {event : Event} (h : event.implId ≠ implId) (db : Db) :
    historyOf implId ⟨db, observed.history ++ [event]⟩ = historyOf implId observed := by
  simp [historyOf, List.filter_append, h]

theorem Settled.executeRetirement (h : Settled config implId observed)
    (logId id reason agentReasoning : String) (now : ℤ) :
    Settled config implId
      (executeRetirement observed logId id reason agentReasoning now) := by
  obtain hsame | ⟨hstatus, log, hrows, hretired⟩ :=
    executeRetirement_cases observed logId id reason agentReasoning now
  · rwa [hsame]
  rw [hretired]
  by_cases himpl : id = implId
  · subst himpl
    have hhistory : ∀ db, historyOf id ⟨db, observed.history ++ [.retired id now]⟩ =
        historyOf id observed ++ [.retired id now] := historyOf_append_self rfl
    constructor
    · -- before it the implementation was not retired
      rw [hhistory, List.isChain_append]
      refine ⟨h.chain, List.isChain_singleton _, ?_⟩
      intro last hlast next hnext
      rw [List.head?_cons, Option.mem_some_iff] at hnext
      subst hnext
      have hlastId := getLast_historyOf id observed hlast
      cases last with
      | retired lastId time =>
        obtain rfl : lastId = id := hlastId
        exact absurd (h.retired time hlast).1 hstatus
      | reactivated lastId time => exact trivial
    · intro time htime
      rw [hhistory, List.getLast?_concat, Option.some_inj] at htime
      obtain ⟨-, rfl⟩ := Event.retired.inj htime
      refine ⟨Function.update_self _ _ _, ?_⟩
      intro row hrow retiredAt hretiredAt
      have hmem : retirementRow logId id reason agentReasoning now ∈
          log.rows.filter fun row => row.implId = some id := by
        rw [hrows]
        simp [retirementRow]
      have hle := firstBy_rel NoEarlier hrow hmem
      rw [Option.mem_def] at hretiredAt
      simpa [NoEarlier, hretiredAt, retirementRow] using hle
    · intro time htime
      rw [hhistory, List.getLast?_concat, Option.some_inj] at htime
      cases htime
  · apply h.congr
    · exact historyOf_append_of_ne (show (Event.retired id now).implId ≠ implId from himpl) _
    · simp [Function.update_of_ne (Ne.symm himpl)]
    · rw [getRetirementInfo, getRetirementInfo, hrows, List.filter_append]
      simp [retirementRow, himpl]

theorem Settled.reactivate (h : Settled config implId observed) {request : Request}
    {first third : Input} (hclock : first.now ≤ third.now) (hanswered : third.failure = none)
    (hstatus : observed.db.status request.implId = some .RETIRED)
    (hread : ∃ row retiredAt,
      getRetirementInfo observed.db.retirementLog request.implId = some row ∧
      retiredAt ∈ row.retiredAt ∧
      config.reactivationCooldownDays ≤ (first.now - retiredAt) / day) :
    Settled config implId (reactivate observed request third).1 := by
  obtain ⟨row, retiredAt, hrow, hretiredAt, hcool⟩ := hread
  simp only [Reactivation.reactivate, hanswered, hstatus, if_true]
  by_cases himpl : request.implId = implId
  · have hhistory : ∀ db, historyOf implId
        ⟨db, observed.history ++ [.reactivated request.implId third.now]⟩ =
        historyOf implId observed ++ [.reactivated request.implId third.now] :=
      historyOf_append_self himpl
    rw [himpl] at hstatus hrow
    constructor
    · rw [hhistory, List.isChain_append]
      refine ⟨h.chain, List.isChain_singleton _, ?_⟩
      intro last hlast next hnext
      rw [List.head?_cons, Option.mem_some_iff] at hnext
      subst hnext
      have hlastId := getLast_historyOf implId observed hlast
      cases last with
      | retired lastId time =>
        obtain rfl : lastId = implId := hlastId
        have htime := (h.retired time hlast).2 row hrow retiredAt hretiredAt
        have hday : (0 : ℤ) < day := by decide
        have hwaited := (Int.le_ediv_iff_mul_le hday).mp hcool
        simp only [Follows]
        omega
      | reactivated lastId time =>
        obtain rfl : lastId = implId := hlastId
        exact absurd hstatus (h.reactivated time hlast)
    · intro time htime
      rw [hhistory, List.getLast?_concat, Option.some_inj] at htime
      cases htime
    · intro time htime
      simp [himpl]
  · apply h.congr
    · have hne : (Event.reactivated request.implId third.now).implId ≠ implId := himpl
      exact historyOf_append_of_ne hne _
    · simp [Function.update_of_ne (Ne.symm himpl)]
    · rfl

theorem Settled.setStatus (h : Settled config implId observed) {id : String} {status : Status}
    (hnew : status ≠ .RETIRED) (hold : observed.db.status id ≠ some .RETIRED) :
    Settled config implId { observed with db := { observed.db with
      status := fun id' =>
        if id' = id then (observed.db.status id').map fun _ => status
        else observed.db.status id' } } := by
  refine h.congr ?_ ?_ ?_
  · rfl
  · by_cases himpl : implId = id
    · subst himpl
      refine iff_of_false ?_ hold
      simp only [if_true]
      cases observed.db.status implId with
      | none => simp
      | some old => simpa using hnew
    · simp [himpl]
  · rfl

end

variable {config}

theorem settled_call {world : World ι Observed Request} (hidle : ∀ i, (world.processes i).Idle)
    {implId : String} (h : Settled config implId world.db) {call : Call ι}
    (hregular : call.Regular world) :
    (∀ i, ((run config world call.turns).processes i).Idle) ∧
      Settled config implId (run config world call.turns).db := by
  cases call with
  | reactivate i first second third =>
    rw [run_reactivate]
    obtain ⟨hself, hdb⟩ := executeAll_cases config (hidle i) first second third world.db
    constructor
    · intro j
      by_cases hj : j = i
      · subst hj
        simpa using hself
      · simpa [hj] using hidle j
    · obtain hsame | ⟨hstatus, hanswered, hread, hreactivated⟩ := hdb
      · rwa [hsame]
      · rw [hreactivated]
        exact h.reactivate hregular hanswered hstatus hread
  | executeRetirement logId id reason agentReasoning now =>
    exact ⟨hidle, h.executeRetirement logId id reason agentReasoning now⟩
  | repairDuplicateRetirementLogs =>
    exact ⟨hidle, h.congr rfl Iff.rfl (getRetirementInfo_repair _ _)⟩
  | setStatus id status => exact ⟨hidle, h.setStatus hregular.1 hregular.2⟩

end TradeStream.Reactivation
