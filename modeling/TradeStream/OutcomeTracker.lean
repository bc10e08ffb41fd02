import TradeStream.KeyedTable
import TradeStream.RoundDecimal
import TradeStream.RunSteps

/-! `OutcomeTracker`: the checks of the emitted decisions against the market, and the table of
outcomes that they write. -/
namespace TradeStream.OutcomeTracker
open TradeStream.KeyedTable TradeStream.RoundDecimal TradeStream.RunSteps

structure OutcomeConfig where
  checkIntervalSeconds : ℤ := 300
  lookbackHours : ℤ := 24
  targetReturnPct : ℚ := 1

/-- A row of `agent_decisions`, as far as it is read here. -/
structure Decision where
  decisionId : String
  symbol : String
  action : String
  confidence : ℚ
  riskApproved : Option Bool
  deriving DecidableEq, Repr

/-- A row of `decision_outcomes`. -/
structure Outcome where
  decisionId : String
  actualReturn : ℚ
  hitTarget : Bool
  exitPrice : ℚ
  maxDrawdown : ℚ
  deriving DecidableEq, Repr

structure OutcomeResult where
  decisionId : String
  symbol : String
  action : String
  entryConfidence : ℚ
  actualReturn : ℚ
  hitTarget : Bool
  maxDrawdown : ℚ
  exitPrice : ℚ
  entryPrice : ℚ
  deriving DecidableEq, Repr

/-- What `_get_current_price` comes back with. Arithmetic with what is not a number raises. -/
inductive Quote where
  | missing
  | number (price : ℚ)
  | notNumber

/-- What one check finds: the decisions with the newest first (none where the query fails),
and for each decision its prices and whether the transaction of its outcome commits. -/
structure Check where
  now : ℚ
  isAvailable : Bool
  agentDecisions : List Decision
  currentPrice : Decision → Quote
  /-- `none` where the function raises. -/
  entryPrice : Decision → Option (Option ℚ)
  commits : Decision → Bool

structure Stats where
  outcomesRecorded : ℕ := 0
  outcomesHit : ℕ := 0
  outcomesMissed : ℕ := 0
  checkErrors : ℕ := 0
  lastCheckAt : Option ℚ := none

structure Tracker where
  outcomes : Table String Outcome := ∅
  stats : Stats := {}

def getRecentDecisions (limit : ℕ) (check : Check) : List Decision :=
  if check.isAvailable then check.agentDecisions.take limit else []

/-- `_get_pending_decisions`: nothing here asks whether there is an outcome. -/
def Check.pendingDecisions (check : Check) : List Decision :=
  (getRecentDecisions 100 check).filter fun d =>
    d.riskApproved.getD false && d.action != "HOLD"

/-- The result of a decision at a price, for an entry at another. -/
def outcomeResult (config : OutcomeConfig) (d : Decision) (currentPrice entryPrice : ℚ) :
    OutcomeResult :=
  let priceChangePct := (currentPrice - entryPrice) / entryPrice
  let actualReturn := if d.action = "BUY" then priceChangePct else -priceChangePct
  { decisionId := d.decisionId
    symbol := d.symbol
    action := d.action
    entryConfidence := d.confidence
    actualReturn := roundTo 6 actualReturn
    hitTarget := decide (config.targetReturnPct / 100 ≤ actualReturn)
    maxDrawdown := roundTo 6 |min 0 actualReturn|
    exitPrice := currentPrice
    entryPrice }

/-- `_evaluate_decision`; `none` inside for no result, outside for an exception. -/
def evaluateDecision (config : OutcomeConfig) (check : Check) (d : Decision) :
    Option (Option OutcomeResult) :=
  if d.symbol = "" ∨ d.action = "HOLD" then some none
  else
    match check.currentPrice d with
    | .missing => some none
    | quote =>
      match check.entryPrice d with
      | none => none
      -- the rows have no `market_context` to fall back to
      | some none => some none
      | some (some entryPrice) =>
        if entryPrice ≤ 0 then some none
        else
          match quote with
          | .number currentPrice => some (some (outcomeResult config d currentPrice entryPrice))
          | _ => none

def OutcomeResult.outcome (r : OutcomeResult) : Outcome :=
  ⟨r.decisionId, r.actualReturn, r.hitTarget, r.exitPrice, r.maxDrawdown⟩

/-- `record_outcome`: `ON CONFLICT (decision_id) DO UPDATE` takes all values of the new row.
A transaction that does not commit is logged, and nothing is raised. -/
def recordOutcome (commits : Bool) (r : OutcomeResult) (outcomes : Table String Outcome) :
    Table String Outcome :=
  if commits then upsert Outcome.decisionId (fun _ new => new) outcomes r.outcome else outcomes

def Stats.count (stats : Stats) (hitTarget : Bool) : Stats :=
  { stats with
    outcomesRecorded := stats.outcomesRecorded + 1
    outcomesHit := stats.outcomesHit + if hitTarget then 1 else 0
    outcomesMissed := stats.outcomesMissed + if hitTarget then 0 else 1 }

variable (config : OutcomeConfig)

/-- A turn of the loop over the pending decisions. -/
def Check.turn (check : Check) (t : Tracker) (d : Decision) : Tracker :=
  match evaluateDecision config check d with
  | none => { t with stats := { t.stats with checkErrors := t.stats.checkErrors + 1 } }
  | some none => t
  | some (some r) =>
    { outcomes := recordOutcome (check.commits d) r t.outcomes
      stats := t.stats.count r.hitTarget }

/-- `check_pending_outcomes`, with the results that it returns. -/
def Tracker.checkPendingOutcomes (t : Tracker) (check : Check) : List OutcomeResult × Tracker :=
  if check.pendingDecisions = [] then ([], t)
  else
    let t := check.pendingDecisions.foldl (check.turn config) t
    (check.pendingDecisions.filterMap fun d => (evaluateDecision config check d).getD none,
      { t with stats := { t.stats with lastCheckAt := some check.now } })

/-- The hit rate of `get_stats`. -/
def Stats.hitRate (stats : Stats) : ℚ :=
  roundTo 4 (if 0 < stats.outcomesRecorded then
    (stats.outcomesHit : ℚ) / stats.outcomesRecorded else 0)

def Tracker.step (t : Tracker) (check : Check) : Tracker := (t.checkPendingOutcomes config check).2

/-- A new tracker over an empty table, after these checks. -/
def after (checks : List Check) : Tracker := checks.foldl (Tracker.step config) {}

/-- At most one outcome for each decision, which stays, and the counts are of decisions. -/
structure Sound (checks : List Check) : Prop where
  kept : ∀ earlier later, earlier ++ later <+: checks →
    ∀ id old, (after config earlier).outcomes.lookup id = some old →
      ∃ new, (after config (earlier ++ later)).outcomes.lookup id = some new ∧
        new.hitTarget = old.hitTarget ∧ new.actualReturn = old.actualReturn
  counted : ∀ reached, reached <+: checks →
    (after config reached).stats.outcomesRecorded = (after config reached).outcomes.keys.length
  hits : ∀ reached, reached <+: checks →
    (after config reached).stats.outcomesHit =
      countRows Outcome.hitTarget (after config reached).outcomes

/-- If the decision has a result, it has no outcome yet, and this one is stored. -/
def Check.First (check : Check) (t : Tracker) (d : Decision) : Prop :=
  ∀ r, evaluateDecision config check d = some (some r) →
    check.commits d ∧ t.outcomes.lookup d.decisionId = none

/-- So is every decision of the check at its turn. -/
def Check.AllFirst (t : Tracker) (check : Check) : Prop :=
  ∀ before d, before ++ [d] <+: check.pendingDecisions →
    check.First config (before.foldl (check.turn config) t) d

variable {config}

/-- The hit rate is over the decisions with an outcome. -/
theorem Sound.hitRate {checks : List Check} (h : Sound config checks) :
    (after config checks).stats.hitRate =
      roundTo 4 (if 0 < (after config checks).outcomes.keys.length then
        (countRows Outcome.hitTarget (after config checks).outcomes : ℚ) /
          (after config checks).outcomes.keys.length else 0) := by
  have hcounted := h.counted checks List.prefix_rfl
  have hhits := h.hits checks List.prefix_rfl
  rw [Stats.hitRate, hcounted, hhits]

/-! ### One turn -/

theorem evaluateDecision_decisionId {check : Check} {d : Decision} {r : OutcomeResult}
    (h : evaluateDecision config check d = some (some r)) : r.decisionId = d.decisionId := by
  unfold evaluateDecision at h
  split_ifs at h
  · cases h
  · split at h
    · cases h
    · split at h
      · cases h
      · cases h
      · split_ifs at h
        · cases h
        · split at h
          · obtain rfl := Option.some.inj (Option.some.inj h)
            rfl
          · cases h

/-- A turn does nothing to the table and the counts, or records the result of its decision. -/
theorem turn_cases (check : Check) (t : Tracker) (d : Decision) :
    (∀ r, evaluateDecision config check d ≠ some (some r)) ∧
        (check.turn config t d).outcomes = t.outcomes ∧
        (check.turn config t d).stats.outcomesRecorded = t.stats.outcomesRecorded ∧
        (check.turn config t d).stats.outcomesHit = t.stats.outcomesHit ∨
      ∃ r, evaluateDecision config check d = some (some r) ∧ r.decisionId = d.decisionId ∧
        check.turn config t d =
          ⟨recordOutcome (check.commits d) r t.outcomes, t.stats.count r.hitTarget⟩ := by
  cases hresult : evaluateDecision config check d with
  | none =>
    left
    rw [Check.turn, hresult]
    exact ⟨fun r => by simp, rfl, rfl, rfl⟩
  | some result =>
    cases result with
    | none =>
      left
      rw [Check.turn, hresult]
      exact ⟨fun r => by simp, rfl, rfl, rfl⟩
    | some r =>
      right
      refine ⟨r, rfl, evaluateDecision_decisionId hresult, ?_⟩
      rw [Check.turn, hresult]

/-- The rows are the decisions with an outcome. -/
theorem countRows_true (outcomes : Table String Outcome) :
    countRows (fun _ => true) outcomes = outcomes.keys.length := by
  rw [countRows, List.countP_true, AList.keys, List.keys, List.length_map]

/-- What is stored of a result, by the outcome that its decision had. -/
theorem countRows_recordOutcome (p : Outcome → Bool) (r : OutcomeResult)
    (outcomes : Table String Outcome) :
    countRows p (recordOutcome true r outcomes) +
        (outcomes.lookup r.decisionId).toList.countP p =
      countRows p outcomes + [r.outcome].countP p := by
  have hinsert : recordOutcome true r outcomes = outcomes.insert r.decisionId r.outcome := by
    rw [recordOutcome, if_pos rfl, upsert]
    cases outcomes.lookup r.outcome.decisionId <;> rfl
  rw [hinsert]
  exact countRows_insert p outcomes r.decisionId r.outcome

theorem length_keys_recordOutcome (commits : Bool) (r : OutcomeResult)
    (outcomes : Table String Outcome) :
    (recordOutcome commits r outcomes).keys.length =
      outcomes.keys.length +
        if commits ∧ outcomes.lookup r.decisionId = none then 1 else 0 := by
  cases commits with
  | false => simp [recordOutcome]
  | true =>
    have hcount := countRows_recordOutcome (fun _ => true) r outcomes
    rw [countRows_true, countRows_true, List.countP_true] at hcount
    cases hlookup : outcomes.lookup r.decisionId with
    | none => simpa [hlookup] using hcount
    | some old => simpa [hlookup] using hcount

/-- The count is never below the decisions with an outcome. -/
def Tracker.Covers (t : Tracker) : Prop := t.outcomes.keys.length ≤ t.stats.outcomesRecorded

/-- It is their number. -/
def Tracker.Exact (t : Tracker) : Prop := t.stats.outcomesRecorded = t.outcomes.keys.length

theorem covers_turn {check : Check} {t : Tracker} (h : t.Covers) (d : Decision) :
    (check.turn config t d).Covers := by
  rcases turn_cases check t d with ⟨-, htable, hcount, -⟩ | ⟨r, -, -, hturn⟩
  · rwa [Tracker.Covers, htable, hcount]
  · rw [hturn, Tracker.Covers, length_keys_recordOutcome]
    change t.outcomes.keys.length + _ ≤ t.stats.outcomesRecorded + 1
    rw [Tracker.Covers] at h
    split_ifs <;> omega

theorem exact_turn_iff {check : Check} {t : Tracker} (h : t.Covers) (d : Decision) :
    (check.turn config t d).Exact ↔ t.Exact ∧ check.First config t d := by
  rcases turn_cases check t d with ⟨hnone, htable, hcount, -⟩ | ⟨r, hresult, hid, hturn⟩
  · rw [Tracker.Exact, htable, hcount, Tracker.Exact, iff_self_and]
    exact fun _ r hresult => absurd hresult (hnone r)
  · have hfirst : check.First config t d ↔
        check.commits d ∧ t.outcomes.lookup r.decisionId = none := by
      rw [Check.First, hid]
      constructor
      · exact fun hall => hall r hresult
      · exact fun hone _ _ => hone
    rw [hturn, hfirst, Tracker.Exact, length_keys_recordOutcome]
    change t.stats.outcomesRecorded + 1 = _ ↔ _
    rw [Tracker.Covers] at h
    rw [Tracker.Exact]
    split_ifs with hstored
    · rw [and_iff_left hstored]
      omega
    · rw [iff_false_right (fun hboth => hstored hboth.2)]
      omega

/-- What a first outcome leaves alone, and what it counts. -/
theorem outcomes_of_first {check : Check} {t : Tracker} {d : Decision}
    (h : check.First config t d) :
    (∀ id old, t.outcomes.lookup id = some old →
      (check.turn config t d).outcomes.lookup id = some old) ∧
    (t.stats.outcomesHit = countRows Outcome.hitTarget t.outcomes →
      (check.turn config t d).stats.outcomesHit =
        countRows Outcome.hitTarget (check.turn config t d).outcomes) := by
  rcases turn_cases check t d with ⟨-, htable, -, hhit⟩ | ⟨r, hresult, hid, hturn⟩
  · rw [htable, hhit]
    exact ⟨fun _ _ hold => hold, id⟩
  · obtain ⟨hcommits, hnone⟩ := h r hresult
    rw [← hid] at hnone
    rw [hturn, hcommits]
    constructor
    · intro id old hold
      have hne : r.outcome.decisionId ≠ id := by
        rintro rfl
        exact absurd (hnone.symm.trans hold) (by simp)
      change (recordOutcome true r t.outcomes).lookup id = some old
      rw [recordOutcome, if_pos rfl, lookup_upsert, if_neg hne]
      exact hold
    · intro hhits
      have hcount := countRows_recordOutcome Outcome.hitTarget r t.outcomes
      rw [hnone, Option.toList_none, List.countP_nil, add_zero, List.countP_singleton] at hcount
      change t.stats.outcomesHit + (if r.hitTarget then 1 else 0) = _
      rw [hhits, hcount]
      rfl

/-! ### One check, and all of them -/

variable (config) in
/-- The time of the check apart, it is its turns. -/
theorem step_eq (t : Tracker) (check : Check) :
    (t.step config check).outcomes =
        (check.pendingDecisions.foldl (check.turn config) t).outcomes ∧
      (t.step config check).stats.outcomesRecorded =
        (check.pendingDecisions.foldl (check.turn config) t).stats.outcomesRecorded ∧
      (t.step config check).stats.outcomesHit =
        (check.pendingDecisions.foldl (check.turn config) t).stats.outcomesHit := by
  rw [Tracker.step, Tracker.checkPendingOutcomes]
  split_ifs with hnone
  · rw [hnone]
    exact ⟨rfl, rfl, rfl⟩
  · exact ⟨rfl, rfl, rfl⟩

theorem covers_step {t : Tracker} (h : t.Covers) (check : Check) :
    (t.step config check).Covers := by
  obtain ⟨htable, hcount, -⟩ := step_eq config t check
  rw [Tracker.Covers, htable, hcount]
  apply List.foldlRecOn (motive := Tracker.Covers)
  · exact h
  · exact fun t ht d _ => covers_turn ht d

theorem exact_step_iff {t : Tracker} (h : t.Covers) (check : Check) :
    (t.step config check).Exact ↔ t.Exact ∧ check.AllFirst config t := by
  obtain ⟨htable, hcount, -⟩ := step_eq config t check
  rw [Tracker.Exact, htable, hcount]
  exact foldl_iff_and_forall_step (check.turn config) (P := Tracker.Exact)
    (fun t d ht => covers_turn ht d) (fun t d ht => exact_turn_iff ht d) h check.pendingDecisions

/-- An invariant that first outcomes keep is kept by a check of them. -/
theorem keeps_of_allFirst {I : Tracker → Prop} {check : Check}
    (hturn : ∀ t d, I t → check.First config t d → I (check.turn config t d)) {t : Tracker}
    (ht : I t) (hfirst : check.AllFirst config t) :
    I (check.pendingDecisions.foldl (check.turn config) t) :=
  forall_reached_of_forall_step (check.turn config) hturn ht hfirst check.pendingDecisions
    List.prefix_rfl

theorem kept_step {t : Tracker} {check : Check} (hfirst : check.AllFirst config t) {id : String}
    {old : Outcome} (hold : t.outcomes.lookup id = some old) :
    (t.step config check).outcomes.lookup id = some old := by
  rw [(step_eq config t check).1]
  exact keeps_of_allFirst (I := fun t => t.outcomes.lookup id = some old)
    (fun t d ht h => (outcomes_of_first h).1 id old ht) hold hfirst

theorem hits_step {t : Tracker} {check : Check} (hfirst : check.AllFirst config t)
    (hhits : t.stats.outcomesHit = countRows Outcome.hitTarget t.outcomes) :
    (t.step config check).stats.outcomesHit =
      countRows Outcome.hitTarget (t.step config check).outcomes := by
  rw [(step_eq config t check).1, (step_eq config t check).2.2]
  exact keeps_of_allFirst
    (I := fun t => t.stats.outcomesHit = countRows Outcome.hitTarget t.outcomes)
    (fun t d ht h => (outcomes_of_first h).2 ht) hhits hfirst

theorem after_append (earlier later : List Check) :
    after config (earlier ++ later) = later.foldl (Tracker.step config) (after config earlier) :=
  List.foldl_append

theorem exact_after_iff (checks : List Check) :
    (after config checks).Exact ↔ ∀ earlier check, earlier ++ [check] <+: checks →
      check.AllFirst config (after config earlier) :=
  foldl_iff_forall_step (Tracker.step config) (P := Tracker.Exact)
    (fun _ check ht => covers_step ht check) (fun _ check ht => exact_step_iff ht check)
    (s := {}) (le_refl 0) rfl checks

variable (config) in
/-- For any sequence of checks, of any decisions at any prices: each decision with a result
has no outcome before, and its transaction commits. -/
theorem sound_iff (checks : List Check) :
    Sound config checks ↔ ∀ earlier check, earlier ++ [check] <+: checks →
      check.AllFirst config (after config earlier) := by
  constructor
  · intro h
    exact (exact_after_iff checks).mp (h.counted checks List.prefix_rfl)
  · intro hfirst
    refine ⟨?_, ?_, ?_⟩
    · intro earlier later hpre id old hold
      have hkept := forall_reached_of_forall_step (Tracker.step config)
        (I := fun t => t.outcomes.lookup id = some old) (C := fun t check => check.AllFirst config t)
        (fun t check ht h => kept_step h ht) hold (l := later) (by
          intro before check hbefore
          rw [← after_append]
          apply hfirst
          rw [List.append_assoc]
          exact ((List.prefix_append_right_inj earlier).mpr hbefore).trans hpre)
      refine ⟨old, ?_, rfl, rfl⟩
      rw [after_append]
      exact hkept later List.prefix_rfl
    · intro reached hpre
      exact (exact_after_iff reached).mpr fun earlier check hstep =>
        hfirst earlier check (hstep.trans hpre)
    · intro reached hpre
      exact forall_reached_of_forall_step (Tracker.step config)
        (I := fun t => t.stats.outcomesHit = countRows Outcome.hitTarget t.outcomes)
        (C := fun t check => check.AllFirst config t) (fun t check ht h => hits_step h ht) rfl
        hfirst reached hpre

/-- A decision that was approved, bought at 100. -/
def boughtDecision : Decision := ⟨"d1", "BTC-USD", "BUY", 8 / 10, some true⟩

/-- A check that finds this decision at a price. -/
def checkAt (now price : ℚ) : Check where
  now := now
  isAvailable := true
  agentDecisions := [boughtDecision]
  currentPrice _ := .number price
  entryPrice _ := some (some 100)
  commits _ := true

/-- The price has reached the target in the first check and is below the entry in the
second. -/
theorem secondCheck_not_sound : ¬ Sound {} [checkAt 300 102, checkAt 600 99] := by
  intro h
  have hcount := h.counted _ List.prefix_rfl
  revert hcount
  decide +kernel

end TradeStream.OutcomeTracker
