import TradeStream.OpportunityAggregator
import TradeStream.Transducer

/-! `OpportunityTracker` and the endpoints over it. A handler awaits nothing, so that a run is its
calls one after another; `expire_stale` is left out, as nothing calls it. -/
namespace TradeStream.OpportunityEngine
open TradeStream.InsertionDict TradeStream.RoundDecimal TradeStream.Transducer
open scoped List

namespace OpportunityStatus

def value : OpportunityStatus → String
  | scored => "scored"
  | signaled => "signaled"
  | entered => "entered"
  | closed => "closed"
  | expired => "expired"

/-- In the order of the class. -/
def all : List OpportunityStatus := [scored, signaled, entered, closed, expired]

/-- `scored → signaled → entered → closed/expired`. -/
inductive Moves : OpportunityStatus → OpportunityStatus → Prop
  | signal : Moves scored signaled
  | enter : Moves scored entered
  | enterSignaled : Moves signaled entered
  | close : Moves entered closed
  | expire : Moves scored expired
  | expireSignaled : Moves signaled expired
  | expireEntered : Moves entered expired

end OpportunityStatus

namespace ScoredOpportunity
variable (now : ℤ) (o : ScoredOpportunity)

def displayAgeMinutes : ℤ := (now - o.scoredAt).tdiv 60000000

def isStale : Bool := 60 ≤ o.displayAgeMinutes now

/-! What `mark_signaled` and its siblings make of an opportunity, where they change it. -/

def signaled : Option ScoredOpportunity :=
  if o.status = .scored then some { o with status := .signaled } else none

def entered : Option ScoredOpportunity :=
  if o.status = .scored ∨ o.status = .signaled then
    some { o with status := .entered, enteredAt := some now }
  else none

def closed (outcomeReturn : Option ℚ) : Option ScoredOpportunity :=
  if o.status = .entered then
    some { o with status := .closed, closedAt := some now, outcomeReturn := outcomeReturn }
  else none

def expired : Option ScoredOpportunity :=
  if o.status = .closed ∨ o.status = .expired then none
  else some { o with status := .expired }

end ScoredOpportunity

/-! ### The tracker -/

/-- `_opportunities`. -/
abbrev Tracker := List (String × ScoredOpportunity)

structure Stats where
  total : ℕ
  byStatus : List (String × ℕ)
  byTier : List (String × ℕ)
  avgScore : ℚ

namespace Tracker
variable (t : Tracker)

def track (o : ScoredOpportunity) : Tracker := setItem t o.opportunityId o

def get (id : String) : Option ScoredOpportunity := t.lookup id

/-- An opportunity is changed where it is held. -/
def mark (id : String) (change : ScoredOpportunity → Option ScoredOpportunity) : Tracker × Bool :=
  match (t.get id).bind change with
  | none => (t, false)
  | some o => (setItem t id o, true)

def markSignaled (id : String) : Tracker × Bool := t.mark id ScoredOpportunity.signaled

def markEntered (now : ℤ) (id : String) : Tracker × Bool :=
  t.mark id (ScoredOpportunity.entered now)

def markClosed (now : ℤ) (id : String) (outcomeReturn : Option ℚ) : Tracker × Bool :=
  t.mark id fun o => o.closed now outcomeReturn

def markExpired (id : String) : Tracker × Bool := t.mark id ScoredOpportunity.expired

def listAll : List ScoredOpportunity := t.map Prod.snd

def listActive : List ScoredOpportunity :=
  t.listAll.filter fun o => ¬ (o.status = .closed ∨ o.status = .expired)

def getStats : Stats where
  total := t.listAll.length
  byStatus := sumsOf (fun o => o.status.value) (fun _ => 1) t.listAll
  byTier := sumsOf ScoredOpportunity.tier (fun _ => 1) t.listAll
  avgScore :=
    if 0 < t.listAll.length then
      roundTo 1 ((t.listAll.map ScoredOpportunity.opportunityScore).sum / t.listAll.length)
    else 0

end Tracker

def tierOrder (tier : String) : ℕ :=
  if tier = "HOT" then 4 else if tier = "GOOD" then 3 else if tier = "NEUTRAL" then 2
  else if tier = "LOW" then 1 else 0

/-- The higher score comes first. -/
def scoreLe (a b : ScoredOpportunity) : Bool := b.opportunityScore ≤ a.opportunityScore

def rankOpportunities (now : ℤ) (opportunities : List ScoredOpportunity) (minScore : ℚ)
    (minTier : Option String) (excludeStale : Bool) : List ScoredOpportunity :=
  let minTierValue := ((given minTier).map tierOrder).getD 0
  (opportunities.filter fun o =>
    ¬ o.opportunityScore < minScore ∧ ¬ tierOrder o.tier < minTierValue ∧
      ¬ (excludeStale ∧ o.isStale now)).mergeSort scoreLe

/-! ### The endpoints -/

/-- A signal of a request: a key that is there has a value of its type. -/
structure RawSignal where
  source : Option String
  signalId : Option String
  direction : Option String
  confidence : Option ℚ
  strategyName : Option String
  expectedReturn : Option ℚ
  returnStddev : Option ℚ

def RawSignal.toSignal (s : RawSignal) : ContributingSignal where
  source := s.source.getD "unknown"
  signalId := s.signalId.getD ""
  direction := s.direction.getD "HOLD"
  confidence := s.confidence.getD 0
  strategyName := s.strategyName
  expectedReturn := s.expectedReturn
  returnStddev := s.returnStddev

structure ScoreBody where
  symbol : Option String
  signals : List RawSignal
  volatility : Option ℚ
  volatilityPercentile : Option ℚ

/-- The parameters of a listing, in the ranges that the framework checks. -/
structure ListQuery where
  minScore : ℚ
  minTier : Option String
  symbol : Option String
  status : Option String
  excludeStale : Bool
  limit : ℕ
  offset : ℕ
  minScore_nonneg : 0 ≤ minScore
  minScore_le : minScore ≤ 100
  limit_pos : 0 < limit
  limit_le : limit ≤ 200

inductive Request
  | listOpportunities (query : ListQuery)
  | getOpportunity (id : String)
  /-- `drawn` is what `uuid4` would give. -/
  | scoreSignals (drawn : String) (body : ScoreBody)
  | updateStatus (id : String) (status : Option String) (outcomeReturn : Option ℚ)
  | getStats

structure Call where
  now : ℤ
  request : Request

/-- `to_dict`. -/
structure View where
  opportunityId : String
  symbol : String
  direction : String
  opportunityScore : ℚ
  opportunityTier : String
  opportunityScoreCachedAt : ℤ
  status : String
  marketRegime : String
  strategiesAnalyzed : ℕ
  strategiesAgreeing : ℕ
  topStrategy : Option String
  reasoning : String
  displayAgeMinutes : ℤ
  isStale : Bool
  opportunityFactors : Breakdown
  contributingSignals : List (String × String × String × ℚ × Option String)

def ScoredOpportunity.toDict (now : ℤ) (o : ScoredOpportunity) : View where
  opportunityId := o.opportunityId
  symbol := o.symbol
  direction := o.direction
  opportunityScore := o.opportunityScore
  opportunityTier := o.tier
  opportunityScoreCachedAt := o.scoredAt
  status := o.status.value
  marketRegime := o.marketRegime
  strategiesAnalyzed := o.strategiesAnalyzed
  strategiesAgreeing := o.strategiesAgreeing
  topStrategy := o.topStrategy
  reasoning := o.reasoning
  displayAgeMinutes := o.displayAgeMinutes now
  isStale := o.isStale now
  opportunityFactors := o.scoreBreakdown
  contributingSignals := o.contributingSignals.map fun s =>
    (s.source, s.signalId, s.direction, s.confidence, s.strategyName)

inductive Response
  | validationError (message : String)
  | notFound (resource identifier : String)
  | scoringResult (message : String)
  | opportunity (statusCode : ℕ) (view : View)
  | collection (items : List View) (total limit offset : ℕ)
  | stats (stats : Stats)

/-- What a listing asks for of one opportunity before it is ranked. -/
def ListQuery.selects (q : ListQuery) (o : ScoredOpportunity) : Bool :=
  ((given q.symbol).all fun symbol => o.symbol = symbol) &&
    (given q.status).all fun status => o.status.value = status

def listOpportunities (now : ℤ) (t : Tracker) (q : ListQuery) : Response :=
  if (given q.minTier).any fun tier => tier ∉ ["HOT", "GOOD", "NEUTRAL", "LOW"] then
    .validationError "Invalid min_tier. Must be HOT, GOOD, NEUTRAL, or LOW."
  else if (given q.status).any fun status =>
      status ∉ OpportunityStatus.all.map OpportunityStatus.value then
    .validationError ("Invalid status. Must be one of: " ++
      ", ".intercalate (OpportunityStatus.all.map OpportunityStatus.value))
  else
    let allOpps := if q.excludeStale then t.listActive else t.listAll
    let ranked := rankOpportunities now (allOpps.filter q.selects) q.minScore q.minTier
      q.excludeStale
    .collection (((ranked.drop q.offset).take q.limit).map (ScoredOpportunity.toDict now))
      ranked.length q.limit q.offset

def getOpportunity (now : ℤ) (t : Tracker) (id : String) : Response :=
  match t.get id with
  | none => .notFound "opportunity" id
  | some o => .opportunity 200 (o.toDict now)

/-- The opportunity that a request to score signals creates. -/
def ScoreBody.opportunity (now : ℤ) (drawn : String) (body : ScoreBody) :
    Option ScoredOpportunity := do
  let symbol ← given body.symbol
  aggregateSignals now drawn symbol (body.signals.map RawSignal.toSignal) body.volatility
    body.volatilityPercentile

def scoreSignals (now : ℤ) (t : Tracker) (drawn : String) (body : ScoreBody) :
    Tracker × Response :=
  if given body.symbol = none then (t, .validationError "symbol is required")
  else if body.signals.isEmpty then
    (t, .validationError "signals list is required and cannot be empty")
  else
    match body.opportunity now drawn with
    | none =>
      (t, .scoringResult "No actionable opportunity — signals lack consensus")
    | some o => (t.track o, .opportunity 201 (o.toDict now))

/-- The method of the tracker that a new status calls. -/
def Tracker.update (t : Tracker) (now : ℤ) (id : String) (outcomeReturn : Option ℚ) :
    OpportunityStatus → Option (Tracker × Bool)
  | .signaled => some (t.markSignaled id)
  | .entered => some (t.markEntered now id)
  | .closed => some (t.markClosed now id outcomeReturn)
  | .expired => some (t.markExpired id)
  | .scored => none

def statusOf (text : String) : Option OpportunityStatus :=
  OpportunityStatus.all.find? fun status => status.value = text

def updateStatus (now : ℤ) (t : Tracker) (id : String) (status : Option String)
    (outcomeReturn : Option ℚ) : Tracker × Response :=
  match given status with
  | none => (t, .validationError "status is required")
  | some newStatus =>
    match t.get id with
    | none => (t, .notFound "opportunity" id)
    | some o =>
      match (statusOf newStatus).bind (t.update now id outcomeReturn) with
      | none =>
        (t, .validationError "Invalid status. Must be one of: signaled, entered, closed, expired")
      | some (t', false) =>
        (t', .validationError
          ("Cannot transition from '" ++ o.status.value ++ "' to '" ++ newStatus ++ "'"))
      | some (t', true) =>
        match t'.get id with
        | none => (t', .notFound "opportunity" id)
        | some o' => (t', .opportunity 200 (o'.toDict now))

def handle (t : Tracker) (call : Call) : Tracker × Response :=
  match call.request with
  | .listOpportunities query => (t, listOpportunities call.now t query)
  | .getOpportunity id => (t, getOpportunity call.now t id)
  | .scoreSignals drawn body => scoreSignals call.now t drawn body
  | .updateStatus id status outcomeReturn => updateStatus call.now t id status outcomeReturn
  | .getStats => (t, .stats t.getStats)

/-- A call with what it was answered. -/
structure Exchange where
  call : Call
  response : Response

def step (t : Tracker) (call : Call) : Tracker × Exchange :=
  ((handle t call).1, ⟨call, (handle t call).2⟩)

/-- The calls on a new tracker. -/
def run (calls : List Call) : Tracker × List Exchange := Transducer.run (single step) [] calls

theorem run_append_singleton (calls : List Call) (call : Call) :
    run (calls ++ [call]) = ((handle (run calls).1 call).1,
      (run calls).2 ++ [⟨call, (handle (run calls).1 call).2⟩]) :=
  run_concat _ _ _ _

/-! ### What a call does -/

section
variable {t : Tracker} {call : Call}

/-- The opportunity that a call creates. -/
def Call.creation (call : Call) : Option ScoredOpportunity :=
  match call.request with
  | .scoreSignals drawn body => body.opportunity call.now drawn
  | _ => none

/-- How a status is asked for, and when. -/
structure Change where
  status : OpportunityStatus
  now : ℤ
  outcomeReturn : Option ℚ

def ScoredOpportunity.change (o : ScoredOpportunity) (c : Change) : Option ScoredOpportunity :=
  match c.status with
  | .scored => none
  | .signaled => o.signaled
  | .entered => o.entered c.now
  | .closed => o.closed c.now c.outcomeReturn
  | .expired => o.expired

/-- The opportunity that a call names, and the change that it asks for. -/
def Call.change (call : Call) : Option (String × Change) :=
  match call.request with
  | .updateStatus id status outcomeReturn =>
    ((given status).bind statusOf).map fun s => (id, ⟨s, call.now, outcomeReturn⟩)
  | _ => none

/-- With what code an opportunity is answered. -/
def Response.code : Response → Option ℕ
  | .opportunity statusCode _ => some statusCode
  | _ => none

/-- Everything that a call can do to the tracker, with what it is answered where it does it. -/
inductive Effect (t : Tracker) (call : Call) : Tracker × Response → Prop
  | created {o : ScoredOpportunity} (h : call.creation = some o) :
      Effect t call (t.track o, .opportunity 201 (o.toDict call.now))
  | changed {id : String} {c : Change} {o o' : ScoredOpportunity} (h : call.change = some (id, c))
      (hheld : t.get id = some o) (hchange : o.change c = some o') :
      Effect t call (setItem t id o', .opportunity 200 (o'.toDict call.now))
  | unchanged {r : Response} (hcreation : call.creation = none ∨ r.code ≠ some 201)
      (hchange : call.change = none ∨ r.code ≠ some 200) : Effect t call (t, r)

theorem Effect.of_code {r : Response} (h : r.code = none) : Effect t call (t, r) := by
  have hne (n : ℕ) : r.code ≠ some n := by simp [h]
  exact .unchanged (Or.inr (hne 201)) (Or.inr (hne 200))

theorem mark_eq (id : String) (change : ScoredOpportunity → Option ScoredOpportunity)
    {o : ScoredOpportunity} (h : t.get id = some o) :
    t.mark id change = match change o with
      | none => (t, false)
      | some o' => (setItem t id o', true) := by
  rw [Tracker.mark, h, Option.bind_some]

theorem update_eq (now : ℤ) {id : String} (outcomeReturn : Option ℚ) {o : ScoredOpportunity}
    (h : t.get id = some o) {s : OpportunityStatus} (hs : s ≠ .scored) :
    t.update now id outcomeReturn s = some (match o.change ⟨s, now, outcomeReturn⟩ with
      | none => (t, false)
      | some o' => (setItem t id o', true)) := by
  cases s with
  | scored => exact absurd rfl hs
  | signaled => exact congrArg some (mark_eq id _ h)
  | entered => exact congrArg some (mark_eq id _ h)
  | closed => exact congrArg some (mark_eq id _ h)
  | expired => exact congrArg some (mark_eq id _ h)

theorem effect_scoreSignals (drawn : String) (body : ScoreBody)
    (hrequest : call.request = .scoreSignals drawn body) :
    Effect t call (scoreSignals call.now t drawn body) := by
  rw [scoreSignals]
  split_ifs
  · exact .of_code rfl
  · exact .of_code rfl
  · cases hcreated : body.opportunity call.now drawn with
    | none => exact .of_code rfl
    | some o => exact .created (by rw [Call.creation, hrequest]; exact hcreated)

theorem effect_updateStatus (id : String) (status : Option String) (outcomeReturn : Option ℚ)
    (hrequest : call.request = .updateStatus id status outcomeReturn) :
    Effect t call (updateStatus call.now t id status outcomeReturn) := by
  rw [updateStatus]
  cases hgiven : given status with
  | none => exact .of_code rfl
  | some newStatus =>
    cases hheld : t.get id with
    | none => exact .of_code rfl
    | some o =>
      dsimp only
      cases hs : statusOf newStatus with
      | none => exact .of_code rfl
      | some s =>
        by_cases hscored : s = .scored
        · subst hscored
          exact .of_code rfl
        · rw [Option.bind_some, update_eq call.now outcomeReturn hheld hscored]
          cases hchange : o.change ⟨s, call.now, outcomeReturn⟩ with
          | none => exact .of_code rfl
          | some o' =>
            have hget : Tracker.get (setItem t id o') id = some o' := lookup_setItem_self t id o'
            simp only [hget]
            refine @Effect.changed t call id ⟨s, call.now, outcomeReturn⟩ o o' ?_ hheld hchange
            rw [Call.change, hrequest]
            simp only [hgiven, Option.bind_some, hs, Option.map_some]

theorem effect_handle (t : Tracker) (call : Call) : Effect t call (handle t call) := by
  rw [handle]
  cases hrequest : call.request with
  | listOpportunities query =>
    exact .unchanged (Or.inl (by rw [Call.creation, hrequest]))
      (Or.inl (by rw [Call.change, hrequest]))
  | getOpportunity id =>
    exact .unchanged (Or.inl (by rw [Call.creation, hrequest]))
      (Or.inl (by rw [Call.change, hrequest]))
  | scoreSignals drawn body => exact effect_scoreSignals drawn body hrequest
  | updateStatus id status outcomeReturn =>
    exact effect_updateStatus id status outcomeReturn hrequest
  | getStats =>
    exact .unchanged (Or.inl (by rw [Call.creation, hrequest]))
      (Or.inl (by rw [Call.change, hrequest]))

end

/-! ### The life of an opportunity -/

def Exchange.created (e : Exchange) : Option ScoredOpportunity :=
  if e.response.code = some 201 then e.call.creation else none

def Exchange.changed (e : Exchange) : Option (String × Change) :=
  if e.response.code = some 200 then e.call.change else none

def Exchange.changeOf (id : String) (e : Exchange) : Option Change :=
  (e.changed.filter fun named => named.1 = id).map Prod.snd

/-- The opportunities that were answered with 201. -/
def creations (log : List Exchange) : List ScoredOpportunity := log.filterMap Exchange.created

/-- The changes of one opportunity that were answered with 200. -/
def changesOf (id : String) (log : List Exchange) : List Change :=
  log.filterMap (Exchange.changeOf id)

theorem creations_append_singleton (log : List Exchange) (e : Exchange) :
    creations (log ++ [e]) = creations log ++ e.created.toList := by
  rw [creations, List.filterMap_append]
  cases h : e.created <;> simp [creations, h]

theorem changesOf_append_singleton (id : String) (log : List Exchange) (e : Exchange) :
    changesOf id (log ++ [e]) = changesOf id log ++ (e.changeOf id).toList := by
  rw [changesOf, List.filterMap_append]
  cases h : e.changeOf id <;> simp [changesOf, h]

namespace OpportunityStatus

/-- How far along a status is. -/
def rank : OpportunityStatus → ℕ
  | scored => 0
  | signaled => 1
  | entered => 2
  | closed => 3
  | expired => 3

theorem Moves.rank_lt {s s' : OpportunityStatus} (h : Moves s s') : s.rank < s'.rank := by
  cases h <;> decide

theorem rank_le (s : OpportunityStatus) : s.rank ≤ 3 := by cases s <;> decide

/-- Every move gets further, so that there are no more than three. -/
theorem length_add_rank_le {s : OpportunityStatus} {l : List OpportunityStatus}
    (h : (s :: l).IsChain Moves) : l.length + s.rank ≤ 3 := by
  induction l generalizing s with
  | nil => simpa using s.rank_le
  | cons s' l ih =>
    rw [List.isChain_cons_cons] at h
    have hlt := h.1.rank_lt
    have hrest := ih h.2
    rw [List.length_cons]
    omega

end OpportunityStatus

/-- What an opportunity is after the changes that were made of it since it was `o₀`. -/
structure Lived (o₀ : ScoredOpportunity) (changes : List Change) (o : ScoredOpportunity) :
    Prop where
  path : (OpportunityStatus.scored :: changes.map Change.status).IsChain OpportunityStatus.Moves
  status : o.status = (changes.map Change.status).getLastD .scored
  enteredAt : o.enteredAt = (changes.find? fun c => c.status = .entered).map Change.now
  closedAt : o.closedAt = (changes.find? fun c => c.status = .closed).map Change.now
  outcomeReturn :
    o.outcomeReturn = (changes.find? fun c => c.status = .closed).bind Change.outcomeReturn
  others : { o₀ with
    status := o.status
    enteredAt := o.enteredAt
    closedAt := o.closedAt
    outcomeReturn := o.outcomeReturn } = o

section
variable {o o₀ o' : ScoredOpportunity} {c : Change} {changes : List Change}

/-- What a change does. -/
theorem change_eq_some (h : o.change c = some o') : OpportunityStatus.Moves o.status c.status ∧
    o' = { o with
      status := c.status
      enteredAt := if c.status = .entered then some c.now else o.enteredAt
      closedAt := if c.status = .closed then some c.now else o.closedAt
      outcomeReturn := if c.status = .closed then c.outcomeReturn else o.outcomeReturn } := by
  obtain ⟨status, now, outcomeReturn⟩ := c
  cases status with
  | scored => cases h
  | signaled =>
    simp only [ScoredOpportunity.change, ScoredOpportunity.signaled] at h
    split_ifs at h with hstatus
    rw [hstatus]
    exact ⟨.signal, (Option.some.inj h).symm⟩
  | entered =>
    simp only [ScoredOpportunity.change, ScoredOpportunity.entered] at h
    split_ifs at h with hstatus
    refine ⟨?_, (Option.some.inj h).symm⟩
    rcases hstatus with hstatus | hstatus
    · exact hstatus ▸ .enter
    · exact hstatus ▸ .enterSignaled
  | closed =>
    simp only [ScoredOpportunity.change, ScoredOpportunity.closed] at h
    split_ifs at h with hstatus
    rw [hstatus]
    exact ⟨.close, (Option.some.inj h).symm⟩
  | expired =>
    simp only [ScoredOpportunity.change, ScoredOpportunity.expired] at h
    split_ifs at h with hstatus
    refine ⟨?_, (Option.some.inj h).symm⟩
    cases hs : o.status with
    | scored => exact .expire
    | signaled => exact .expireSignaled
    | entered => exact .expireEntered
    | closed => exact absurd (Or.inl hs) hstatus
    | expired => exact absurd (Or.inr hs) hstatus

theorem Lived.change (h : Lived o₀ changes o) (hchange : o.change c = some o') :
    Lived o₀ (changes ++ [c]) o' := by
  obtain ⟨hmoves, rfl⟩ := change_eq_some hchange
  rw [h.status] at hmoves
  have hpath : (OpportunityStatus.scored :: (changes ++ [c]).map Change.status).IsChain
      OpportunityStatus.Moves := by
    rw [List.map_append, ← List.cons_append, List.isChain_append]
    refine ⟨h.path, List.isChain_singleton _, ?_⟩
    intro s hs s' hs'
    rw [List.getLast?_cons, Option.mem_some_iff] at hs
    rw [List.map_singleton, List.head?_cons, Option.mem_some_iff] at hs'
    rw [← hs, ← hs', ← List.getLastD_eq_getLast?]
    exact hmoves
  -- a status that a change leads to is none that one led to before
  have hnone : ∀ s : OpportunityStatus, c.status = s →
      (changes.find? fun c => c.status = s) = none := by
    rintro s rfl
    rw [List.find?_eq_none]
    intro c' hc' hsame
    have hpair : (changes ++ [c]).map Change.status |>.Pairwise fun s s' => s.rank < s'.rank :=
      (List.isChain_iff_pairwise.mp (hpath.tail.imp fun _ _ => OpportunityStatus.Moves.rank_lt))
    rw [List.map_append, List.pairwise_append] at hpair
    have hlt := hpair.2.2 c'.status (List.mem_map_of_mem hc') c.status (by simp)
    rw [of_decide_eq_true hsame] at hlt
    exact lt_irrefl _ hlt
  refine ⟨hpath, ?_, ?_, ?_, ?_, ?_⟩
  · rw [List.map_append, List.map_singleton, List.getLastD_concat]
  · rw [List.find?_append]
    by_cases hs : c.status = .entered
    · simp [hs, hnone _ hs]
    · simp [hs, h.enteredAt]
  · rw [List.find?_append]
    by_cases hs : c.status = .closed
    · simp [hs, hnone _ hs]
    · simp [hs, h.closedAt]
  · rw [List.find?_append]
    by_cases hs : c.status = .closed
    · simp [hs, hnone _ hs]
    · simp [hs, h.outcomeReturn]
  · rw [← h.others]

end

/-! ### Over a run -/

/-- The tracker against what has been answered. -/
structure Tracker.Follows (t : Tracker) (log : List Exchange) : Prop where
  keys : t.map Prod.fst = (creations log).map ScoredOpportunity.opportunityId
  lived : ∀ id o, t.get id = some o → ∃ o₀ ∈ creations log, o₀.opportunityId = id ∧
    Lived o₀ (changesOf id log) o
  absent : ∀ id, t.get id = none → changesOf id log = []

section
variable {t : Tracker} {log : List Exchange} {call : Call} {id : String}
  {o o' : ScoredOpportunity} {c : Change} {r : Response}

theorem get_eq_none_iff : t.get id = none ↔ id ∉ t.map Prod.fst := by
  rw [Tracker.get, List.lookup_eq_none_iff, List.mem_map]
  simp only [bne_iff_ne, ne_eq, not_exists, not_and]
  exact ⟨fun h e he heq => h e he heq.symm, fun h e he heq => h e he heq.symm⟩

theorem mem_keys_of_get (hheld : t.get id = some o) : id ∈ t.map Prod.fst := by
  by_contra hnot
  rw [get_eq_none_iff.mpr hnot] at hheld
  cases hheld

theorem aggregateSignals_new {now : ℤ} {drawn symbol : String} {signals : List ContributingSignal}
    {volatility volatilityPercentile : Option ℚ}
    (h : aggregateSignals now drawn symbol signals volatility volatilityPercentile = some o) :
    Lived o [] o := by
  simp only [aggregateSignals] at h
  split_ifs at h
  obtain rfl := Option.some.inj h
  exact ⟨List.isChain_singleton _, rfl, rfl, rfl, rfl, rfl⟩

theorem lived_of_creation (h : call.creation = some o) : Lived o [] o := by
  rw [Call.creation] at h
  cases hrequest : call.request with
  | scoreSignals drawn body =>
    simp only [hrequest, ScoreBody.opportunity] at h
    obtain ⟨symbol, -, haggregate⟩ := Option.bind_eq_some_iff.mp h
    exact aggregateSignals_new haggregate
  | listOpportunities query => simp only [hrequest] at h; cases h
  | getOpportunity id => simp only [hrequest] at h; cases h
  | updateStatus id status outcomeReturn => simp only [hrequest] at h; cases h
  | getStats => simp only [hrequest] at h; cases h

theorem created_exchange (h : call.creation = some o) :
    (Exchange.mk call (.opportunity 201 (o.toDict call.now))).created = some o ∧
      (Exchange.mk call (.opportunity 201 (o.toDict call.now))).changed = none := by
  refine ⟨?_, ?_⟩
  · simp [Exchange.created, Response.code, h]
  · rw [Exchange.changed, if_neg (by simp [Response.code])]

theorem changed_exchange (h : call.change = some (id, c)) :
    (Exchange.mk call (.opportunity 200 (o.toDict call.now))).created = none ∧
      (Exchange.mk call (.opportunity 200 (o.toDict call.now))).changed = some (id, c) := by
  refine ⟨?_, ?_⟩
  · rw [Exchange.created, if_neg (by simp [Response.code])]
  · simp [Exchange.changed, Response.code, h]

theorem unchanged_exchange (hcreation : call.creation = none ∨ r.code ≠ some 201)
    (hchange : call.change = none ∨ r.code ≠ some 200) :
    (Exchange.mk call r).created = none ∧ (Exchange.mk call r).changed = none := by
  rw [Exchange.created, Exchange.changed]
  constructor
  · split_ifs with hcode
    · exact hcreation.resolve_right (not_not.mpr hcode)
    · rfl
  · split_ifs with hcode
    · exact hchange.resolve_right (not_not.mpr hcode)
    · rfl

theorem Tracker.Follows.create (h : t.Follows log) {e : Exchange} (hcreated : e.created = some o)
    (hchanged : e.changed = none) (hnew : Lived o [] o)
    (hid : o.opportunityId ∉ (creations log).map ScoredOpportunity.opportunityId) :
    (t.track o).Follows (log ++ [e]) := by
  have hcreations : creations (log ++ [e]) = creations log ++ [o] := by
    rw [creations_append_singleton, hcreated, Option.toList_some]
  have hchanges (id : String) : changesOf id (log ++ [e]) = changesOf id log := by
    rw [changesOf_append_singleton, Exchange.changeOf, hchanged]
    simp
  rw [← h.keys] at hid
  refine ⟨?_, fun id o' hget => ?_, fun id hnone => ?_⟩
  · rw [Tracker.track, setItem, if_neg hid, List.map_append, h.keys, hcreations, List.map_append]
    rfl
  · rw [hchanges, hcreations]
    by_cases hsame : id = o.opportunityId
    · subst hsame
      rw [Tracker.get, Tracker.track, lookup_setItem_self] at hget
      obtain rfl := Option.some.inj hget
      rw [h.absent _ (get_eq_none_iff.mpr hid)]
      exact ⟨o, by simp, rfl, hnew⟩
    · rw [Tracker.get, Tracker.track, lookup_setItem_of_ne _ hsame] at hget
      obtain ⟨o₀, hmem, heq, hlived⟩ := h.lived id o' hget
      exact ⟨o₀, List.mem_append_left _ hmem, heq, hlived⟩
  · rw [hchanges]
    apply h.absent
    by_cases hsame : id = o.opportunityId
    · rw [hsame, Tracker.get, Tracker.track, lookup_setItem_self] at hnone
      cases hnone
    · rwa [Tracker.get, Tracker.track, lookup_setItem_of_ne _ hsame] at hnone

theorem Tracker.Follows.change (h : t.Follows log) {e : Exchange} (hcreated : e.created = none)
    (hchanged : e.changed = some (id, c)) (hheld : t.get id = some o)
    (hchange : o.change c = some o') : Tracker.Follows (setItem t id o') (log ++ [e]) := by
  have hcreations : creations (log ++ [e]) = creations log := by
    rw [creations_append_singleton, hcreated, Option.toList_none, List.append_nil]
  have hself : changesOf id (log ++ [e]) = changesOf id log ++ [c] := by
    rw [changesOf_append_singleton, Exchange.changeOf, hchanged]
    simp
  have hother {j : String} (hne : j ≠ id) : changesOf j (log ++ [e]) = changesOf j log := by
    rw [changesOf_append_singleton, Exchange.changeOf, hchanged]
    simp [Ne.symm hne]
  refine ⟨?_, fun j o₁ hget => ?_, fun j hnone => ?_⟩
  · rw [hcreations, ← h.keys, setItem, if_pos (mem_keys_of_get hheld), List.map_map]
    apply List.map_congr_left
    intro e' _
    by_cases he : e'.1 = id <;> simp [he]
  · rw [hcreations]
    by_cases hsame : j = id
    · subst hsame
      rw [Tracker.get, lookup_setItem_self] at hget
      obtain rfl := Option.some.inj hget
      obtain ⟨o₀, hcreation, heq, hlived⟩ := h.lived j o hheld
      rw [hself]
      exact ⟨o₀, hcreation, heq, hlived.change hchange⟩
    · rw [Tracker.get, lookup_setItem_of_ne _ hsame] at hget
      rw [hother hsame]
      exact h.lived j o₁ hget
  · by_cases hsame : j = id
    · rw [hsame, Tracker.get, lookup_setItem_self] at hnone
      cases hnone
    · rw [Tracker.get, lookup_setItem_of_ne _ hsame] at hnone
      rw [hother hsame]
      exact h.absent j hnone

theorem Tracker.Follows.keep (h : t.Follows log) {e : Exchange} (hcreated : e.created = none)
    (hchanged : e.changed = none) : t.Follows (log ++ [e]) := by
  have hcreations : creations (log ++ [e]) = creations log := by
    rw [creations_append_singleton, hcreated, Option.toList_none, List.append_nil]
  have hchanges (id : String) : changesOf id (log ++ [e]) = changesOf id log := by
    rw [changesOf_append_singleton, Exchange.changeOf, hchanged]
    simp
  refine ⟨hcreations ▸ h.keys, fun id o hget => ?_, fun id hnone => ?_⟩
  · rw [hcreations, hchanges]
    exact h.lived id o hget
  · rw [hchanges]
    exact h.absent id hnone

/-- No identifier is drawn twice. -/
def Apart (log : List Exchange) : Prop :=
  ((creations log).map ScoredOpportunity.opportunityId).Nodup

theorem Apart.of_append {e : Exchange} (h : Apart (log ++ [e])) : Apart log := by
  rw [Apart, creations_append_singleton, List.map_append] at h
  exact h.of_append_left

theorem Apart.notMem_keys {e : Exchange} (h : Apart (log ++ [e])) (hcreated : e.created = some o) :
    o.opportunityId ∉ (creations log).map ScoredOpportunity.opportunityId := by
  rw [Apart, creations_append_singleton, hcreated, List.map_append] at h
  intro hmem
  exact (List.disjoint_of_nodup_append h) hmem (by simp)

theorem follows_run (calls : List Call) (hids : Apart (run calls).2) :
    (run calls).1.Follows (run calls).2 := by
  induction calls using List.reverseRecOn with
  | nil =>
    have hnone (id : String) : (run []).1.get id = none := rfl
    exact ⟨rfl, fun id o hget => absurd hget (by simp [hnone]), fun _ _ => rfl⟩
  | append_singleton calls call ih =>
    rw [run_append_singleton] at hids ⊢
    have hbefore := ih hids.of_append
    have heffect := effect_handle (run calls).1 call
    generalize handle (run calls).1 call = answered at heffect hids ⊢
    cases heffect with
    | @created o hcreation =>
      obtain ⟨hcreated, hchanged⟩ := created_exchange hcreation
      exact hbefore.create hcreated hchanged (lived_of_creation hcreation)
        (hids.notMem_keys hcreated)
    | @changed id c o o' hchange hheld hnext =>
      obtain ⟨hcreated, hchanged⟩ := changed_exchange (o := o') hchange
      exact hbefore.change hcreated hchanged hheld hnext
    | @unchanged r hcreation hchange =>
      obtain ⟨hcreated, hchanged⟩ := unchanged_exchange hcreation hchange
      exact hbefore.keep hcreated hchanged

/-- Whatever the calls, an opportunity is what the changes that were answered with 200 have made
of the one that was answered with 201: they lead from one status to a later one, there are no more
than three of them, and all else is as it was when it was scored. -/
theorem opportunity_lived (calls : List Call) (hids : Apart (run calls).2)
    (hget : (run calls).1.get id = some o) :
    ∃ o₀ ∈ creations (run calls).2, o₀.opportunityId = id ∧
      Lived o₀ (changesOf id (run calls).2) o ∧ (changesOf id (run calls).2).length ≤ 3 := by
  obtain ⟨o₀, hmem, hid, hlived⟩ := (follows_run calls hids).lived id o hget
  refine ⟨o₀, hmem, hid, hlived, ?_⟩
  have hle := OpportunityStatus.length_add_rank_le hlived.path
  rw [List.length_map] at hle
  omega

end

/-- An opportunity that is entered and closed; a second closing is refused. -/
def tradeCalls : List Call :=
  [⟨0, .scoreSignals "k" ⟨some "BTC/USD",
      [⟨none, none, some "BUY", some (9 / 10), some "rsi", none, none⟩], none, none⟩⟩,
    ⟨1, .updateStatus "k" (some "entered") none⟩,
    ⟨2, .updateStatus "k" (some "closed") (some (1 / 40))⟩,
    ⟨3, .updateStatus "k" (some "closed") (some (1 / 50))⟩]

theorem apart_tradeCalls : Apart (run tradeCalls).2 := by
  rw [Apart]
  decide +kernel

theorem tradeCalls_lived : ∃ o, (run tradeCalls).1.get "k" = some o ∧
    ∃ o₀ ∈ creations (run tradeCalls).2, o₀.opportunityId = "k" ∧
      Lived o₀ (changesOf "k" (run tradeCalls).2) o ∧
        (changesOf "k" (run tradeCalls).2).length ≤ 3 := by
  have hsome : ((run tradeCalls).1.get "k").isSome := by decide +kernel
  obtain ⟨o, hget⟩ := Option.isSome_iff_exists.mp hsome
  exact ⟨o, hget, opportunity_lived tradeCalls apart_tradeCalls hget⟩

/-! ### The statistics -/

/-- The changes that were answered with 200, of any opportunity. -/
def changes (log : List Exchange) : List Change :=
  (log.filterMap Exchange.changed).map Prod.snd

/-- The statistics against what has been answered. -/
structure Stats.Accounts (s : Stats) (log : List Exchange) : Prop where
  total : s.total = (creations log).length
  byTier : ∀ tier, (s.byTier.lookup tier).getD 0 = (creations log).countP fun o => o.tier = tier
  avgScore : s.avgScore = if 0 < (creations log).length then
      roundTo 1 (((creations log).map ScoredOpportunity.opportunityScore).sum /
        (creations log).length)
    else 0
  closed : (s.byStatus.lookup "closed").getD 0 = (changes log).countP fun c => c.status = .closed
  expired :
    (s.byStatus.lookup "expired").getD 0 = (changes log).countP fun c => c.status = .expired
  byStatus : (s.byStatus.map Prod.snd).sum = s.total

/-- What no change of an opportunity touches. -/
def ScoredOpportunity.standing (o : ScoredOpportunity) : ℚ × String := (o.opportunityScore, o.tier)

/-- The opportunities that are held against those that were created and those that were changed. -/
structure Tracker.Counts (t : Tracker) (log : List Exchange) : Prop where
  standing : t.listAll.map ScoredOpportunity.standing =
    (creations log).map ScoredOpportunity.standing
  ended : ∀ s, s = .closed ∨ s = .expired →
    (t.listAll.countP fun o => o.status = s) = (changes log).countP fun c => c.status = s

section
variable {t : Tracker} {log : List Exchange} {id : String} {o o' : ScoredOpportunity} {c : Change}

theorem changes_append_singleton (log : List Exchange) (e : Exchange) :
    changes (log ++ [e]) = changes log ++ (e.changed.map Prod.snd).toList := by
  rw [changes, List.filterMap_append, List.map_append]
  cases h : e.changed <;> simp [changes, h]

theorem listAll_track (h : t.get o.opportunityId = none) :
    (t.track o).listAll = t.listAll ++ [o] := by
  rw [Tracker.listAll, Tracker.track, setItem, if_neg (get_eq_none_iff.mp h), List.map_append]
  rfl

theorem eq_of_mem_of_get (hkeys : (t.map Prod.fst).Nodup) (hheld : t.get id = some o)
    {e : String × ScoredOpportunity} (he : e ∈ t) (hkey : e.1 = id) : e.2 = o := by
  have hlookup := lookup_eq_some_of_mem hkeys he
  rw [hkey] at hlookup
  rw [Tracker.get] at hheld
  exact Option.some.inj (hlookup.symm.trans hheld)

theorem setItem_of_get (hkeys : (t.map Prod.fst).Nodup) (hheld : t.get id = some o) :
    setItem t id o = t := by
  rw [setItem, if_pos (mem_keys_of_get hheld)]
  conv_rhs => rw [← List.map_id' t]
  apply List.map_congr_left
  intro e he
  by_cases hkey : e.1 = id
  · rw [if_pos hkey, ← eq_of_mem_of_get hkeys hheld he hkey, ← hkey]
  · rw [if_neg hkey]

/-- An opportunity that is replaced counts before as the new one does afterwards. -/
theorem countP_listAll_setItem (hkeys : (t.map Prod.fst).Nodup) (hheld : t.get id = some o)
    (p : ScoredOpportunity → Bool) (o' : ScoredOpportunity) :
    (Tracker.listAll (setItem t id o')).countP p + [o].countP p =
      t.listAll.countP p + [o'].countP p := by
  have hsplit := setItem_perm hkeys id o
  rw [setItem_of_get hkeys hheld] at hsplit
  have hnew := setItem_perm hkeys id o'
  rw [Tracker.listAll, Tracker.listAll, ((hnew.map Prod.snd).countP_eq p),
    ((hsplit.map Prod.snd).countP_eq p)]
  simp only [List.map_append, List.countP_append, List.map_singleton]
  omega

theorem listAll_setItem_standing (hheld : t.get id = some o)
    (hkeys : (t.map Prod.fst).Nodup) (hsame : o'.standing = o.standing) :
    (Tracker.listAll (setItem t id o')).map ScoredOpportunity.standing =
      t.listAll.map ScoredOpportunity.standing := by
  rw [Tracker.listAll, Tracker.listAll, setItem, if_pos (mem_keys_of_get hheld), List.map_map,
    List.map_map, List.map_map]
  apply List.map_congr_left
  intro e he
  by_cases hkey : e.1 = id
  · simp [hkey, hsame, eq_of_mem_of_get hkeys hheld he hkey]
  · simp [hkey]

theorem counts_run (calls : List Call) (hids : Apart (run calls).2) :
    (run calls).1.Counts (run calls).2 := by
  induction calls using List.reverseRecOn with
  | nil => exact ⟨rfl, fun _ _ => rfl⟩
  | append_singleton calls call ih =>
    rw [run_append_singleton] at hids ⊢
    have hbefore := ih hids.of_append
    have hfollows := follows_run calls hids.of_append
    have hkeys : ((run calls).1.map Prod.fst).Nodup := by
      rw [hfollows.keys]
      exact hids.of_append
    have heffect := effect_handle (run calls).1 call
    generalize handle (run calls).1 call = answered at heffect hids ⊢
    cases heffect with
    | @created o hcreation =>
      obtain ⟨hcreated, hchanged⟩ := created_exchange hcreation
      have hnew : (run calls).1.get o.opportunityId = none := by
        rw [get_eq_none_iff, hfollows.keys]
        exact hids.notMem_keys hcreated
      have hscored : o.status = .scored := (lived_of_creation hcreation).status
      refine ⟨?_, fun s hs => ?_⟩
      · rw [listAll_track hnew, creations_append_singleton, hcreated, Option.toList_some,
          List.map_append, List.map_append, hbefore.standing]
      · rw [listAll_track hnew, changes_append_singleton, hchanged, List.countP_append,
          hbefore.ended s hs]
        rcases hs with rfl | rfl <;> simp [hscored]
    | @changed id c o o' hchange hheld hnext =>
      obtain ⟨hcreated, hchanged⟩ := changed_exchange (o := o') hchange
      obtain ⟨hmoves, ho'⟩ := change_eq_some hnext
      refine ⟨?_, fun s hs => ?_⟩
      · rw [listAll_setItem_standing hheld hkeys (by rw [ho']; rfl), creations_append_singleton,
          hcreated, Option.toList_none, List.append_nil, hbefore.standing]
      · have hcount := countP_listAll_setItem hkeys hheld (fun o => decide (o.status = s)) o'
        have hold : o.status ≠ s := by
          rintro rfl
          rcases hs with hs | hs <;> rw [hs] at hmoves <;> cases hmoves
        have hstatus : o'.status = c.status := by rw [ho']
        rw [changes_append_singleton, hchanged, List.countP_append, ← hbefore.ended s hs]
        simp only [List.countP_singleton, hold, hstatus, decide_false] at hcount
        simpa using hcount
    | @unchanged r hcreation hchange =>
      obtain ⟨hcreated, hchanged⟩ := unchanged_exchange hcreation hchange
      refine ⟨?_, fun s hs => ?_⟩
      · rw [creations_append_singleton, hcreated, Option.toList_none, List.append_nil]
        exact hbefore.standing
      · rw [changes_append_singleton, hchanged, Option.map_none, Option.toList_none,
          List.append_nil]
        exact hbefore.ended s hs

theorem sum_map_one {α : Type*} (l : List α) : (l.map fun _ => 1).sum = l.length := by
  rw [List.map_const', List.sum_replicate, smul_eq_mul, mul_one]

/-- The statistics are those of the answers: as many opportunities as were answered with 201, with
the tiers and the mean of the scores that they had there, and as many closed and expired ones as
such changes were answered with 200. -/
theorem stats_account (calls : List Call) (hids : Apart (run calls).2) :
    (run calls).1.getStats.Accounts (run calls).2 := by
  have hcounts := counts_run calls hids
  have hscores : (run calls).1.listAll.map ScoredOpportunity.opportunityScore =
      (creations (run calls).2).map ScoredOpportunity.opportunityScore := by
    have hfst := congrArg (List.map Prod.fst) hcounts.standing
    rw [List.map_map, List.map_map] at hfst
    exact hfst
  have htiers : (run calls).1.listAll.map ScoredOpportunity.tier =
      (creations (run calls).2).map ScoredOpportunity.tier := by
    have hsnd := congrArg (List.map Prod.snd) hcounts.standing
    rw [List.map_map, List.map_map] at hsnd
    exact hsnd
  have hlength := congrArg List.length hcounts.standing
  rw [List.length_map, List.length_map] at hlength
  have hstatus (s : OpportunityStatus) (text : String) (htext : ∀ s', s'.value = text ↔ s' = s) :
      (((run calls).1.getStats.byStatus).lookup text).getD 0 =
        (run calls).1.listAll.countP fun o => o.status = s := by
    rw [Tracker.getStats, getD_lookup_sumsOf, sum_map_one, List.countP_eq_length_filter]
    simp only [htext]
  refine ⟨hlength, fun tier => ?_, ?_, ?_, ?_, ?_⟩
  · rw [Tracker.getStats, getD_lookup_sumsOf, sum_map_one, ← List.countP_eq_length_filter]
    have hcount := congrArg (List.countP fun text => decide (text = tier)) htiers
    rwa [List.countP_map, List.countP_map] at hcount
  · rw [Tracker.getStats]
    simp only [hlength, hscores]
  · rw [hstatus .closed "closed" (by rintro ⟨⟩ <;> decide), hcounts.ended _ (Or.inl rfl)]
  · rw [hstatus .expired "expired" (by rintro ⟨⟩ <;> decide), hcounts.ended _ (Or.inr rfl)]
  · rw [Tracker.getStats]
    exact (sum_sumsOf _ _ _).trans (sum_map_one _)

end

theorem tradeCalls_account : (run tradeCalls).1.getStats.Accounts (run tradeCalls).2 :=
  stats_account tradeCalls apart_tradeCalls

/-! ### The pages of a listing -/

/-- What the listing of `q` is to hold. -/
def ListQuery.Matches (q : ListQuery) (now : ℤ) (o : ScoredOpportunity) : Prop :=
  (∀ symbol ∈ given q.symbol, o.symbol = symbol) ∧
    (∀ status ∈ given q.status, o.status.value = status) ∧
    q.minScore ≤ o.opportunityScore ∧
    (∀ tier ∈ given q.minTier, tierOrder tier ≤ tierOrder o.tier) ∧
    (q.excludeStale = true → o.status ≠ .closed ∧ o.status ≠ .expired ∧ o.isStale now = false)

instance (q : ListQuery) (now : ℤ) : DecidablePred (q.Matches now) := fun _ =>
  inferInstanceAs (Decidable (_ ∧ _ ∧ _ ∧ _ ∧ _))

/-- The filters of the query are ones that the endpoint knows. -/
structure ListQuery.Valid (q : ListQuery) : Prop where
  minTier : ∀ tier ∈ given q.minTier, tier ∈ ["HOT", "GOOD", "NEUTRAL", "LOW"]
  status : ∀ status ∈ given q.status, status ∈ OpportunityStatus.all.map OpportunityStatus.value

def Response.items : Response → List View
  | .collection items _ _ _ => items
  | _ => []

section
variable {t : Tracker} {q : ListQuery} {now : ℤ}

/-- What the endpoint ranks. -/
def ranked (now : ℤ) (t : Tracker) (q : ListQuery) : List ScoredOpportunity :=
  rankOpportunities now ((if q.excludeStale then t.listActive else t.listAll).filter q.selects)
    q.minScore q.minTier q.excludeStale

theorem listOpportunities_eq (h : q.Valid) : listOpportunities now t q =
    .collection ((((ranked now t q).drop q.offset).take q.limit).map
      (ScoredOpportunity.toDict now)) (ranked now t q).length q.limit q.offset := by
  have htier : ¬ (given q.minTier).any fun tier => tier ∉ ["HOT", "GOOD", "NEUTRAL", "LOW"] := by
    cases hgiven : given q.minTier with
    | none => exact Bool.false_ne_true
    | some tier =>
      rw [Option.any_some, decide_eq_true_eq, not_not]
      exact h.minTier tier hgiven
  have hstatus : ¬ (given q.status).any fun status =>
      status ∉ OpportunityStatus.all.map OpportunityStatus.value := by
    cases hgiven : given q.status with
    | none => exact Bool.false_ne_true
    | some status =>
      rw [Option.any_some, decide_eq_true_eq, not_not]
      exact h.status status hgiven
  rw [listOpportunities, if_neg htier, if_neg hstatus, ranked]

theorem selects_iff (o : ScoredOpportunity) : q.selects o = true ↔
    (∀ symbol ∈ given q.symbol, o.symbol = symbol) ∧
      ∀ status ∈ given q.status, o.status.value = status := by
  rw [ListQuery.selects, Bool.and_eq_true, Option.all_eq_true, Option.all_eq_true]
  simp only [decide_eq_true_eq, Option.mem_def]

theorem minTierValue_le_iff (minTier : Option String) (n : ℕ) :
    ((given minTier).map tierOrder).getD 0 ≤ n ↔
      ∀ tier ∈ given minTier, tierOrder tier ≤ n := by
  cases given minTier <;> simp

theorem pages_flatten {α : Type*} (l : List α) (limit n : ℕ) :
    ((List.range n).flatMap fun k => (l.drop (k * limit)).take limit) = l.take (n * limit) := by
  induction n with
  | zero => simp
  | succ n ih =>
    rw [List.range_succ, List.flatMap_append, ih, List.flatMap_singleton, Nat.succ_mul,
      List.take_add]

theorem ranked_eq :
    ranked now t q = (t.listAll.filter fun o => q.Matches now o).mergeSort scoreLe := by
  rw [ranked, rankOpportunities]
  congr 1
  rw [List.filter_filter]
  by_cases hstale : q.excludeStale = true
  · rw [if_pos hstale, Tracker.listActive, List.filter_filter]
    apply List.filter_congr
    intro o _
    rw [Bool.eq_iff_iff]
    simp only [Bool.and_eq_true, decide_eq_true_eq, selects_iff, not_lt, minTierValue_le_iff,
      ListQuery.Matches, hstale, true_and, not_or, forall_const, Bool.not_eq_true]
    tauto
  · rw [if_neg hstale]
    apply List.filter_congr
    intro o _
    rw [Bool.eq_iff_iff]
    simp only [Bool.and_eq_true, decide_eq_true_eq, selects_iff, not_lt, minTierValue_le_iff,
      ListQuery.Matches, hstale]
    tauto

theorem scoreLe_trans (a b c : ScoredOpportunity) (hab : scoreLe a b) (hbc : scoreLe b c) :
    scoreLe a c :=
  decide_eq_true ((of_decide_eq_true hbc).trans (of_decide_eq_true hab))

theorem scoreLe_total (a b : ScoredOpportunity) : scoreLe a b || scoreLe b a := by
  rw [scoreLe, scoreLe, Bool.or_eq_true, decide_eq_true_eq, decide_eq_true_eq]
  exact le_total _ _

/-- Those with one score stay in their order. -/
theorem filter_mergeSort_scoreLe (l : List ScoredOpportunity) (x : ℚ) :
    ((l.mergeSort scoreLe).filter fun o => o.opportunityScore = x) =
      l.filter fun o => o.opportunityScore = x := by
  have hsame : (l.filter fun o => o.opportunityScore = x).Pairwise fun a b => scoreLe a b := by
    apply List.Pairwise.imp_of_mem _ (List.pairwise_of_forall fun _ _ => trivial)
    intro a b ha hb _
    have ha := of_decide_eq_true (List.mem_filter.mp ha).2
    have hb := of_decide_eq_true (List.mem_filter.mp hb).2
    exact decide_eq_true (by rw [ha, hb])
  have hsub := (List.sublist_mergeSort scoreLe_trans scoreLe_total hsame
    List.filter_sublist).filter fun o => decide (o.opportunityScore = x)
  rw [List.filter_filter] at hsub
  simp only [Bool.and_self] at hsub
  refine (hsub.eq_of_length ?_).symm
  exact (((List.mergeSort_perm l scoreLe).filter _).length_eq).symm

/-- The query of a page. -/
def ListQuery.page (q : ListQuery) (k : ℕ) : ListQuery := { q with offset := k * q.limit }

/-- The pages of a listing, one after another, hold the opportunities that match, each of them
once: by score, and in the order in which they were tracked where the score is the same. -/
structure Paged (now : ℤ) (t : Tracker) (q : ListQuery) (ranking : List ScoredOpportunity) :
    Prop where
  perm : ranking ~ t.listAll.filter fun o => q.Matches now o
  sorted : ranking.Pairwise fun a b => b.opportunityScore ≤ a.opportunityScore
  stable : ∀ x, (ranking.filter fun o => o.opportunityScore = x) =
    (t.listAll.filter fun o => q.Matches now o).filter fun o => o.opportunityScore = x
  pages : ∀ n, ranking.length ≤ n * q.limit →
    ((List.range n).flatMap fun k => (listOpportunities now t (q.page k)).items) =
      ranking.map (ScoredOpportunity.toDict now)

theorem paged_listOpportunities (now : ℤ) (t : Tracker) (q : ListQuery) (hvalid : q.Valid) :
    ∃ ranking, Paged now t q ranking := by
  refine ⟨ranked now t q, ?_, ?_, fun x => ?_, fun n hn => ?_⟩
  · rw [ranked_eq]
    exact List.mergeSort_perm _ _
  · rw [ranked_eq]
    exact (List.pairwise_mergeSort scoreLe_trans scoreLe_total _).imp of_decide_eq_true
  · rw [ranked_eq]
    exact filter_mergeSort_scoreLe _ x
  · have hpage (k : ℕ) : (listOpportunities now t (q.page k)).items =
        (((ranked now t q).drop (k * q.limit)).take q.limit).map
          (ScoredOpportunity.toDict now) := by
      have hvalid' : (q.page k).Valid := ⟨hvalid.minTier, hvalid.status⟩
      rw [listOpportunities_eq hvalid']
      rfl
    simp only [hpage]
    rw [← List.map_flatMap, pages_flatten, List.take_of_length_le hn]

end

theorem hotScore_nonneg : (0 : ℚ) ≤ 60 := by norm_num

theorem hotScore_le : (60 : ℚ) ≤ 100 := by norm_num

theorem oneItem_le : 1 ≤ 200 := by decide

/-- Opportunities of high score, a page for each. -/
def hotQuery : ListQuery where
  minScore := 60
  minTier := some "GOOD"
  symbol := none
  status := none
  excludeStale := false
  limit := 1
  offset := 0
  minScore_nonneg := hotScore_nonneg
  minScore_le := hotScore_le
  limit_pos := Nat.one_pos
  limit_le := oneItem_le

theorem hotQuery_paged : ∃ ranking, Paged 5 (run tradeCalls).1 hotQuery ranking :=
  paged_listOpportunities 5 (run tradeCalls).1 hotQuery ⟨by decide, by decide⟩

end TradeStream.OpportunityEngine
