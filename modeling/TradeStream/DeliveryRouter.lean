import TradeStream.KeyedTable
import TradeStream.RunSteps

/-! `DeliveryRouter.route_signal` and its marks in Redis, for one signal and one user. A
call visits the user's channels one after another. -/
namespace TradeStream.Delivery
open TradeStream.KeyedTable TradeStream.RunSteps

structure ChannelPreference where
  channel : String
  channelId : String
  enabled : Bool
  minOpportunityScore : ℤ
  symbols : List String
  actions : List String
  quietHoursStart : Option String
  quietHoursEnd : Option String

structure UserDeliveryPreferences where
  userId : String
  dedupPreference : String
  primaryChannel : String
  fallbackOrder : List String
  tier : String
  channels : List (String × ChannelPreference)

structure Signal where
  opportunityScore : Option ℚ
  symbol : String
  action : String

structure DeliveryResult where
  success : Bool
  channel : String
  externalMessageId : String
  error : String
  retryable : Bool
  deriving DecidableEq

/-! ### `CrossChannelDeduplicator` -/

/-- The keys of the signal and the user: the set of channels that were delivered to and
its expiry, and the expiry of each channel's failure mark. -/
structure Marks where
  delivered : List String
  deliveredUntil : ℤ
  failed : Table String ℤ

namespace Marks
variable (ttlSeconds now : ℤ) (marks : Marks)

def empty : Marks := ⟨[], 0, ∅⟩

def smembers : List String := if now < marks.deliveredUntil then marks.delivered else []

def channelFailed (channel : String) : Bool := (marks.failed.lookup channel).any (now < ·)

def shouldDeliver (preference : String) : Bool :=
  match preference with
  | "all_enabled" => true
  | "primary_only" => (marks.smembers now).isEmpty
  | "fallback_chain" => (marks.smembers now).all (marks.channelFailed now)
  | _ => true

-- the failure mark of the channel is left as it is
def markDelivered (channel : String) : Marks :=
  { marks with
    delivered := (marks.smembers now).insert channel
    deliveredUntil := now + ttlSeconds }

def markFailed (channel : String) : Marks :=
  { marks with failed := marks.failed.insert channel (now + ttlSeconds) }

end Marks

/-! ### Which channels a signal goes to -/

def matchesFilters (preference : ChannelPreference) (signal : Signal) : Bool :=
  let score := signal.opportunityScore.getD 0
  !(score ≠ 0 && score < preference.minOpportunityScore) &&
    (preference.symbols.isEmpty || preference.symbols.contains signal.symbol) &&
    (preference.actions.isEmpty || preference.actions.contains signal.action)

def candidates (prefs : UserDeliveryPreferences) (signal : Signal) : List ChannelPreference :=
  (prefs.channels.map Prod.snd).filter fun preference =>
    preference.enabled && matchesFilters preference signal

/-- The candidates in the order of preference, and then the others. -/
def fallbackChain (order : List String) (available : List ChannelPreference) :
    List ChannelPreference :=
  let ordered := order.filterMap fun name => available.find? (·.channel = name)
  ordered ++ available.filter fun c => !(ordered.map (·.channel)).contains c.channel

def resolveChannels (prefs : UserDeliveryPreferences) (signal : Signal) :
    List ChannelPreference :=
  let available := candidates prefs signal
  match prefs.dedupPreference with
  | "primary_only" =>
    let primary := available.filter (·.channel = prefs.primaryChannel)
    if primary.isEmpty then available.take 1 else primary
  | "fallback_chain" => fallbackChain prefs.fallbackOrder available
  | _ => available

/-- A time of day in minutes; `none` where `int` or the second part fails. -/
def minutes (int : String → Option ℤ) (text : String) : Option ℤ :=
  match text.splitOn ":" with
  | hours :: minutes :: _ => do
    let hours ← int hours
    let minutes ← int minutes
    pure (hours * 60 + minutes)
  | _ => none

def inQuietHours (int : String → Option ℤ) (current : ℤ) (preference : ChannelPreference) : Bool :=
  match preference.quietHoursStart, preference.quietHoursEnd with
  | some startText, some endText =>
    if startText = "" ∨ endText = "" then false
    else
      match minutes int startText, minutes int endText with
      | some start, some stop =>
        if start ≤ stop then start ≤ current && current < stop
        -- the quiet hours span midnight
        else start ≤ current || current < stop
      | _, _ => false
  | _, _ => false

def maxRetryAttempts : ℕ := 6

/-- Another attempt after a failure that can be retried, while there are attempts left. -/
def dispatchFrom (send : ℕ → DeliveryResult) : ℕ → ℕ → DeliveryResult
  | 0, attempt => send attempt
  | left + 1, attempt =>
    let result := send attempt
    if result.success then result
    else if !result.retryable then result
    else dispatchFrom send left (attempt + 1)

def dispatchWithRetry (send : ℕ → DeliveryResult) : DeliveryResult :=
  dispatchFrom send (maxRetryAttempts - 1) 0

/-! ### A call of `route_signal` -/

/-- What a visit to a channel finds: the times at which the marks are read and written,
the time of day, the rate limiter's answer, and the result of each attempt to send. -/
structure Surroundings where
  checkedAt : ℤ
  markedAt : ℤ
  minuteOfDay : ℤ
  rateLimited : Bool
  send : ℕ → DeliveryResult

structure Visit where
  preference : ChannelPreference
  dedupPreference : String
  surroundings : Surroundings

structure Call where
  prefs : Option UserDeliveryPreferences
  signal : Signal
  surroundings : ℕ → Surroundings

def Call.visits (call : Call) : List Visit :=
  match call.prefs with
  | none => []
  | some prefs => (resolveChannels prefs call.signal).mapIdx fun i preference =>
    ⟨preference, prefs.dedupPreference, call.surroundings i⟩

/-- The marks, and the results so far with the channels that they are from. -/
structure Deliveries where
  marks : Marks
  results : List (String × DeliveryResult)

def Deliveries.init : Deliveries := ⟨.empty, []⟩

structure Router where
  channels : List String
  ttlSeconds : ℤ
  int : String → Option ℤ

section
variable (router : Router)

/-- The signal is sent to the channel that is visited. -/
def Dispatches (marks : Marks) (visit : Visit) : Prop :=
  visit.preference.channel ∈ router.channels ∧
    marks.shouldDeliver visit.surroundings.checkedAt visit.dedupPreference = true ∧
    visit.surroundings.rateLimited = false ∧
    inQuietHours router.int visit.surroundings.minuteOfDay visit.preference = false

instance (marks : Marks) (visit : Visit) : Decidable (Dispatches router marks visit) :=
  inferInstanceAs (Decidable (_ ∧ _))

def Visit.result (visit : Visit) : DeliveryResult := dispatchWithRetry visit.surroundings.send

def visitChannel (deliveries : Deliveries) (visit : Visit) : Deliveries :=
  let channel := visit.preference.channel
  if Dispatches router deliveries.marks visit then
    { marks :=
        if visit.result.success then
          deliveries.marks.markDelivered router.ttlSeconds visit.surroundings.markedAt channel
        else deliveries.marks.markFailed router.ttlSeconds visit.surroundings.markedAt channel
      results := deliveries.results ++ [(channel, visit.result)] }
  else deliveries

def routeSignal (deliveries : Deliveries) (call : Call) : Deliveries :=
  call.visits.foldl (visitChannel router) deliveries

theorem foldl_routeSignal (calls : List Call) (deliveries : Deliveries) :
    calls.foldl (routeSignal router) deliveries =
      (calls.flatMap Call.visits).foldl (visitChannel router) deliveries := by
  induction calls generalizing deliveries with
  | nil => rfl
  | cons call calls ih =>
    rw [List.foldl_cons, ih, List.flatMap_cons, List.foldl_append]
    rfl

/-- The results that are successes. -/
def successes (results : List (String × DeliveryResult)) : List (String × DeliveryResult) :=
  results.filter (·.2.success)

/-- The signal was sent on one channel at most. -/
def OnOneChannel (results : List (String × DeliveryResult)) : Prop :=
  ∀ first ∈ successes results, ∀ second ∈ successes results, first.1 = second.1

/-- A channel that the signal is sent to successfully has no failure mark. -/
def SucceedsUnmarked (deliveries : Deliveries) (visit : Visit) : Prop :=
  Dispatches router deliveries.marks visit → visit.result.success = true →
    deliveries.marks.channelFailed visit.surroundings.checkedAt visit.preference.channel = false

/-- The times of the visits are within a lifetime of the marks of each other. -/
def WithinLifetime (visits : List Visit) : Prop :=
  ∃ start, ∀ visit ∈ visits, start ≤ visit.surroundings.checkedAt ∧
    visit.surroundings.checkedAt < start + router.ttlSeconds ∧
    start ≤ visit.surroundings.markedAt ∧
    visit.surroundings.markedAt < start + router.ttlSeconds

/-! ### What the marks say within a lifetime -/

/-- Every mark outlives the lifetime, the delivered channels are those of the successes,
and the one success there can be is on a channel without a failure mark. -/
structure Faithful (start : ℤ) (deliveries : Deliveries) : Prop where
  failedUntil : ∀ channel, ∀ until_ ∈ deliveries.marks.failed.lookup channel,
    start + router.ttlSeconds ≤ until_
  delivered : successes deliveries.results = [] ∧ deliveries.marks.delivered = [] ∨
    ∃ sent, successes deliveries.results = [sent] ∧ deliveries.marks.delivered = [sent.1] ∧
      start + router.ttlSeconds ≤ deliveries.marks.deliveredUntil ∧
      deliveries.marks.failed.lookup sent.1 = none

variable {router} {start : ℤ} {deliveries : Deliveries}

theorem faithful_init : Faithful router start .init where
  failedUntil := by simp [Deliveries.init, Marks.empty]
  delivered := Or.inl ⟨rfl, rfl⟩

theorem channelFailed_eq_false_iff (h : Faithful router start deliveries) {now : ℤ}
    (hnow : now < start + router.ttlSeconds) (channel : String) :
    deliveries.marks.channelFailed now channel = false ↔
      deliveries.marks.failed.lookup channel = none := by
  unfold Marks.channelFailed
  cases hlookup : deliveries.marks.failed.lookup channel with
  | none => simp
  | some until_ =>
    have huntil := h.failedUntil channel until_ hlookup
    simpa using hnow.trans_le huntil

/-- After a success nothing more is sent: its channel has not failed. -/
theorem not_dispatches_of_delivered {visit : Visit}
    (hmode : visit.dedupPreference = "fallback_chain")
    (hnow : visit.surroundings.checkedAt < start + router.ttlSeconds) {sent : String}
    (hdelivered : deliveries.marks.delivered = [sent])
    (huntil : start + router.ttlSeconds ≤ deliveries.marks.deliveredUntil)
    (hfailed : deliveries.marks.failed.lookup sent = none) :
    ¬ Dispatches router deliveries.marks visit := by
  rintro ⟨-, hdeliver, -⟩
  simp [Marks.shouldDeliver, hmode, Marks.smembers, hnow.trans_le huntil, hdelivered,
    Marks.channelFailed, hfailed] at hdeliver

theorem faithful_visitChannel (h : Faithful router start deliveries) {visit : Visit}
    (hmode : visit.dedupPreference = "fallback_chain")
    (hchecked : visit.surroundings.checkedAt < start + router.ttlSeconds)
    (hmarked : start ≤ visit.surroundings.markedAt)
    (hunmarked : SucceedsUnmarked router deliveries visit) :
    Faithful router start (visitChannel router deliveries visit) := by
  unfold visitChannel
  by_cases hdispatch : Dispatches router deliveries.marks visit
  · rw [if_pos hdispatch]
    -- nothing was delivered before
    have hnone : successes deliveries.results = [] ∧ deliveries.marks.delivered = [] := by
      rcases h.delivered with hnone | ⟨sent, -, hdelivered, huntil, hfailed⟩
      · exact hnone
      · exact absurd hdispatch
          (not_dispatches_of_delivered hmode hchecked hdelivered huntil hfailed)
    obtain ⟨hsuccesses, hdelivered⟩ := hnone
    -- a success is the only one so far, and on a channel that has not failed
    cases hsuccess : visit.result.success with
    | true =>
      have hfailed := (channelFailed_eq_false_iff h hchecked _).mp (hunmarked hdispatch hsuccess)
      constructor
      · exact h.failedUntil
      · right
        refine ⟨(visit.preference.channel, visit.result), ?_, ?_, ?_, hfailed⟩
        · rw [successes, List.filter_append, ← successes, hsuccesses]
          simp [hsuccess]
        · simp [Marks.markDelivered, Marks.smembers, hdelivered]
        · simp only [if_true, Marks.markDelivered]
          omega
    | false =>
      constructor
      -- a failure mark set now outlives the lifetime as well
      · intro channel until_ huntil
        simp only [Bool.false_eq_true, if_false, Marks.markFailed] at huntil
        by_cases hchannel : channel = visit.preference.channel
        · subst hchannel
          rw [AList.lookup_insert, Option.mem_some_iff] at huntil
          omega
        · rw [AList.lookup_insert_ne hchannel] at huntil
          exact h.failedUntil channel until_ huntil
      · left
        refine ⟨?_, hdelivered⟩
        rw [successes, List.filter_append, ← successes, hsuccesses]
        simp [hsuccess]
  · rwa [if_neg hdispatch]

theorem Faithful.onOneChannel (h : Faithful router start deliveries) :
    OnOneChannel deliveries.results := by
  intro first hfirst second hsecond
  rcases h.delivered with ⟨hnone, -⟩ | ⟨sent, hone, -⟩
  · rw [hnone] at hfirst
    exact absurd hfirst List.not_mem_nil
  · rw [hone, List.mem_singleton] at hfirst hsecond
    rw [hfirst, hsecond]

variable (router) in
/-- Calls in fallback mode, within one lifetime, in which no success is on a channel that
has a failure mark: after every visit the signal has been sent on one channel at most. -/
theorem onOneChannel_of_succeedsUnmarked {calls : List Call}
    (hmode : ∀ call ∈ calls, ∀ prefs ∈ call.prefs, prefs.dedupPreference = "fallback_chain")
    (hlifetime : WithinLifetime router (calls.flatMap Call.visits))
    (hunmarked : ∀ earlier visit, earlier ++ [visit] <+: calls.flatMap Call.visits →
      SucceedsUnmarked router (earlier.foldl (visitChannel router) .init) visit) :
    ∀ reached, reached <+: calls.flatMap Call.visits →
      OnOneChannel (reached.foldl (visitChannel router) .init).results := by
  obtain ⟨start, htimes⟩ := hlifetime
  have hfallback : ∀ visit ∈ calls.flatMap Call.visits,
      visit.dedupPreference = "fallback_chain" := by
    intro visit hvisit
    obtain ⟨call, hcall, hvisit⟩ := List.mem_flatMap.mp hvisit
    cases hprefs : call.prefs with
    | none => simp [Call.visits, hprefs] at hvisit
    | some prefs =>
      simp only [Call.visits, hprefs, List.mem_mapIdx] at hvisit
      obtain ⟨i, hi, rfl⟩ := hvisit
      exact hmode call hcall prefs hprefs
  -- the invariant is about single visits, whichever call they belong to
  have hrun := forall_reached_of_forall_step (visitChannel router)
    (I := Faithful router start)
    (C := fun deliveries visit => visit ∈ calls.flatMap Call.visits ∧
      SucceedsUnmarked router deliveries visit)
    (by
      rintro deliveries visit hfaithful ⟨hmem, hvisit⟩
      obtain ⟨-, hchecked, hmarked, -⟩ := htimes visit hmem
      exact faithful_visitChannel hfaithful (hfallback visit hmem) hchecked hmarked hvisit)
    (show Faithful router start .init from faithful_init)
    (fun earlier visit hpre => ⟨hpre.subset (by simp), hunmarked earlier visit hpre⟩)
  exact fun reached hpre => (hrun reached hpre).onOneChannel

end

/-! ### A channel that fails and then succeeds -/

def anyTime (name : String) : ChannelPreference where
  channel := name
  channelId := name
  enabled := true
  minOpportunityScore := 60
  symbols := []
  actions := []
  quietHoursStart := none
  quietHoursEnd := none

def telegramThenEmail : UserDeliveryPreferences where
  userId := "u"
  dedupPreference := "fallback_chain"
  primaryChannel := "telegram"
  fallbackOrder := ["telegram", "email"]
  tier := "free"
  channels := [("telegram", anyTime "telegram"), ("email", anyTime "email")]

/-- A call at one time, in which every attempt to send has the same result. -/
def callAt (now : ℤ) (success : Bool) : Call where
  prefs := some telegramThenEmail
  signal := ⟨none, "BTC/USD", "BUY"⟩
  surroundings _ := ⟨now, now, 720, false, fun _ => ⟨success, "", "", "", false⟩⟩

def twoChannels : Router := ⟨["telegram", "email"], 3600, fun _ => none⟩

theorem sent_on_both_channels :
    ¬ OnOneChannel
      ([callAt 0 false, callAt 10 true].foldl (routeSignal twoChannels) .init).results := by
  have hresults : ([callAt 0 false, callAt 10 true].foldl (routeSignal twoChannels) .init).results =
      [("telegram", ⟨false, "", "", "", false⟩), ("email", ⟨false, "", "", "", false⟩),
        ("telegram", ⟨true, "", "", "", false⟩), ("email", ⟨true, "", "", "", false⟩)] := by
    decide +kernel
  intro h
  rw [hresults] at h
  have hsame := h ("telegram", ⟨true, "", "", "", false⟩) (by decide)
    ("email", ⟨true, "", "", "", false⟩) (by decide)
  exact absurd hsame (by decide)

theorem onOneChannel_of_two_successes :
    OnOneChannel
      (([callAt 0 true, callAt 10 true].flatMap Call.visits).foldl
        (visitChannel twoChannels) .init).results := by
  refine onOneChannel_of_succeedsUnmarked twoChannels ?_ ⟨0, by decide +kernel⟩ ?_
    _ List.prefix_rfl
  · simp [callAt, telegramThenEmail]
  · rw [← eachStep_iff_forall_step]
    refine ⟨?_, fun _ => ⟨?_, fun _ => ⟨?_, fun _ => ⟨?_, fun _ => trivial⟩⟩⟩⟩ <;>
      intro _ _ <;> decide +kernel

end TradeStream.Delivery
