import TradeStream.KeyedTable

/-! The notification service's `DeliveryRouter` and its deduplicator, for one signal and
one user. The slot of a delivery is claimed before the rate limiter and the sender are
asked. -/
namespace TradeStream.Notification
open TradeStream.KeyedTable

structure QuietHours where
  enabled : Bool
  startHour : ℤ
  endHour : ℤ

structure ChannelPreference where
  enabled : Bool
  minConfidence : ℚ
  actions : List String
  symbols : List String

def ChannelPreference.default : ChannelPreference := ⟨true, 0, [], []⟩

structure UserDeliveryPreferences where
  primaryChannel : String
  deliveryMode : String
  tier : String
  quietHours : QuietHours
  channels : Table String ChannelPreference

structure Signal where
  confidence : Option ℚ
  action : String
  symbol : String
  priority : Option String

def Signal.priorityText (signal : Signal) : String := signal.priority.getD "normal"

/-- A sender says which priorities it supports if it has a method for that. -/
structure Sender where
  supportsPriority : Option (String → Bool)

namespace UserDeliveryPreferences
variable (prefs : UserDeliveryPreferences) (channel : String)

def isChannelEnabled : Bool :=
  match prefs.channels.lookup channel with
  | none => channel = prefs.primaryChannel
  | some preference => preference.enabled

def passesChannelFilter (signal : Signal) : Bool :=
  let preference := (prefs.channels.lookup channel).getD .default
  !(signal.confidence.getD 0 < preference.minConfidence) &&
    (preference.actions.isEmpty || signal.action = "" ||
      preference.actions.contains signal.action) &&
    (preference.symbols.isEmpty || signal.symbol = "" ||
      preference.symbols.contains signal.symbol)

def inQuietHours (hour : ℤ) : Bool :=
  let quiet := prefs.quietHours
  quiet.enabled &&
    -- the hours may wrap around midnight
    if quiet.startHour > quiet.endHour then quiet.startHour ≤ hour || hour < quiet.endHour
    else quiet.startHour ≤ hour && hour < quiet.endHour

end UserDeliveryPreferences

/-! ### `CrossChannelDeduplicator` -/

/-- The keys of the signal and the user. -/
inductive Key where
  | signal
  | channel (name : String)
  | failed (name : String)
  | success
  deriving DecidableEq

/-- The clock, in seconds, and when each key expires. -/
structure Dedup where
  now : ℕ
  keys : Table Key ℕ

def ttlSeconds : ℕ := 3600

namespace Dedup

def empty : Dedup := ⟨0, ∅⟩

def advance (dedup : Dedup) (seconds : ℕ) : Dedup := { dedup with now := dedup.now + seconds }

def isLive (dedup : Dedup) (key : Key) : Bool := (dedup.keys.lookup key).any (dedup.now < ·)

def setex (dedup : Dedup) (key : Key) : Dedup :=
  { dedup with keys := dedup.keys.insert key (dedup.now + ttlSeconds) }

end Dedup

/-- The slot of a delivery, `none` for a channel that is not the primary one. -/
def slotOf (deliveryMode primaryChannel channel : String) : Option Key :=
  match deliveryMode with
  | "all_enabled" => some (.channel channel)
  | "fallback_chain" => some (.channel channel)
  | _ => if primaryChannel ≠ "" ∧ channel ≠ primaryChannel then none else some .signal

/-- `should_deliver`: the slot is claimed, unless the signal has reached the user in
fallback mode. -/
def shouldDeliver (dedup : Dedup) (deliveryMode primaryChannel channel : String) :
    Bool × Dedup :=
  if deliveryMode = "fallback_chain" ∧ dedup.isLive .success = true then (false, dedup)
  else
    match slotOf deliveryMode primaryChannel channel with
    | none => (false, dedup)
    | some slot => if dedup.isLive slot then (false, dedup) else (true, dedup.setex slot)

/-! ### `DeliveryRouter` -/

inductive SendOutcome where
  | success
  | failure
  | raised (error : String)
  deriving DecidableEq

structure DeliveryResult where
  channel : String
  success : Bool
  error : String
  skippedReason : String
  deriving DecidableEq

/-- What an attempt finds: how long after the last step it comes and how long it sends,
the rate limiter's answer, and what becomes of the send. -/
structure Surroundings where
  elapsed : ℕ
  sendSeconds : ℕ
  allowed : Bool
  outcome : SendOutcome

structure Attempt where
  prefs : UserDeliveryPreferences
  signal : Signal
  channel : String
  sender : Sender
  surroundings : Surroundings

def skipped (channel reason : String) : DeliveryResult := ⟨channel, false, "", reason⟩

namespace Attempt
variable (attempt : Attempt)

def supportsPriority : Bool :=
  match attempt.sender.supportsPriority with
  | none => true
  | some supports => supports attempt.signal.priorityText

/-- The attempt gets as far as the deduplicator. -/
def Reaches : Prop :=
  attempt.prefs.passesChannelFilter attempt.channel attempt.signal = true ∧
    attempt.supportsPriority = true

instance : Decidable attempt.Reaches := inferInstanceAs (Decidable (_ ∧ _))

def slot : Option Key :=
  slotOf attempt.prefs.deliveryMode attempt.prefs.primaryChannel attempt.channel

def isFallback : Bool := attempt.prefs.deliveryMode = "fallback_chain"

def Sends : Prop :=
  attempt.surroundings.allowed = true ∧ attempt.surroundings.outcome = .success

end Attempt

-- a slot that was claimed is not given back when nothing is sent
def send (dedup : Dedup) (attempt : Attempt) : Dedup × DeliveryResult :=
  if attempt.surroundings.allowed = false then (dedup, skipped attempt.channel "rate_limited")
  else
    let dedup := dedup.advance attempt.surroundings.sendSeconds
    match attempt.surroundings.outcome with
    | .success => (dedup, ⟨attempt.channel, true, "", ""⟩)
    | .failure =>
      (if attempt.isFallback then dedup.setex (.failed attempt.channel) else dedup,
        ⟨attempt.channel, false, "", ""⟩)
    | .raised error =>
      (if attempt.isFallback then dedup.setex (.failed attempt.channel) else dedup,
        ⟨attempt.channel, false, error, ""⟩)

/-- `_deliver_to_channel`. -/
def deliverToChannel (dedup : Dedup) (attempt : Attempt) : Dedup × DeliveryResult :=
  let dedup := dedup.advance attempt.surroundings.elapsed
  if attempt.prefs.passesChannelFilter attempt.channel attempt.signal = false then
    (dedup, skipped attempt.channel "channel_filter")
  else if attempt.supportsPriority = false then
    (dedup, skipped attempt.channel "priority_not_supported")
  else
    match shouldDeliver dedup attempt.prefs.deliveryMode attempt.prefs.primaryChannel
        attempt.channel with
    | (false, dedup) => (dedup, skipped attempt.channel "deduplicated")
    | (true, dedup) => send dedup attempt

/-- An attempt of `route`, which marks a success in fallback mode. -/
def attemptDelivery (dedup : Dedup) (attempt : Attempt) : Dedup × DeliveryResult :=
  let (dedup, result) := deliverToChannel dedup attempt
  (if attempt.isFallback && result.success then dedup.setex .success else dedup, result)

/-- The attempts of a call, up to the first success in fallback mode. -/
def routeAttempts (dedup : Dedup) : List Attempt → Dedup × List DeliveryResult
  | [] => (dedup, [])
  | attempt :: rest =>
    let (dedup, result) := attemptDelivery dedup attempt
    if attempt.isFallback && result.success then (dedup, [result])
    else
      let (dedup, results) := routeAttempts dedup rest
      (dedup, result :: results)

def resolveChannels (senders : List (String × Sender)) (prefs : UserDeliveryPreferences) :
    List (String × Sender) :=
  let primary := senders.filter (·.1 = prefs.primaryChannel)
  if prefs.deliveryMode = "primary_only" then primary
  else
    primary.filter (prefs.isChannelEnabled ·.1) ++
      senders.filter fun sender =>
        sender.1 ≠ prefs.primaryChannel && prefs.isChannelEnabled sender.1

structure Call where
  prefs : UserDeliveryPreferences
  signal : Signal
  hour : ℤ
  surroundings : ℕ → Surroundings

def Call.attempts (senders : List (String × Sender)) (call : Call) : List Attempt :=
  (resolveChannels senders call.prefs).mapIdx fun i sender =>
    ⟨call.prefs, call.signal, sender.1, sender.2, call.surroundings i⟩

def route (senders : List (String × Sender)) (dedup : Dedup) (call : Call) :
    Dedup × List DeliveryResult :=
  if call.prefs.inQuietHours call.hour && call.signal.priorityText ≠ "critical" then
    (dedup, [skipped "all" "quiet_hours"])
  else routeAttempts dedup (call.attempts senders)

/-- The deduplicator after a sequence of attempts. -/
def after (attempts : List Attempt) : Dedup :=
  attempts.foldl (fun dedup attempt => (attemptDelivery dedup attempt).1) .empty

/-- A call makes its attempts in turn, up to one of them. -/
theorem routeAttempts_eq_foldl (dedup : Dedup) (attempts : List Attempt) :
    ∃ made, made <+: attempts ∧ (routeAttempts dedup attempts).1 =
      made.foldl (fun dedup attempt => (attemptDelivery dedup attempt).1) dedup := by
  induction attempts generalizing dedup with
  | nil => exact ⟨[], List.prefix_rfl, rfl⟩
  | cons attempt rest ih =>
    unfold routeAttempts
    dsimp only
    split
    · exact ⟨[attempt], by simp, rfl⟩
    · obtain ⟨made, hpre, hmade⟩ := ih (attemptDelivery dedup attempt).1
      exact ⟨attempt :: made, List.cons_prefix_cons.mpr ⟨rfl, hpre⟩, hmade⟩

/-- So a sequence of calls is a sequence of attempts. -/
theorem exists_attempts_of_calls (senders : List (String × Sender)) (calls : List Call) :
    ∃ attempts, calls.foldl (fun dedup call => (route senders dedup call).1) .empty =
      after attempts := by
  induction calls using List.reverseRecOn with
  | nil => exact ⟨[], rfl⟩
  | append_singleton calls call ih =>
    obtain ⟨attempts, hattempts⟩ := ih
    rw [List.foldl_append, List.foldl_cons, List.foldl_nil, hattempts]
    unfold route
    split
    · exact ⟨attempts, rfl⟩
    · obtain ⟨made, -, hmade⟩ := routeAttempts_eq_foldl (after attempts) (call.attempts senders)
      exact ⟨attempts ++ made, by rw [hmade, after, after, List.foldl_append]⟩

/-! ### Which attempt a suppressed one is suppressed by -/

section
variable (dedup : Dedup) (attempt : Attempt)

/-- The deduplicator when the attempt comes to it. -/
def atAttempt : Dedup := dedup.advance attempt.surroundings.elapsed

/-- The key because of which the attempt is suppressed as a duplicate. -/
def blockedBy : Option Key :=
  if attempt.Reaches then
    if attempt.isFallback = true ∧ (atAttempt dedup attempt).isLive .success = true then
      some .success
    else attempt.slot.filter (atAttempt dedup attempt).isLive
  else none

/-- The attempt gets past the deduplicator, with its slot claimed. -/
def Claims : Prop :=
  attempt.Reaches ∧
    (shouldDeliver (atAttempt dedup attempt) attempt.prefs.deliveryMode
      attempt.prefs.primaryChannel attempt.channel).1 = true

instance : Decidable (Claims dedup attempt) := inferInstanceAs (Decidable (_ ∧ _))

/-- The keys that the attempt sets to suppress others, and when they expire. -/
inductive SetsKey : Key → ℕ → Prop
  | slot (slot : Key) (claims : Claims dedup attempt) (isSlot : attempt.slot = some slot) :
    SetsKey slot ((atAttempt dedup attempt).now + ttlSeconds)
  | success (claims : Claims dedup attempt) (mode : attempt.isFallback = true)
      (sends : attempt.Sends) :
    SetsKey .success
      ((atAttempt dedup attempt).now + attempt.surroundings.sendSeconds + ttlSeconds)

end

/-- `attempt`, after `earlier` and then `between`, makes `later` be suppressed: the key that
`later` finds is still the one that `attempt` set. -/
def Suppresses (earlier : List Attempt) (attempt : Attempt) (between : List Attempt)
    (later : Attempt) : Prop :=
  ∃ key expiry, SetsKey (after earlier) attempt key expiry ∧
    blockedBy (after (earlier ++ attempt :: between)) later = some key ∧
    (after (earlier ++ attempt :: between)).keys.lookup key = some expiry

/-- Only an attempt that sent makes a later one be suppressed. -/
def SuppressedOnlyBySent (attempts : List Attempt) : Prop :=
  ∀ earlier attempt between later, earlier ++ attempt :: between ++ [later] <+: attempts →
    Suppresses earlier attempt between later → attempt.Sends

/-- `later` comes to the deduplicator for the slot that `attempt` claimed, before the claim
expires, and in fallback mode with no success marked. -/
structure Retries (earlier : List Attempt) (attempt : Attempt) (between : List Attempt)
    (later : Attempt) : Prop where
  reaches : later.Reaches
  slot : later.slot = attempt.slot
  unmarked : later.isFallback = true →
    (atAttempt (after (earlier ++ attempt :: between)) later).isLive .success = false
  soon : (atAttempt (after (earlier ++ attempt :: between)) later).now <
    (atAttempt (after earlier) attempt).now + ttlSeconds

/-- No attempt that got past the deduplicator and did not send is retried. -/
def NeverRetried (attempts : List Attempt) : Prop :=
  ∀ earlier attempt between later, earlier ++ attempt :: between ++ [later] <+: attempts →
    Claims (after earlier) attempt → ¬ attempt.Sends → ¬ Retries earlier attempt between later

/-! ### What an attempt does to the keys -/

section
variable {dedup : Dedup} {attempt : Attempt}

/-- The keys that stand for a delivery. -/
def IsSlot (key : Key) : Prop := key ≠ .success ∧ ∀ name, key ≠ .failed name

theorem isSlot_of_slot {key : Key} (h : attempt.slot = some key) : IsSlot key := by
  unfold Attempt.slot slotOf at h
  split at h
  · cases h
    simp [IsSlot]
  · cases h
    simp [IsSlot]
  · split_ifs at h
    cases h
    simp [IsSlot]

/-- No slot is claimed or given back on the way from one state to the other. -/
structure KeepsSlots (dedup dedup' : Dedup) : Prop where
  now : dedup.now ≤ dedup'.now
  lookup : ∀ key, IsSlot key → dedup'.keys.lookup key = dedup.keys.lookup key

theorem KeepsSlots.refl (dedup : Dedup) : KeepsSlots dedup dedup := ⟨le_rfl, fun _ _ => rfl⟩

theorem KeepsSlots.trans {dedup' dedup'' : Dedup} (h : KeepsSlots dedup dedup')
    (h' : KeepsSlots dedup' dedup'') : KeepsSlots dedup dedup'' :=
  ⟨h.now.trans h'.now, fun key hkey => (h'.lookup key hkey).trans (h.lookup key hkey)⟩

theorem keepsSlots_advance (dedup : Dedup) (seconds : ℕ) :
    KeepsSlots dedup (dedup.advance seconds) :=
  ⟨Nat.le_add_right _ _, fun _ _ => rfl⟩

theorem keepsSlots_setex {key : Key} (h : ¬ IsSlot key) : KeepsSlots dedup (dedup.setex key) := by
  refine ⟨le_rfl, fun key' hkey' => AList.lookup_insert_ne ?_⟩
  rintro rfl
  exact h hkey'

theorem not_isSlot_success : ¬ IsSlot .success := fun h => h.1 rfl

theorem not_isSlot_failed (name : String) : ¬ IsSlot (.failed name) := fun h => h.2 name rfl

/-- Past the deduplicator only the marks of successes and failures are set. -/
theorem keepsSlots_send : KeepsSlots dedup (send dedup attempt).1 := by
  have hadvance := keepsSlots_advance dedup attempt.surroundings.sendSeconds
  have hfailed : KeepsSlots dedup (if attempt.isFallback = true then
      (dedup.advance attempt.surroundings.sendSeconds).setex (.failed attempt.channel)
      else dedup.advance attempt.surroundings.sendSeconds) := by
    split
    · exact hadvance.trans (keepsSlots_setex (not_isSlot_failed _))
    · exact hadvance
  unfold send
  split
  · exact KeepsSlots.refl dedup
  · cases attempt.surroundings.outcome with
    | success => exact hadvance
    | failure => exact hfailed
    | raised error => exact hfailed

/-- The slot is refused, or it is free and claimed. -/
theorem shouldDeliver_cases (dedup : Dedup) (attempt : Attempt) :
    shouldDeliver dedup attempt.prefs.deliveryMode attempt.prefs.primaryChannel attempt.channel =
        (false, dedup) ∨
      (attempt.isFallback = true → dedup.isLive .success = false) ∧
        ∃ slot, attempt.slot = some slot ∧ dedup.isLive slot = false ∧
          shouldDeliver dedup attempt.prefs.deliveryMode attempt.prefs.primaryChannel
            attempt.channel = (true, dedup.setex slot) := by
  unfold shouldDeliver
  split
  next => exact Or.inl rfl
  next hmode =>
    have hmarked : attempt.isFallback = true → dedup.isLive .success = false := by
      intro hfallback
      rw [Attempt.isFallback, decide_eq_true_eq] at hfallback
      exact Bool.eq_false_iff.mpr fun hsuccess => hmode ⟨hfallback, hsuccess⟩
    cases hslot : slotOf attempt.prefs.deliveryMode attempt.prefs.primaryChannel
        attempt.channel with
    | none => exact Or.inl rfl
    | some slot =>
      dsimp only
      split
      next => exact Or.inl rfl
      next hlive => exact Or.inr ⟨hmarked, slot, hslot, Bool.eq_false_iff.mpr hlive, rfl⟩

theorem deliverToChannel_of_reaches (dedup : Dedup) (h : attempt.Reaches) :
    deliverToChannel dedup attempt =
      match shouldDeliver (atAttempt dedup attempt) attempt.prefs.deliveryMode
        attempt.prefs.primaryChannel attempt.channel with
      | (false, dedup) => (dedup, skipped attempt.channel "deduplicated")
      | (true, dedup) => send dedup attempt := by
  have hfilter : ¬ attempt.prefs.passesChannelFilter attempt.channel attempt.signal = false := by
    simp [h.1]
  have hpriority : ¬ attempt.supportsPriority = false := by
    simp [h.2]
  simp only [deliverToChannel, if_neg hfilter, if_neg hpriority, atAttempt]

theorem deliverToChannel_of_not_reaches (dedup : Dedup) (h : ¬ attempt.Reaches) :
    ∃ reason, reason ≠ "deduplicated" ∧
      deliverToChannel dedup attempt =
        (atAttempt dedup attempt, skipped attempt.channel reason) := by
  by_cases hfilter : attempt.prefs.passesChannelFilter attempt.channel attempt.signal = false
  · exact ⟨"channel_filter", by decide, by simp [deliverToChannel, hfilter, atAttempt]⟩
  · have hpriority : attempt.supportsPriority = false :=
      Bool.eq_false_iff.mpr fun hsupports => h ⟨Bool.eq_true_of_not_eq_false hfilter, hsupports⟩
    exact ⟨"priority_not_supported", by decide, by
      simp [deliverToChannel, hfilter, hpriority, atAttempt]⟩

/-- An attempt is stopped and leaves the keys as they are, or it claims its slot. -/
theorem attemptDelivery_cases (dedup : Dedup) (attempt : Attempt) :
    ¬ Claims dedup attempt ∧ (attemptDelivery dedup attempt).1 = atAttempt dedup attempt ∨
      Claims dedup attempt ∧
        (attempt.isFallback = true → (atAttempt dedup attempt).isLive .success = false) ∧
        ∃ slot, attempt.slot = some slot ∧ (atAttempt dedup attempt).isLive slot = false ∧
          KeepsSlots ((atAttempt dedup attempt).setex slot) (attemptDelivery dedup attempt).1 := by
  by_cases hreach : attempt.Reaches
  · have hdeliver := deliverToChannel_of_reaches dedup hreach
    rcases shouldDeliver_cases (atAttempt dedup attempt) attempt with
      hrefused | ⟨hmarked, slot, hslot, hlive, hclaimed⟩
    · left
      refine ⟨fun hclaims => ?_, ?_⟩
      -- a refusal changes no key
      · have htrue := hclaims.2
        rw [hrefused] at htrue
        cases htrue
      · simp [attemptDelivery, hdeliver, hrefused, skipped]
    · right
      refine ⟨⟨hreach, by rw [hclaimed]⟩, hmarked, slot, hslot, hlive, ?_⟩
      -- what follows the claim, the denied or failed ways out too, leaves the slot claimed
      have hsend : KeepsSlots ((atAttempt dedup attempt).setex slot)
          (send ((atAttempt dedup attempt).setex slot) attempt).1 := keepsSlots_send
      simp only [attemptDelivery, hdeliver, hclaimed]
      split
      · exact hsend.trans (keepsSlots_setex not_isSlot_success)
      · exact hsend
  · left
    obtain ⟨reason, -, hdeliver⟩ := deliverToChannel_of_not_reaches dedup hreach
    exact ⟨fun hclaims => hreach hclaims.1, by simp [attemptDelivery, hdeliver, skipped]⟩

theorem skippedReason_send : (send dedup attempt).2.skippedReason ≠ "deduplicated" := by
  unfold send
  split
  · simp [skipped]
  · cases attempt.surroundings.outcome <;> simp

/-- The attempts that come to the deduplicator and are not let through are those that are
reported as duplicates. -/
theorem skippedReason_eq_deduplicated_iff :
    (deliverToChannel dedup attempt).2.skippedReason = "deduplicated" ↔
      attempt.Reaches ∧ ¬ Claims dedup attempt := by
  by_cases hreach : attempt.Reaches
  · have hclaims : Claims dedup attempt ↔ (shouldDeliver (atAttempt dedup attempt)
        attempt.prefs.deliveryMode attempt.prefs.primaryChannel attempt.channel).1 = true :=
      and_iff_right hreach
    rw [deliverToChannel_of_reaches dedup hreach, hclaims]
    rcases shouldDeliver_cases (atAttempt dedup attempt) attempt with
      hrefused | ⟨-, slot, -, -, hclaimed⟩
    · simp [hrefused, hreach, skipped]
    · simpa [hclaimed] using skippedReason_send
  · obtain ⟨reason, hreason, hdeliver⟩ := deliverToChannel_of_not_reaches dedup hreach
    simpa [hdeliver, hreach, skipped] using hreason

theorem now_le_now_attemptDelivery :
    (atAttempt dedup attempt).now ≤ (attemptDelivery dedup attempt).1.now := by
  rcases attemptDelivery_cases dedup attempt with ⟨-, hsame⟩ | ⟨-, -, _, -, -, hkeeps⟩
  · rw [hsame]
  · exact hkeeps.now

theorem isLive_of_lookup {key : Key} {expiry : ℕ} (h : dedup.keys.lookup key = some expiry)
    (hnow : dedup.now < expiry) : dedup.isLive key = true := by
  simp [Dedup.isLive, h, hnow]

/-- A claim that has not expired after an attempt is not changed by it. -/
theorem lookup_attemptDelivery {slot : Key} (hslot : IsSlot slot) {expiry : ℕ}
    (h : dedup.keys.lookup slot = some expiry)
    (hnow : (attemptDelivery dedup attempt).1.now < expiry) :
    (attemptDelivery dedup attempt).1.keys.lookup slot = some expiry := by
  rcases attemptDelivery_cases dedup attempt with
    ⟨-, hsame⟩ | ⟨-, -, claimed, -, hfree, hkeeps⟩
  · rw [hsame]
    exact h
  · rw [hkeeps.lookup slot hslot]
    -- the slot that is claimed is another one, for this one is live
    have hlive : (atAttempt dedup attempt).isLive slot = true :=
      isLive_of_lookup h (now_le_now_attemptDelivery.trans_lt hnow)
    have hne : slot ≠ claimed := by
      rintro rfl
      rw [hlive] at hfree
      cases hfree
    rw [Dedup.setex, AList.lookup_insert_ne hne]
    exact h

end

/-! ### What suppresses a later attempt -/

theorem after_append_singleton (attempts : List Attempt) (attempt : Attempt) :
    after (attempts ++ [attempt]) = (attemptDelivery (after attempts) attempt).1 := by
  rw [after, List.foldl_append, List.foldl_cons, List.foldl_nil, ← after]

/-- A claim stays as it is until it expires. -/
theorem lookup_after_of_claims {earlier : List Attempt} {attempt : Attempt} {slot : Key}
    (hclaims : Claims (after earlier) attempt) (hslot : attempt.slot = some slot)
    (between : List Attempt)
    (hnow : (after (earlier ++ attempt :: between)).now <
      (atAttempt (after earlier) attempt).now + ttlSeconds) :
    (after (earlier ++ attempt :: between)).keys.lookup slot =
      some ((atAttempt (after earlier) attempt).now + ttlSeconds) := by
  have hisSlot := isSlot_of_slot hslot
  induction between using List.reverseRecOn with
  | nil =>
    rw [after_append_singleton]
    rcases attemptDelivery_cases (after earlier) attempt with
      ⟨hnot, -⟩ | ⟨-, -, claimed, hclaimed, -, hkeeps⟩
    · exact absurd hclaims hnot
    · obtain rfl := Option.some.inj (hslot.symm.trans hclaimed)
      rw [hkeeps.lookup slot hisSlot]
      exact AList.lookup_insert _
  | append_singleton between next ih =>
    rw [← List.cons_append, ← List.append_assoc, after_append_singleton] at hnow ⊢
    apply lookup_attemptDelivery hisSlot _ hnow
    apply ih
    -- the attempts between are all made before the claim expires
    have hadvance : (after (earlier ++ attempt :: between)).now ≤
        (atAttempt (after (earlier ++ attempt :: between)) next).now := Nat.le_add_right _ _
    exact (hadvance.trans now_le_now_attemptDelivery).trans_lt hnow

theorem blockedBy_eq_slot_iff {dedup : Dedup} {later : Attempt} {slot : Key} (h : IsSlot slot) :
    blockedBy dedup later = some slot ↔ later.Reaches ∧
      (later.isFallback = true → (atAttempt dedup later).isLive .success = false) ∧
        later.slot = some slot ∧ (atAttempt dedup later).isLive slot = true := by
  unfold blockedBy
  split_ifs with hreaches hmarked
  · -- a success that is marked is not a slot
    constructor
    · intro hsuccess
      exact absurd (Option.some.inj hsuccess).symm h.1
    · rintro ⟨-, hunmarked, -⟩
      rw [hunmarked hmarked.1] at hmarked
      exact absurd hmarked.2 Bool.false_ne_true
  · have hunmarked : later.isFallback = true →
        (atAttempt dedup later).isLive .success = false :=
      fun hfallback => Bool.eq_false_iff.mpr fun hsuccess => hmarked ⟨hfallback, hsuccess⟩
    rw [Option.filter_eq_some_iff]
    exact ⟨fun hslot => ⟨hreaches, hunmarked, hslot⟩, fun hslot => hslot.2.2⟩
  · exact iff_of_false id fun hall => hreaches hall.1

/-- An attempt that comes to the deduplicator is let through exactly if no key blocks it
and its channel has a slot. -/
theorem claims_iff_not_blocked {dedup : Dedup} {attempt : Attempt} (h : attempt.Reaches) :
    Claims dedup attempt ↔ blockedBy dedup attempt = none ∧ attempt.slot ≠ none := by
  rw [Claims, blockedBy, if_pos h]
  simp only [h, true_and]
  unfold shouldDeliver
  have hmode : attempt.isFallback = true ↔ attempt.prefs.deliveryMode = "fallback_chain" := by
    simp [Attempt.isFallback]
  simp only [hmode]
  split
  next => simp
  next =>
    change (match attempt.slot with
      | none => (false, atAttempt dedup attempt)
      | some slot => if (atAttempt dedup attempt).isLive slot = true then
          (false, atAttempt dedup attempt)
        else (true, (atAttempt dedup attempt).setex slot)).1 = true ↔ _
    cases attempt.slot with
    | none => simp
    | some slot => cases hlive : (atAttempt dedup attempt).isLive slot <;> simp [hlive]

/-- What suppresses an attempt is a success, or the claim of its slot. -/
theorem suppresses_iff_retries {earlier : List Attempt} {attempt : Attempt}
    (hclaims : Claims (after earlier) attempt) (hsends : ¬ attempt.Sends)
    (between : List Attempt) (later : Attempt) :
    Suppresses earlier attempt between later ↔ Retries earlier attempt between later := by
  constructor
  · rintro ⟨key, expiry, hsets, hblocked, hlookup⟩
    cases hsets with
    | success _ _ hsent => exact absurd hsent hsends
    | slot _ _ hslot =>
      obtain ⟨hreaches, hunmarked, hlater, hlive⟩ :=
        (blockedBy_eq_slot_iff (isSlot_of_slot hslot)).mp hblocked
      refine ⟨hreaches, hlater.trans hslot.symm, hunmarked, ?_⟩
      have hkeys : (atAttempt (after (earlier ++ attempt :: between)) later).keys.lookup key =
          some ((atAttempt (after earlier) attempt).now + ttlSeconds) := hlookup
      simpa [Dedup.isLive, hkeys] using hlive
  · rintro ⟨hreaches, hslot, hunmarked, hsoon⟩
    obtain ⟨slot, hattempt⟩ : ∃ slot, attempt.slot = some slot := by
      rcases attemptDelivery_cases (after earlier) attempt with
        ⟨hnot, -⟩ | ⟨-, -, slot, hattempt, -⟩
      · exact absurd hclaims hnot
      · exact ⟨slot, hattempt⟩
    have hlookup := lookup_after_of_claims hclaims hattempt between
      ((Nat.le_add_right _ _).trans_lt hsoon)
    refine ⟨slot, _, .slot slot hclaims hattempt, ?_, hlookup⟩
    apply (blockedBy_eq_slot_iff (isSlot_of_slot hattempt)).mpr
    exact ⟨hreaches, hunmarked, hslot.trans hattempt, isLive_of_lookup hlookup hsoon⟩

theorem Suppresses.claims {earlier : List Attempt} {attempt : Attempt} {between : List Attempt}
    {later : Attempt} (h : Suppresses earlier attempt between later) :
    Claims (after earlier) attempt := by
  obtain ⟨key, expiry, hsets, -, -⟩ := h
  cases hsets with
  | slot _ hclaims _ => exact hclaims
  | success hclaims _ _ => exact hclaims

/-- An attempt that did not send suppresses no later one, exactly if no attempt that got
past the deduplicator without sending is retried before its claim expires. -/
theorem suppressedOnlyBySent_iff_neverRetried (attempts : List Attempt) :
    SuppressedOnlyBySent attempts ↔ NeverRetried attempts := by
  constructor
  · intro h earlier attempt between later hpre hclaims hsends hretries
    exact hsends (h earlier attempt between later hpre
      ((suppresses_iff_retries hclaims hsends between later).mpr hretries))
  · intro h earlier attempt between later hpre hsuppresses
    by_contra hsends
    exact h earlier attempt between later hpre hsuppresses.claims hsends
      ((suppresses_iff_retries hsuppresses.claims hsends between later).mp hsuppresses)

def telegramOnly : UserDeliveryPreferences where
  primaryChannel := "telegram"
  deliveryMode := "primary_only"
  tier := "free"
  quietHours := ⟨false, 22, 8⟩
  channels := ∅

def attemptAfter (elapsed : ℕ) (allowed : Bool) : Attempt where
  prefs := telegramOnly
  signal := ⟨none, "BUY", "BTC/USD", none⟩
  channel := "telegram"
  sender := ⟨none⟩
  surroundings := ⟨elapsed, 0, allowed, .success⟩

/-- The first attempt is refused by the rate limiter, the second comes ten seconds later. -/
theorem rate_limited_attempt_suppresses_retry :
    ¬ SuppressedOnlyBySent [attemptAfter 0 false, attemptAfter 10 true] := by
  intro h
  have hclaims : Claims (after []) (attemptAfter 0 false) := by decide +kernel
  have hslot : (attemptAfter 0 false).slot = some .signal := by decide +kernel
  have hsends := h [] (attemptAfter 0 false) [] (attemptAfter 10 true) List.prefix_rfl
    ⟨.signal, 3600, .slot .signal hclaims hslot, by decide +kernel, by decide +kernel⟩
  exact absurd hsends.1 (by decide)

end TradeStream.Notification
