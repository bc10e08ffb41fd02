import TradeStream.RunSteps

/-! `DeadLetterQueue` of the signal pipeline: failed deliveries wait in a list of Redis, and
are in a hash while a worker has them. A call takes the time that `time.time()` returns in
it. -/
namespace TradeStream.DeadLetterQueue
open TradeStream.RunSteps
open scoped List

structure Entry (S : Type*) where
  dlqId : String
  signal : S
  subscriberId : String
  channel : String
  endpoint : String
  error : String
  retryCount : ℕ
  maxRetries : ℕ
  createdAt : ℚ
  nextRetryAt : ℚ

/-- The arguments of `enqueue`. -/
structure FailedDelivery (S : Type*) where
  signal : S
  subscriberId : String
  channel : String
  endpoint : String
  error : String := ""

structure Config where
  maxRetries : ℕ := 3
  baseDelay : ℚ := 30

/-- An entry with the number of the `enqueue` call that it comes from, which the code does
not have. -/
structure Delivery (S : Type*) where
  uid : ℕ
  entry : Entry S

/-- The list in the order in which `RPOP` takes from it, and the hash. The rest observes:
the ids given out, and the deliveries handed out, acknowledged and discarded. -/
structure Queue (S : Type*) where
  pending : List (Delivery S) := []
  processing : String → Option (Delivery S) := fun _ => none
  ids : List String := []
  handedOut : List ℕ := []
  acknowledged : List ℕ := []
  exhausted : List ℕ := []

/-- The subscriber and the millisecond, which `int` takes from the time. -/
def dlqId (subscriberId : String) (now : ℚ) : String :=
  "dlq:" ++ subscriberId ++ ":" ++ toString ((now * 1000).num.tdiv (now * 1000).den)

variable {S : Type*} (config : Config)

def Queue.enqueue (queue : Queue S) (failed : FailedDelivery S) (now : ℚ) : Queue S :=
  let entry : Entry S :=
    { dlqId := dlqId failed.subscriberId now
      signal := failed.signal
      subscriberId := failed.subscriberId
      channel := failed.channel
      endpoint := failed.endpoint
      error := failed.error
      retryCount := 0
      maxRetries := config.maxRetries
      createdAt := now
      nextRetryAt := now + config.baseDelay }
  { queue with
    pending := queue.pending ++ [⟨queue.ids.length, entry⟩]
    ids := queue.ids ++ [entry.dlqId] }

def Delivery.Due (now : ℚ) (delivery : Delivery S) : Prop :=
  delivery.entry.nextRetryAt ≤ now

def Delivery.Live (delivery : Delivery S) : Prop :=
  delivery.entry.retryCount < delivery.entry.maxRetries

instance (now : ℚ) : DecidablePred (Delivery.Due (S := S) now) :=
  fun delivery => inferInstanceAs (Decidable (delivery.entry.nextRetryAt ≤ now))

instance : DecidablePred (Delivery.Live (S := S)) :=
  fun delivery => inferInstanceAs (Decidable (delivery.entry.retryCount < _))

/-- `HSET` of an entry under its id. -/
def hset (processing : String → Option (Delivery S)) (delivery : Delivery S) :
    String → Option (Delivery S) :=
  Function.update processing delivery.entry.dlqId (some delivery)

def Queue.handOut (queue : Queue S) (delivery : Delivery S) : Queue S :=
  { queue with
    processing := hset queue.processing delivery
    handedOut := queue.handedOut ++ [delivery.uid] }

def Queue.discard (queue : Queue S) (delivery : Delivery S) : Queue S :=
  { queue with exhausted := queue.exhausted ++ [delivery.uid] }

/-- The loop of `dequeue_batch`, with the checks that it may still make and the items it
has. -/
def Queue.check (now : ℚ) (batchSize : ℤ) :
    ℕ → Queue S → List (Delivery S) → Queue S × List (Delivery S)
  | 0, queue, items => (queue, items)
  | checks + 1, queue, items =>
    if items.length < batchSize then
      match queue.pending with
      | [] => (queue, items)
      | delivery :: rest =>
        let queue := { queue with pending := rest }
        -- an entry that is not ready goes to the other end of the list
        if now < delivery.entry.nextRetryAt then
          check now batchSize checks { queue with pending := rest ++ [delivery] } items
        else if delivery.entry.maxRetries ≤ delivery.entry.retryCount then
          check now batchSize checks (queue.discard delivery) items
        else check now batchSize checks (queue.handOut delivery) (items ++ [delivery])
    else (queue, items)

def Queue.dequeueBatch (queue : Queue S) (batchSize : ℤ) (now : ℚ) :
    Queue S × List (Delivery S) :=
  queue.check now batchSize (batchSize * 3).toNat []

/-- `HDEL`. -/
def Queue.hdel (queue : Queue S) (dlqId : String) : Queue S :=
  { queue with processing := Function.update queue.processing dlqId none }

/-- A worker answers for the delivery `uid`, by its id: the entry under that id leaves the
hash, and `finish` is what is done with it. -/
def Queue.answer (queue : Queue S) (uid : ℕ) (finish : Queue S → Delivery S → Queue S) :
    Queue S :=
  match queue.ids[uid]? with
  | none => queue
  | some dlqId =>
    match queue.processing dlqId with
    -- the id is deleted in any case
    | none => queue.hdel dlqId
    | some delivery => finish (queue.hdel dlqId) delivery

def Queue.acknowledge (queue : Queue S) (delivery : Delivery S) : Queue S :=
  { queue with acknowledged := queue.acknowledged ++ [delivery.uid] }

def Queue.ack (queue : Queue S) (uid : ℕ) : Queue S :=
  queue.answer uid Queue.acknowledge

/-- What `nack` does with an entry that it has taken from the hash. -/
def Queue.retry (queue : Queue S) (delivery : Delivery S) (now : ℚ) : Queue S :=
  let entry := { delivery.entry with retryCount := delivery.entry.retryCount + 1 }
  -- the last retry ends the delivery, as the check in `dequeue_batch` would
  if entry.maxRetries ≤ entry.retryCount then queue.discard ⟨delivery.uid, entry⟩
  else
    let delay := config.baseDelay * 2 ^ entry.retryCount
    { queue with
      pending := queue.pending ++ [⟨delivery.uid, { entry with nextRetryAt := now + delay }⟩] }

def Queue.nack (queue : Queue S) (uid : ℕ) (now : ℚ) : Queue S :=
  queue.answer uid fun queue delivery => queue.retry config delivery now

inductive Op (S : Type*) where
  | enqueue (failed : FailedDelivery S) (now : ℚ)
  | dequeueBatch (batchSize : ℤ) (now : ℚ)
  | ack (uid : ℕ)
  | nack (uid : ℕ) (now : ℚ)

def Queue.step (queue : Queue S) : Op S → Queue S
  | .enqueue failed now => queue.enqueue config failed now
  | .dequeueBatch batchSize now => (queue.dequeueBatch batchSize now).1
  | .ack uid => queue.ack uid
  | .nack uid now => queue.nack config uid now

/-- The entry that the hash has of a delivery. -/
def Queue.processingOf (queue : Queue S) (uid : ℕ) : Option (Delivery S) :=
  queue.ids[uid]?.bind fun dlqId =>
    (queue.processing dlqId).filter fun delivery => delivery.uid = uid

/-- In how many places a delivery is, and how often. -/
def Queue.places (queue : Queue S) (uid : ℕ) : ℕ :=
  queue.pending.countP (fun delivery => delivery.uid = uid) +
    (queue.processingOf uid).toList.length + queue.acknowledged.count uid +
    queue.exhausted.count uid

/-- All there is of a delivery. -/
def Queue.whereabouts (queue : Queue S) (uid : ℕ) :
    List (Delivery S) × Option (Delivery S) × ℕ × ℕ :=
  (queue.pending.filter fun delivery => delivery.uid = uid, queue.processingOf uid,
    queue.acknowledged.count uid, queue.exhausted.count uid)

/-- Every delivery is in one place. -/
def Queue.Conserved (queue : Queue S) : Prop :=
  ∀ uid < queue.ids.length, queue.places uid = 1

/-- No delivery is handed out more often than it may be, and no less often before it is
discarded. -/
def Queue.RetriesCounted (queue : Queue S) : Prop :=
  (∀ uid, queue.handedOut.count uid ≤ config.maxRetries) ∧
    ∀ uid ∈ queue.exhausted, queue.handedOut.count uid = config.maxRetries

/-- What a call keeps to itself: a batch has only deliveries that are due, and an answer
concerns its delivery only. -/
def Queue.StepRight (queue : Queue S) : Op S → Prop
  | .enqueue _ _ => True
  | .dequeueBatch batchSize now =>
    ∀ delivery ∈ (queue.dequeueBatch batchSize now).2, delivery.entry.nextRetryAt ≤ now
  | .ack uid => ∀ other ≠ uid, (queue.ack uid).whereabouts other = queue.whereabouts other
  | .nack uid now =>
    ∀ other ≠ uid, (queue.nack config uid now).whereabouts other = queue.whereabouts other

/-- The deliveries that a batch hands out. -/
def Queue.ready (queue : Queue S) (batchSize : ℤ) (now : ℚ) : List (Delivery S) :=
  ((queue.pending.take (batchSize * 3).toNat).filter fun delivery =>
    delivery.Due now ∧ delivery.Live).take batchSize.toNat

/-- No two deliveries get in each other's way: a batch has no two of one id and none of an
id that a worker has, and an answer finds no other delivery under its id. -/
def Queue.IdsApart (queue : Queue S) : Op S → Prop
  | .enqueue _ _ => True
  | .dequeueBatch batchSize now => ∀ dlqId,
    (queue.processing dlqId).toList.length +
      (queue.ready batchSize now).countP (fun delivery => delivery.entry.dlqId = dlqId) ≤ 1
  | .ack uid | .nack uid _ => ∀ dlqId delivery, queue.ids[uid]? = some dlqId →
    queue.processing dlqId = some delivery → delivery.uid = uid

/-- What the loop has done when it ends: `handed` are handed out, `dropped` discarded, and
the rest is pending, in some order. -/
structure Checked (now : ℚ) (queue queue' : Queue S) (handed dropped : List (Delivery S)) :
    Prop where
  pending : queue'.pending ++ (handed ++ dropped) ~ queue.pending
  processing : queue'.processing = handed.foldl hset queue.processing
  ids : queue'.ids = queue.ids
  handedOut : queue'.handedOut = queue.handedOut ++ handed.map Delivery.uid
  acknowledged : queue'.acknowledged = queue.acknowledged
  exhausted : queue'.exhausted = queue.exhausted ++ dropped.map Delivery.uid
  due : ∀ delivery ∈ handed, delivery.Due now ∧ delivery.Live
  spent : ∀ delivery ∈ dropped, ¬ delivery.Live

variable {config}

theorem Checked.refl (now : ℚ) (queue : Queue S) : Checked now queue queue [] [] := by
  constructor <;> simp

section
variable {now : ℚ} {queue queue' : Queue S} {handed dropped rest : List (Delivery S)}
  {delivery : Delivery S} (hpending : queue.pending = delivery :: rest)
include hpending

theorem Checked.of_putBack
    (h : Checked now { queue with pending := rest ++ [delivery] } queue' handed dropped) :
    Checked now queue queue' handed dropped where
  __ := h
  pending := by
    rw [hpending]
    exact h.pending.trans (List.perm_append_singleton delivery rest)

theorem Checked.of_discard (hspent : ¬ delivery.Live)
    (h : Checked now (Queue.discard { queue with pending := rest } delivery) queue' handed
      dropped) : Checked now queue queue' handed (delivery :: dropped) where
  __ := h
  pending := by
    have hmove : queue'.pending ++ (handed ++ delivery :: dropped) ~
        delivery :: (queue'.pending ++ (handed ++ dropped)) := by
      have hmiddle : queue'.pending ++ handed ++ delivery :: dropped ~
          delivery :: (queue'.pending ++ handed ++ dropped) := List.perm_middle
      simpa only [List.append_assoc] using hmiddle
    rw [hpending]
    exact hmove.trans (h.pending.cons delivery)
  exhausted := by simpa [Queue.discard] using h.exhausted
  spent := by simpa [hspent] using h.spent

theorem Checked.of_handOut (hdue : delivery.Due now) (hlive : delivery.Live)
    (h : Checked now (Queue.handOut { queue with pending := rest } delivery) queue' handed
      dropped) : Checked now queue queue' (delivery :: handed) dropped where
  __ := h
  pending := by
    have hmove : queue'.pending ++ (delivery :: handed ++ dropped) ~
        delivery :: (queue'.pending ++ (handed ++ dropped)) := List.perm_middle
    rw [hpending]
    exact hmove.trans (h.pending.cons delivery)
  handedOut := by simpa [Queue.handOut] using h.handedOut
  due := by simpa [hdue, hlive] using h.due

end

/-- The loop lemma, by the checks that are left. -/
theorem checked_check (now : ℚ) (batchSize : ℤ) (checks : ℕ) (queue : Queue S)
    (items : List (Delivery S)) :
    ∃ handed dropped, (queue.check now batchSize checks items).2 = items ++ handed ∧
      Checked now queue (queue.check now batchSize checks items).1 handed dropped := by
  have hnone : ∃ handed dropped, items = items ++ handed ∧
      Checked now queue queue handed dropped := ⟨[], [], by simp, .refl now queue⟩
  fun_induction Queue.check now batchSize checks queue items with
  | case1 queue items => exact hnone
  | case2 checks queue items hroom hpending => exact hnone
  | case3 checks queue items hroom delivery rest hpending queue' hwaits ih =>
    obtain ⟨handed, dropped, hitems, h⟩ := ih ⟨[], [], by simp, .refl now _⟩
    exact ⟨handed, dropped, hitems, h.of_putBack hpending⟩
  | case4 checks queue items hroom delivery rest hpending queue' hwaits hspent ih =>
    obtain ⟨handed, dropped, hitems, h⟩ := ih ⟨[], [], by simp, .refl now _⟩
    exact ⟨handed, delivery :: dropped, hitems, h.of_discard hpending hspent.not_gt⟩
  | case5 checks queue items hroom delivery rest hpending queue' hwaits hspent ih =>
    obtain ⟨handed, dropped, hitems, h⟩ := ih ⟨[], [], by simp, .refl now _⟩
    refine ⟨delivery :: handed, dropped, by simpa using hitems, ?_⟩
    exact h.of_handOut hpending (not_lt.mp hwaits) (not_le.mp hspent)
  | case6 checks queue items hroom => exact hnone

/-- A delivery that is due was not put back. -/
theorem unseen_cons {now : ℚ} {pending unseen back rest : List (Delivery S)}
    {delivery : Delivery S} (hcons : pending = delivery :: rest)
    (hpending : pending = unseen ++ back) (hback : ∀ delivery ∈ back, ¬ delivery.Due now)
    (hdue : delivery.Due now) :
    ∃ unseen', unseen = delivery :: unseen' ∧ rest = unseen' ++ back := by
  cases unseen with
  | nil =>
    have hmem : delivery ∈ back := by
      rw [← List.nil_append back, ← hpending, hcons]
      exact List.mem_cons_self
    exact absurd hdue (hback delivery hmem)
  | cons first unseen =>
    obtain ⟨rfl, rfl⟩ := List.cons.inj (hpending.symm.trans hcons)
    exact ⟨unseen, rfl, rfl⟩

/-- The items, where what was put back stands behind what was not looked at yet. -/
theorem check_items (now : ℚ) (batchSize : ℤ) (checks : ℕ) (queue : Queue S)
    (items unseen back : List (Delivery S)) (hpending : queue.pending = unseen ++ back)
    (hback : ∀ delivery ∈ back, ¬ delivery.Due now) :
    (queue.check now batchSize checks items).2 = items ++
      ((unseen.take checks).filter fun delivery => delivery.Due now ∧ delivery.Live).take
        (batchSize.toNat - items.length) := by
  fun_induction Queue.check now batchSize checks queue items generalizing unseen back with
  | case1 queue items => simp
  | case2 checks queue items hroom hempty =>
    obtain ⟨rfl, -⟩ := List.append_eq_nil_iff.mp (hpending.symm.trans hempty)
    simp
  | case3 checks queue items hroom delivery rest hcons queue' hwaits ih =>
    have hdue : ¬ delivery.Due now := hwaits.not_ge
    cases unseen with
    | nil =>
      -- everything was looked at, and is looked at again
      obtain rfl : back = delivery :: rest := hpending.symm.trans hcons
      rw [ih [] (rest ++ [delivery]) rfl (by simpa [or_comm] using hback)]
      simp
    | cons first unseen =>
      obtain ⟨rfl, rfl⟩ := List.cons.inj (hpending.symm.trans hcons)
      rw [ih unseen (back ++ [first]) (by simp)
        (by simpa [or_imp, forall_and, hdue] using hback)]
      simp [hdue]
  | case4 checks queue items hroom delivery rest hcons queue' hwaits hspent ih =>
    have hdue : delivery.Due now := not_lt.mp hwaits
    obtain ⟨unseen, rfl, rfl⟩ := unseen_cons hcons hpending hback hdue
    have hlive : ¬ delivery.Live := hspent.not_gt
    rw [ih unseen back rfl hback]
    simp [hlive]
  | case5 checks queue items hroom delivery rest hcons queue' hwaits hspent ih =>
    have hdue : delivery.Due now := not_lt.mp hwaits
    obtain ⟨unseen, rfl, rfl⟩ := unseen_cons hcons hpending hback hdue
    have hlive : delivery.Live := not_le.mp hspent
    have hroom' : batchSize.toNat - items.length =
        batchSize.toNat - (items ++ [delivery]).length + 1 := by
      rw [List.length_append, List.length_singleton]
      omega
    rw [ih unseen back rfl hback, hroom']
    simp [hdue, hlive]
  | case6 checks queue items hroom =>
    have hfull : batchSize.toNat - items.length = 0 := by omega
    rw [hfull, List.take_zero, List.append_nil]

/-- The spec lemma of `dequeue_batch`: it hands out the first deliveries that are ready. -/
theorem checked_dequeueBatch (queue : Queue S) (batchSize : ℤ) (now : ℚ) :
    (queue.dequeueBatch batchSize now).2 = queue.ready batchSize now ∧
      ∃ dropped, Checked now queue (queue.dequeueBatch batchSize now).1
        (queue.ready batchSize now) dropped := by
  obtain ⟨handed, dropped, hitems, h⟩ :=
    checked_check now batchSize (batchSize * 3).toNat queue []
  have hready := check_items now batchSize (batchSize * 3).toNat queue [] queue.pending []
    (List.append_nil _).symm (by simp)
  simp only [List.nil_append, List.length_nil, Nat.sub_zero] at hitems hready
  refine ⟨hready, dropped, ?_⟩
  rw [show queue.ready batchSize now = handed from hready.symm.trans hitems]
  exact h

/-- The last of these has the place in the hash. -/
def Queue.holders (queue : Queue S) (handed : List (Delivery S)) (dlqId : String) :
    List (Delivery S) :=
  (queue.processing dlqId).toList ++
    handed.filter fun delivery => delivery.entry.dlqId = dlqId

theorem foldl_hset (handed : List (Delivery S)) (queue : Queue S) (dlqId : String) :
    handed.foldl hset queue.processing dlqId = (queue.holders handed dlqId).getLast? := by
  induction handed using List.reverseRecOn with
  | nil => cases h : queue.processing dlqId <;> simp [Queue.holders, h]
  | append_singleton handed delivery ih =>
    rw [List.foldl_append, List.foldl_cons, List.foldl_nil, hset, Function.update_apply]
    by_cases hid : delivery.entry.dlqId = dlqId
    · simp [Queue.holders, hid]
    · simp [Queue.holders, hid, Ne.symm hid, ih]

/-- If each element of a list is its last one, there is at most one. -/
theorem length_le_one_of_countP {α β : Type*} [DecidableEq β] (f : α → β) (l : List α)
    (h : ∀ a ∈ l, l.countP (fun b => f b = f a) =
      (l.getLast?.filter fun b => f b = f a).toList.length) : l.length ≤ 1 := by
  rcases List.eq_nil_or_concat l with rfl | ⟨rest, last, rfl⟩
  · simp
  · rw [List.concat_eq_append] at h ⊢
    cases rest with
    | nil => simp
    | cons first rest =>
      exfalso
      have hfirst := h first (by simp)
      rw [List.getLast?_concat, Option.filter_some] at hfirst
      -- the first element counts, and the last does if it is like it
      by_cases hlast : f last = f first <;> simp [hlast] at hfirst

variable (config) in
/-- What is known of an entry, and how often it was handed out. -/
structure Queue.Knows (queue : Queue S) (delivery : Delivery S) : Prop where
  ids : queue.ids[delivery.uid]? = some delivery.entry.dlqId
  maxRetries : delivery.entry.maxRetries = config.maxRetries

variable (config) in
/-- What holds of every queue, whatever happened to its ids. -/
structure Queue.Inv (queue : Queue S) : Prop where
  known : ∀ delivery ∈ queue.pending, queue.Knows config delivery
  retried : ∀ delivery ∈ queue.pending,
    queue.handedOut.count delivery.uid = delivery.entry.retryCount ∧
      delivery.entry.retryCount ≤ config.maxRetries
  held : ∀ dlqId delivery, queue.processing dlqId = some delivery →
    queue.Knows config delivery ∧ delivery.entry.dlqId = dlqId ∧
      queue.handedOut.count delivery.uid = delivery.entry.retryCount + 1 ∧
      delivery.entry.retryCount < config.maxRetries
  closed : ∀ uid, uid ∈ queue.handedOut ∨ uid ∈ queue.acknowledged ∨ uid ∈ queue.exhausted →
    uid < queue.ids.length
  counted : queue.RetriesCounted config
  once : ∀ uid, queue.places uid ≤ 1

theorem processingOf_eq {queue : Queue S} {uid : ℕ} {dlqId : String}
    (hid : queue.ids[uid]? = some dlqId) :
    queue.processingOf uid =
      (queue.processing dlqId).filter fun delivery => delivery.uid = uid := by
  rw [Queue.processingOf, hid, Option.bind_some]

theorem processingOf_of_held {queue : Queue S} (h : queue.Inv config) {dlqId : String}
    {delivery : Delivery S} (hheld : queue.processing dlqId = some delivery) :
    queue.processingOf delivery.uid = some delivery := by
  obtain ⟨hknown, rfl, -⟩ := h.held dlqId delivery hheld
  rw [processingOf_eq hknown.ids, hheld]
  simp

/-- How a batch changes the places of a delivery: the entries under its id give way to the
last of them. -/
theorem places_of_checked {now : ℚ} {queue queue' : Queue S} (h : queue.Inv config)
    {handed dropped : List (Delivery S)} (hchecked : Checked now queue queue' handed dropped)
    {uid : ℕ} {dlqId : String} (hid : queue.ids[uid]? = some dlqId) :
    queue'.places uid +
        (queue.holders handed dlqId).countP (fun delivery => delivery.uid = uid) =
      queue.places uid + ((queue.holders handed dlqId).getLast?.filter
        fun delivery => delivery.uid = uid).toList.length := by
  have hpending : queue'.pending.countP (fun delivery => delivery.uid = uid) +
      (handed.countP (fun delivery => delivery.uid = uid) +
        dropped.countP (fun delivery => delivery.uid = uid)) =
      queue.pending.countP fun delivery => delivery.uid = uid := by
    rw [← hchecked.pending.countP_eq, List.countP_append, List.countP_append]
  have hhanded : (handed.filter fun delivery => delivery.entry.dlqId = dlqId).countP
      (fun delivery => delivery.uid = uid) =
        handed.countP fun delivery => delivery.uid = uid := by
    rw [List.countP_filter]
    apply List.countP_congr
    intro delivery hmem
    -- the delivery `uid` has this id
    have hknown := h.known delivery (hchecked.pending.subset (by simp [hmem]))
    simp only [decide_eq_true_eq, Bool.and_eq_true, and_iff_left_iff_imp]
    rintro rfl
    exact Option.some.inj (hknown.ids.symm.trans hid)
  have hheld : (queue.processing dlqId).toList.countP (fun delivery => delivery.uid = uid) =
      (queue.processingOf uid).toList.length := by
    rw [processingOf_eq hid]
    cases queue.processing dlqId with
    | none => rfl
    | some delivery =>
      by_cases huid : delivery.uid = uid <;> simp [huid, Option.filter_some]
  have hprocessing : queue'.processingOf uid =
      (queue.holders handed dlqId).getLast?.filter fun delivery => delivery.uid = uid := by
    rw [processingOf_eq (hchecked.ids ▸ hid), hchecked.processing, foldl_hset]
  have hdropped : (dropped.map Delivery.uid).count uid =
      dropped.countP fun delivery => delivery.uid = uid := by
    rw [List.count_eq_countP, List.countP_map]
    rfl
  rw [Queue.places, Queue.places, hchecked.acknowledged, hchecked.exhausted, List.count_append,
    hdropped, hprocessing, Queue.holders, List.countP_append, hhanded, hheld]
  omega

theorem length_holders (queue : Queue S) (handed : List (Delivery S)) (dlqId : String) :
    (queue.holders handed dlqId).length = (queue.processing dlqId).toList.length +
      handed.countP fun delivery => delivery.entry.dlqId = dlqId := by
  rw [Queue.holders, List.length_append, List.countP_eq_length_filter]

theorem ids_of_mem_holders {now : ℚ} {queue queue' : Queue S} (h : queue.Inv config)
    {handed dropped : List (Delivery S)} (hchecked : Checked now queue queue' handed dropped)
    {dlqId : String} {delivery : Delivery S} (hmem : delivery ∈ queue.holders handed dlqId) :
    queue.ids[delivery.uid]? = some dlqId := by
  rcases List.mem_append.mp hmem with hheld | hhanded
  · obtain ⟨hknown, rfl, -⟩ := h.held dlqId delivery (Option.mem_toList.mp hheld)
    exact hknown.ids
  · obtain ⟨hhanded, hid⟩ := List.mem_filter.mp hhanded
    have hknown := h.known delivery (hchecked.pending.subset (by simp [hhanded]))
    rw [hknown.ids, of_decide_eq_true hid]

/-- A batch loses no delivery exactly if each id has at most one entry. -/
theorem conserved_checked_iff {now : ℚ} {queue queue' : Queue S} (h : queue.Inv config)
    (hconserved : queue.Conserved) {handed dropped : List (Delivery S)}
    (hchecked : Checked now queue queue' handed dropped) :
    queue'.Conserved ↔ ∀ dlqId, (queue.processing dlqId).toList.length +
      handed.countP (fun delivery => delivery.entry.dlqId = dlqId) ≤ 1 := by
  simp only [← length_holders]
  constructor
  · -- each delivery under the id is still somewhere, so that each is the last
    intro hconserved' dlqId
    apply length_le_one_of_countP Delivery.uid
    intro delivery hmem
    have hid := ids_of_mem_holders h hchecked hmem
    have hlt : delivery.uid < queue.ids.length := (List.getElem?_eq_some_iff.mp hid).1
    have hplaces := places_of_checked h hchecked hid
    rw [hconserved _ hlt, hconserved' _ (by rwa [hchecked.ids])] at hplaces
    omega
  · intro hapart uid hlt
    rw [hchecked.ids] at hlt
    obtain ⟨dlqId, hid⟩ : ∃ dlqId, queue.ids[uid]? = some dlqId :=
      ⟨_, List.getElem?_eq_getElem hlt⟩
    have hplaces := places_of_checked h hchecked hid
    have hsame : (queue.holders handed dlqId).countP (fun delivery => delivery.uid = uid) =
        ((queue.holders handed dlqId).getLast?.filter
          fun delivery => delivery.uid = uid).toList.length := by
      have hone := hapart dlqId
      match queue.holders handed dlqId, hone with
      | [], _ => rfl
      | [delivery], _ =>
        by_cases huid : delivery.uid = uid <;> simp [huid, Option.filter_some]
    rw [hconserved uid hlt, hsame] at hplaces
    omega

/-- A delivery that has left the list for one end is at no other. -/
theorem sum_le_one_of_checked {now : ℚ} {queue queue' : Queue S} (h : queue.Inv config)
    {handed dropped : List (Delivery S)} (hchecked : Checked now queue queue' handed dropped)
    (uid : ℕ) :
    queue'.pending.countP (fun delivery => delivery.uid = uid) +
        handed.countP (fun delivery => delivery.uid = uid) +
        dropped.countP (fun delivery => delivery.uid = uid) +
        (queue.processingOf uid).toList.length + queue.acknowledged.count uid +
        queue.exhausted.count uid ≤ 1 := by
  have honce := h.once uid
  rw [Queue.places, ← hchecked.pending.countP_eq, List.countP_append, List.countP_append]
    at honce
  omega

theorem countP_uid_pos {deliveries : List (Delivery S)} {delivery : Delivery S}
    (hmem : delivery ∈ deliveries) :
    0 < deliveries.countP fun other => other.uid = delivery.uid :=
  List.countP_pos_iff.mpr ⟨delivery, hmem, by simp⟩

theorem count_handedOut {now : ℚ} {queue queue' : Queue S} {handed dropped : List (Delivery S)}
    (hchecked : Checked now queue queue' handed dropped) (uid : ℕ) :
    queue'.handedOut.count uid = queue.handedOut.count uid +
      handed.countP fun delivery => delivery.uid = uid := by
  rw [hchecked.handedOut, List.count_append, List.count_eq_countP (l := handed.map _),
    List.countP_map]
  rfl

theorem Queue.Knows.of_ids {queue queue' : Queue S} (hids : queue'.ids = queue.ids)
    {delivery : Delivery S} (h : queue.Knows config delivery) : queue'.Knows config delivery :=
  ⟨hids ▸ h.ids, h.maxRetries⟩

theorem retriesCounted_checked {now : ℚ} {queue queue' : Queue S} (h : queue.Inv config)
    {handed dropped : List (Delivery S)} (hchecked : Checked now queue queue' handed dropped) :
    queue'.RetriesCounted config := by
  have hpending : ∀ delivery ∈ handed ++ dropped, delivery ∈ queue.pending := fun delivery hmem =>
    hchecked.pending.subset (List.mem_append_right _ hmem)
  refine ⟨fun uid => ?_, fun uid hexhausted => ?_⟩
  · -- a delivery that is handed out has retries left
    have hold := h.counted.1 uid
    rw [count_handedOut hchecked]
    by_cases hhanded : ∃ delivery ∈ handed, delivery.uid = uid
    · obtain ⟨delivery, hmem, rfl⟩ := hhanded
      have hsum := sum_le_one_of_checked h hchecked delivery.uid
      have hretried := h.retried delivery (hpending delivery (List.mem_append_left _ hmem))
      have hknown := h.known delivery (hpending delivery (List.mem_append_left _ hmem))
      have hlive : delivery.entry.retryCount < delivery.entry.maxRetries :=
        (hchecked.due delivery hmem).2
      rw [hknown.maxRetries] at hlive
      omega
    · have hnone : handed.countP (fun delivery => delivery.uid = uid) = 0 := by
        rw [List.countP_eq_zero]
        simpa using hhanded
      omega
  · -- a delivery that is discarded has none left, and is not handed out as well
    have hsum := sum_le_one_of_checked h hchecked uid
    rw [count_handedOut hchecked]
    rw [hchecked.exhausted, List.mem_append, List.mem_map] at hexhausted
    rcases hexhausted with hold | ⟨delivery, hmem, rfl⟩
    · have hpos : 0 < queue.exhausted.count uid := List.count_pos_iff.mpr hold
      have heq := h.counted.2 uid hold
      omega
    · have hpos := countP_uid_pos hmem
      have hretried := h.retried delivery (hpending delivery (List.mem_append_right _ hmem))
      have hknown := h.known delivery (hpending delivery (List.mem_append_right _ hmem))
      have hspent : ¬ delivery.entry.retryCount < delivery.entry.maxRetries :=
        hchecked.spent delivery hmem
      rw [hknown.maxRetries] at hspent
      omega

theorem length_filter_getLast?_le {α : Type*} (p : α → Bool) (l : List α) :
    (l.getLast?.filter p).toList.length ≤ l.countP p := by
  rcases List.eq_nil_or_concat l with rfl | ⟨rest, last, rfl⟩
  · simp
  · rw [List.concat_eq_append, List.getLast?_concat, Option.filter_some, List.countP_append]
    by_cases hlast : p last = true <;> simp [hlast]

theorem once_checked {now : ℚ} {queue queue' : Queue S} (h : queue.Inv config)
    {handed dropped : List (Delivery S)} (hchecked : Checked now queue queue' handed dropped)
    (uid : ℕ) : queue'.places uid ≤ 1 := by
  have hsum := sum_le_one_of_checked h hchecked uid
  have hdropped : (dropped.map Delivery.uid).count uid =
      dropped.countP fun delivery => delivery.uid = uid := by
    rw [List.count_eq_countP, List.countP_map]
    rfl
  rw [Queue.places, hchecked.acknowledged, hchecked.exhausted, List.count_append, hdropped]
  cases hid : queue.ids[uid]? with
  | none =>
    have hnone : queue'.processingOf uid = none := by
      rw [Queue.processingOf, hchecked.ids, hid, Option.bind_none]
    rw [hnone, Option.toList_none, List.length_nil]
    omega
  | some dlqId =>
    have hplaces := places_of_checked h hchecked hid
    have hlast := length_filter_getLast?_le (fun delivery => decide (delivery.uid = uid))
      (queue.holders handed dlqId)
    have honce := h.once uid
    rw [Queue.places, hchecked.acknowledged, hchecked.exhausted, List.count_append, hdropped]
      at hplaces
    omega

/-- A batch keeps the invariant. -/
theorem inv_checked {now : ℚ} {queue queue' : Queue S} (h : queue.Inv config)
    {handed dropped : List (Delivery S)} (hchecked : Checked now queue queue' handed dropped) :
    queue'.Inv config where
  known := by
    intro delivery hmem
    exact (h.known delivery (hchecked.pending.subset (List.mem_append_left _ hmem))).of_ids
      hchecked.ids
  retried := by
    intro delivery hmem
    have hretried := h.retried delivery (hchecked.pending.subset (List.mem_append_left _ hmem))
    have hsum := sum_le_one_of_checked h hchecked delivery.uid
    have hpos := countP_uid_pos hmem
    rw [count_handedOut hchecked]
    omega
  held := by
    intro dlqId delivery hheld
    rw [hchecked.processing, foldl_hset] at hheld
    have hmem := List.mem_of_getLast? hheld
    have hsum := sum_le_one_of_checked h hchecked delivery.uid
    rw [count_handedOut hchecked]
    rcases List.mem_append.mp hmem with hold | hhanded
    · -- held before, and not handed out again
      have hold := Option.mem_toList.mp hold
      obtain ⟨hknown, hid, hcount, hlt⟩ := h.held dlqId delivery hold
      rw [processingOf_of_held h hold, Option.toList_some, List.length_singleton] at hsum
      exact ⟨hknown.of_ids hchecked.ids, hid, by omega, hlt⟩
    · obtain ⟨hhanded, hid⟩ := List.mem_filter.mp hhanded
      have hpending := hchecked.pending.subset
        (List.mem_append_right _ (List.mem_append_left _ hhanded))
      have hknown := h.known delivery hpending
      have hretried := h.retried delivery hpending
      have hpos := countP_uid_pos hhanded
      have hlive : delivery.entry.retryCount < delivery.entry.maxRetries :=
        (hchecked.due delivery hhanded).2
      rw [hknown.maxRetries] at hlive
      exact ⟨hknown.of_ids hchecked.ids, of_decide_eq_true hid, by omega, hlive⟩
  closed := by
    have hpending : ∀ uid, uid ∈ (handed ++ dropped).map Delivery.uid → uid < queue.ids.length := by
      intro uid huid
      obtain ⟨delivery, hmem, rfl⟩ := List.mem_map.mp huid
      have hknown := h.known delivery (hchecked.pending.subset (List.mem_append_right _ hmem))
      exact (List.getElem?_eq_some_iff.mp hknown.ids).1
    intro uid
    rw [hchecked.handedOut, hchecked.acknowledged, hchecked.exhausted, hchecked.ids,
      List.mem_append, List.mem_append]
    have hclosed := h.closed uid
    have hpending := hpending uid
    rw [List.map_append, List.mem_append] at hpending
    tauto
  counted := retriesCounted_checked h hchecked
  once := once_checked h hchecked

theorem processingOf_enqueue {queue : Queue S} (h : queue.Inv config)
    (failed : FailedDelivery S) (now : ℚ) (uid : ℕ) :
    (queue.enqueue config failed now).processingOf uid = queue.processingOf uid := by
  simp only [Queue.processingOf, Queue.enqueue]
  rcases lt_trichotomy uid queue.ids.length with hlt | rfl | hgt
  · rw [List.getElem?_append_left hlt]
  · -- the new delivery is not in the hash
    rw [List.getElem?_concat_length, List.getElem?_eq_none le_rfl, Option.bind_some,
      Option.bind_none, Option.filter_eq_none_iff]
    intro delivery hheld
    obtain ⟨hknown, -⟩ := h.held _ delivery hheld
    have hlt := (List.getElem?_eq_some_iff.mp hknown.ids).1
    simpa using hlt.ne
  · rw [List.getElem?_eq_none hgt.le, List.getElem?_eq_none (by simpa using hgt)]

theorem places_enqueue {queue : Queue S} (h : queue.Inv config) (failed : FailedDelivery S)
    (now : ℚ) (uid : ℕ) :
    (queue.enqueue config failed now).places uid =
      queue.places uid + if queue.ids.length = uid then 1 else 0 := by
  rw [Queue.places, processingOf_enqueue h]
  simp only [Queue.enqueue, Queue.places, List.countP_append, List.countP_singleton,
    decide_eq_true_eq]
  omega

/-- A number that no call has given out is nowhere. -/
theorem places_of_ge {queue : Queue S} (h : queue.Inv config) {uid : ℕ}
    (huid : queue.ids.length ≤ uid) : queue.places uid = 0 := by
  have hpending : queue.pending.countP (fun delivery => delivery.uid = uid) = 0 := by
    rw [List.countP_eq_zero]
    intro delivery hmem
    have hlt := (List.getElem?_eq_some_iff.mp (h.known delivery hmem).ids).1
    simpa using (hlt.trans_le huid).ne
  have hprocessing : queue.processingOf uid = none := by
    rw [Queue.processingOf, List.getElem?_eq_none huid, Option.bind_none]
  have hacknowledged : queue.acknowledged.count uid = 0 := by
    rw [List.count_eq_zero]
    exact fun hmem => (h.closed uid (.inr (.inl hmem))).not_ge huid
  have hexhausted : queue.exhausted.count uid = 0 := by
    rw [List.count_eq_zero]
    exact fun hmem => (h.closed uid (.inr (.inr hmem))).not_ge huid
  rw [Queue.places, hpending, hprocessing, hacknowledged, hexhausted]
  rfl

theorem inv_enqueue {queue : Queue S} (h : queue.Inv config) (failed : FailedDelivery S)
    (now : ℚ) : (queue.enqueue config failed now).Inv config := by
  have hknows : ∀ delivery, queue.Knows config delivery →
      (queue.enqueue config failed now).Knows config delivery := by
    intro delivery hknown
    have hlt := (List.getElem?_eq_some_iff.mp hknown.ids).1
    exact ⟨(List.getElem?_append_left hlt).trans hknown.ids, hknown.maxRetries⟩
  -- the new delivery has the number after all others
  constructor
  · intro delivery hmem
    rcases List.mem_append.mp hmem with hold | hnew
    · exact hknows delivery (h.known delivery hold)
    · rw [List.mem_singleton.mp hnew]
      exact ⟨List.getElem?_concat_length, rfl⟩
  · intro delivery hmem
    rcases List.mem_append.mp hmem with hold | hnew
    · exact h.retried delivery hold
    · rw [List.mem_singleton.mp hnew]
      refine ⟨List.count_eq_zero.mpr ?_, Nat.zero_le _⟩
      exact fun hmem => (h.closed _ (.inl hmem)).false
  · intro dlqId delivery hheld
    obtain ⟨hknown, hrest⟩ := h.held dlqId delivery hheld
    exact ⟨hknows delivery hknown, hrest⟩
  · intro uid hmem
    have hlt := h.closed uid hmem
    simp only [Queue.enqueue, List.length_append, List.length_singleton]
    omega
  · exact h.counted
  · intro uid
    rw [places_enqueue h]
    split_ifs with huid
    · rw [places_of_ge h huid.le]
    · exact h.once uid

theorem conserved_enqueue {queue : Queue S} (h : queue.Inv config) (hconserved : queue.Conserved)
    (failed : FailedDelivery S) (now : ℚ) : (queue.enqueue config failed now).Conserved := by
  intro uid hlt
  rw [places_enqueue h]
  split_ifs with huid
  · rw [places_of_ge h huid.le]
  · simp only [Queue.enqueue, List.length_append, List.length_singleton] at hlt
    exact hconserved uid (by omega)

/-- What an answer does that finds `delivery` under its id: the delivery goes from the hash
to one other place. -/
structure Answered (queue queue' : Queue S) (delivery : Delivery S) : Prop where
  ids : queue'.ids = queue.ids
  processing : queue'.processing =
    Function.update queue.processing delivery.entry.dlqId none
  handedOut : queue'.handedOut = queue.handedOut
  others : ∀ other ≠ delivery.uid,
    (queue'.pending.filter fun delivery => delivery.uid = other) =
        (queue.pending.filter fun delivery => delivery.uid = other) ∧
      queue'.acknowledged.count other = queue.acknowledged.count other ∧
      queue'.exhausted.count other = queue.exhausted.count other
  moved : queue'.pending.countP (fun other => other.uid = delivery.uid) +
      queue'.acknowledged.count delivery.uid + queue'.exhausted.count delivery.uid =
    queue.pending.countP (fun other => other.uid = delivery.uid) +
      queue.acknowledged.count delivery.uid + queue.exhausted.count delivery.uid + 1

theorem processingOf_answered {queue queue' : Queue S} (h : queue.Inv config)
    {delivery : Delivery S} (hheld : queue.processing delivery.entry.dlqId = some delivery)
    (hanswered : Answered queue queue' delivery) (uid : ℕ) :
    queue'.processingOf uid = if uid = delivery.uid then none else queue.processingOf uid := by
  obtain ⟨hknown, -⟩ := h.held _ delivery hheld
  simp only [Queue.processingOf, hanswered.ids, hanswered.processing]
  split_ifs with huid
  · rw [huid, hknown.ids, Option.bind_some, Function.update_self, Option.filter_none]
  · cases hid : queue.ids[uid]? with
    | none => rfl
    | some dlqId =>
      rw [Option.bind_some, Option.bind_some, Function.update_apply]
      split_ifs with hsame
      · rw [hsame, hheld, Option.filter_some]
        simp [Ne.symm huid]
      · rfl

theorem whereabouts_answered_iff {queue queue' : Queue S} (h : queue.Inv config)
    {delivery : Delivery S} (hheld : queue.processing delivery.entry.dlqId = some delivery)
    (hanswered : Answered queue queue' delivery) (uid : ℕ) :
    (∀ other ≠ uid, queue'.whereabouts other = queue.whereabouts other) ↔
      delivery.uid = uid := by
  constructor
  · -- the delivery that is found leaves the hash, which is seen if it is another
    intro hothers
    by_contra hne
    have hprocessing := congrArg (fun place => place.2.1) (hothers delivery.uid hne)
    simp only [Queue.whereabouts, processingOf_answered h hheld hanswered, ↓reduceIte,
      processingOf_of_held h hheld, reduceCtorEq] at hprocessing
  · rintro rfl other hne
    obtain ⟨hpending, hacknowledged, hexhausted⟩ := hanswered.others other hne
    rw [Queue.whereabouts, Queue.whereabouts, hpending, hacknowledged, hexhausted,
      processingOf_answered h hheld hanswered, if_neg hne]

theorem places_answered {queue queue' : Queue S} (h : queue.Inv config)
    {delivery : Delivery S} (hheld : queue.processing delivery.entry.dlqId = some delivery)
    (hanswered : Answered queue queue' delivery) (uid : ℕ) :
    queue'.places uid = queue.places uid := by
  rw [Queue.places, Queue.places, processingOf_answered h hheld hanswered]
  split_ifs with huid
  · subst huid
    have hmoved := hanswered.moved
    rw [processingOf_of_held h hheld, Option.toList_none, Option.toList_some, List.length_nil,
      List.length_singleton]
    omega
  · obtain ⟨hpending, hacknowledged, hexhausted⟩ := hanswered.others uid huid
    rw [List.countP_eq_length_filter, hpending, hacknowledged, hexhausted,
      ← List.countP_eq_length_filter]

/-- An answer to an id that the hash does not have changes nothing. -/
theorem hdel_of_none {queue : Queue S} {dlqId : String} (hnone : queue.processing dlqId = none) :
    queue.hdel dlqId = queue := by
  rw [Queue.hdel, Function.update_eq_self_iff.mpr hnone.symm]

theorem answer_cases {queue : Queue S} (h : queue.Inv config) (uid : ℕ)
    (finish : Queue S → Delivery S → Queue S) :
    (queue.answer uid finish = queue ∧ ∀ dlqId, queue.ids[uid]? = some dlqId →
        queue.processing dlqId = none) ∨
      ∃ delivery, queue.ids[uid]? = some delivery.entry.dlqId ∧
        queue.processing delivery.entry.dlqId = some delivery ∧
        queue.answer uid finish = finish (queue.hdel delivery.entry.dlqId) delivery := by
  cases hid : queue.ids[uid]? with
  | none => exact .inl ⟨by simp only [Queue.answer, hid], nofun⟩
  | some dlqId =>
    cases hheld : queue.processing dlqId with
    | none =>
      refine .inl ⟨?_, ?_⟩
      · simp only [Queue.answer, hid, hheld]
        exact hdel_of_none hheld
      · rintro _ ⟨⟩
        exact hheld
    | some delivery =>
      obtain ⟨-, rfl, -⟩ := h.held dlqId delivery hheld
      exact .inr ⟨delivery, rfl, hheld, by simp only [Queue.answer, hid, hheld]⟩

theorem answered_acknowledge (queue : Queue S) (delivery : Delivery S) :
    Answered queue ((queue.hdel delivery.entry.dlqId).acknowledge delivery) delivery where
  ids := rfl
  processing := rfl
  handedOut := rfl
  others := by
    intro other hne
    simp [Queue.acknowledge, Queue.hdel, Ne.symm hne]
  moved := by
    simp [Queue.acknowledge, Queue.hdel]
    omega

variable (config) in
theorem answered_retry (queue : Queue S) (delivery : Delivery S) (now : ℚ) :
    Answered queue ((queue.hdel delivery.entry.dlqId).retry config delivery now) delivery := by
  simp only [Queue.retry, Queue.discard, Queue.hdel]
  split_ifs with hspent
  all_goals
    constructor
    · rfl
    · rfl
    · rfl
    · intro other hne
      simp [Ne.symm hne]
    · simp
      omega

/-- What the invariant asks of an answer beyond that. -/
structure Kept (queue queue' : Queue S) (delivery : Delivery S) : Prop where
  pending : ∀ other ∈ queue'.pending, other ∈ queue.pending ∨
    other.uid = delivery.uid ∧ other.entry.dlqId = delivery.entry.dlqId ∧
      other.entry.maxRetries = delivery.entry.maxRetries ∧
      other.entry.retryCount = delivery.entry.retryCount + 1
  acknowledged : ∀ uid ∈ queue'.acknowledged, uid ∈ queue.acknowledged ∨ uid = delivery.uid
  exhausted : ∀ uid ∈ queue'.exhausted, uid ∈ queue.exhausted ∨
    uid = delivery.uid ∧ delivery.entry.maxRetries ≤ delivery.entry.retryCount + 1

theorem kept_acknowledge (queue : Queue S) (delivery : Delivery S) :
    Kept queue ((queue.hdel delivery.entry.dlqId).acknowledge delivery) delivery where
  pending := fun _ hmem => .inl hmem
  acknowledged := by simp [Queue.acknowledge, Queue.hdel]
  exhausted := fun _ hmem => .inl hmem

variable (config) in
theorem kept_retry (queue : Queue S) (delivery : Delivery S) (now : ℚ) :
    Kept queue ((queue.hdel delivery.entry.dlqId).retry config delivery now) delivery := by
  simp only [Queue.retry, Queue.discard, Queue.hdel]
  split_ifs with hspent
  · constructor
    · exact fun _ hmem => .inl hmem
    · exact fun _ hmem => .inl hmem
    · simp [hspent]
  · constructor
    · intro other hmem
      rcases List.mem_append.mp hmem with hold | hnew
      · exact .inl hold
      · rw [List.mem_singleton.mp hnew]
        exact .inr ⟨rfl, rfl, rfl, rfl⟩
    · exact fun _ hmem => .inl hmem
    · exact fun _ hmem => .inl hmem

theorem inv_answered {queue queue' : Queue S} (h : queue.Inv config)
    {delivery : Delivery S} (hheld : queue.processing delivery.entry.dlqId = some delivery)
    (hanswered : Answered queue queue' delivery) (hkept : Kept queue queue' delivery) :
    queue'.Inv config := by
  obtain ⟨hknown, -, hcount, hlt⟩ := h.held _ delivery hheld
  have huid : delivery.uid < queue.ids.length := (List.getElem?_eq_some_iff.mp hknown.ids).1
  -- what is pending now was pending before, or is the delivery with one retry more
  constructor
  · intro other hmem
    rcases hkept.pending other hmem with hold | ⟨hsame, hid, hmax, -⟩
    · exact (h.known other hold).of_ids hanswered.ids
    · exact ⟨by rw [hanswered.ids, hsame, hknown.ids, hid], hmax.trans hknown.maxRetries⟩
  · intro other hmem
    rw [hanswered.handedOut]
    rcases hkept.pending other hmem with hold | ⟨hsame, -, -, hretries⟩
    · exact h.retried other hold
    · rw [hsame, hretries, hcount]
      exact ⟨rfl, hlt⟩
  · intro dlqId other hother
    rw [hanswered.processing, Function.update_apply] at hother
    split_ifs at hother
    obtain ⟨hknown', hrest⟩ := h.held dlqId other hother
    rw [hanswered.handedOut]
    exact ⟨hknown'.of_ids hanswered.ids, hrest⟩
  · intro uid hmem
    rw [hanswered.ids]
    rw [hanswered.handedOut] at hmem
    rcases hmem with hmem | hmem | hmem
    · exact h.closed uid (.inl hmem)
    · rcases hkept.acknowledged uid hmem with hold | rfl
      · exact h.closed uid (.inr (.inl hold))
      · exact huid
    · rcases hkept.exhausted uid hmem with hold | ⟨rfl, -⟩
      · exact h.closed uid (.inr (.inr hold))
      · exact huid
  · simp only [Queue.RetriesCounted, hanswered.handedOut]
    refine ⟨h.counted.1, fun uid hmem => ?_⟩
    rcases hkept.exhausted uid hmem with hold | ⟨rfl, hspent⟩
    · exact h.counted.2 uid hold
    · rw [hknown.maxRetries] at hspent
      omega
  · intro uid
    rw [places_answered h hheld hanswered]
    exact h.once uid

/-- An answer keeps what is conserved, and concerns its delivery only if that is the one
it finds. -/
theorem answer_spec {queue : Queue S} (h : queue.Inv config) (uid : ℕ)
    (finish : Queue S → Delivery S → Queue S)
    (hanswered : ∀ delivery : Delivery S,
      Answered queue (finish (queue.hdel delivery.entry.dlqId) delivery) delivery)
    (hkept : ∀ delivery : Delivery S,
      Kept queue (finish (queue.hdel delivery.entry.dlqId) delivery) delivery) :
    (queue.answer uid finish).Inv config ∧
      (queue.Conserved → (queue.answer uid finish).Conserved) ∧
      ((∀ other ≠ uid, (queue.answer uid finish).whereabouts other = queue.whereabouts other) ↔
        ∀ dlqId delivery, queue.ids[uid]? = some dlqId →
          queue.processing dlqId = some delivery → delivery.uid = uid) := by
  rcases answer_cases h uid finish with ⟨hsame, hnone⟩ | ⟨delivery, hid, hheld, hanswer⟩
  · -- nothing under the id, and nothing changes
    rw [hsame]
    refine ⟨h, id, iff_of_true (fun _ _ => rfl) ?_⟩
    intro dlqId delivery hid hheld
    rw [hnone dlqId hid] at hheld
    cases hheld
  · have hanswered := hanswered delivery
    have hkept := hkept delivery
    rw [← hanswer] at hanswered hkept
    refine ⟨inv_answered h hheld hanswered hkept, ?_, ?_⟩
    · intro hconserved other hlt
      rw [places_answered h hheld hanswered]
      exact hconserved other (hanswered.ids ▸ hlt)
    · rw [whereabouts_answered_iff h hheld hanswered]
      constructor
      · rintro huid dlqId other hid' hheld'
        obtain rfl : delivery.entry.dlqId = dlqId := Option.some.inj (hid.symm.trans hid')
        obtain rfl : delivery = other := Option.some.inj (hheld.symm.trans hheld')
        exact huid
      · intro hapart
        exact hapart _ delivery hid hheld

theorem inv_step {queue : Queue S} (h : queue.Inv config) (op : Op S) :
    (queue.step config op).Inv config := by
  cases op with
  | enqueue failed now => exact inv_enqueue h failed now
  | dequeueBatch batchSize now =>
    obtain ⟨-, dropped, hchecked⟩ := checked_dequeueBatch queue batchSize now
    exact inv_checked h hchecked
  | ack uid =>
    exact (answer_spec h uid Queue.acknowledge (answered_acknowledge queue)
      (kept_acknowledge queue)).1
  | nack uid now =>
    exact (answer_spec h uid (fun queue delivery => queue.retry config delivery now)
      (fun delivery => answered_retry config queue delivery now)
      fun delivery => kept_retry config queue delivery now).1

/-- The step lemma. -/
theorem conserved_step_iff {queue : Queue S} (h : queue.Inv config)
    (hconserved : queue.Conserved) (op : Op S) :
    (queue.step config op).Conserved ∧ queue.StepRight config op ↔ queue.IdsApart op := by
  cases op with
  | enqueue failed now =>
    exact iff_of_true ⟨conserved_enqueue h hconserved failed now, trivial⟩ trivial
  | dequeueBatch batchSize now =>
    obtain ⟨hitems, dropped, hchecked⟩ := checked_dequeueBatch queue batchSize now
    have hdue : queue.StepRight config (.dequeueBatch batchSize now) := by
      intro delivery hmem
      rw [hitems] at hmem
      exact (hchecked.due delivery hmem).1
    rw [and_iff_left hdue]
    exact conserved_checked_iff h hconserved hchecked
  | ack uid =>
    obtain ⟨-, hkeeps, hothers⟩ :=
      answer_spec h uid Queue.acknowledge (answered_acknowledge queue) (kept_acknowledge queue)
    exact (and_iff_right (hkeeps hconserved)).trans hothers
  | nack uid now =>
    obtain ⟨-, hkeeps, hothers⟩ :=
      answer_spec h uid (fun queue delivery => queue.retry config delivery now)
        (fun delivery => answered_retry config queue delivery now)
        fun delivery => kept_retry config queue delivery now
    exact (and_iff_right (hkeeps hconserved)).trans hothers

variable (config) in
/-- A run conserves every delivery, hands each out as often as it may and only when it is
due, and answers for one at a time, exactly if the ids keep the deliveries apart. -/
theorem conserved_iff (ops : List (Op S)) :
    (∀ earlier op, earlier ++ [op] <+: ops →
        ((earlier.foldl (Queue.step config) {}).step config op).Conserved ∧
          ((earlier.foldl (Queue.step config) {}).step config op).RetriesCounted config ∧
          (earlier.foldl (Queue.step config) {}).StepRight config op) ↔
      ∀ earlier op, earlier ++ [op] <+: ops →
        (earlier.foldl (Queue.step config) {}).IdsApart op := by
  apply forall_prefix_iff (Queue.step config) (I := Queue.Inv config) (P := Queue.Conserved)
    (Q := fun queue op => (queue.step config op).Conserved ∧
      (queue.step config op).RetriesCounted config ∧ queue.StepRight config op)
  · intro queue op h
    exact inv_step h op
  · intro queue op h hconserved
    rw [← conserved_step_iff h hconserved op, and_left_comm]
    exact and_iff_right (inv_step h op).counted
  · intro queue op h hconserved hright
    exact hright.1
  · constructor <;> simp [Queue.RetriesCounted, Queue.places, Queue.processingOf]
  · simp [Queue.Conserved]

/-- Two failed deliveries of one subscriber in one millisecond have one id. The batch that
hands out both leaves the second of them in the hash. -/
theorem sameMillisecond_not_conserved :
    ¬ ∀ earlier op, earlier ++ [op] <+:
        [Op.enqueue ⟨"BTC-USD", "alice", "webhook", "https://a", ""⟩ 1,
          .enqueue ⟨"ETH-USD", "alice", "webhook", "https://a", ""⟩ 1, .dequeueBatch 10 31] →
      ((earlier.foldl (Queue.step {}) {}).step {} op).Conserved ∧
        ((earlier.foldl (Queue.step {}) {}).step {} op).RetriesCounted {} ∧
        (earlier.foldl (Queue.step {}) {}).StepRight {} op := by
  intro h
  have hlast := (h [.enqueue ⟨"BTC-USD", "alice", "webhook", "https://a", ""⟩ 1,
    .enqueue ⟨"ETH-USD", "alice", "webhook", "https://a", ""⟩ 1] _ List.prefix_rfl).1 0
  revert hlast
  decide +kernel

end TradeStream.DeadLetterQueue
