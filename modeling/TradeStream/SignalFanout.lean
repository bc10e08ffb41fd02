import TradeStream.BreakerSafety
import TradeStream.DeadLetterQueue

/-! `SignalDeliveryService`: a signal goes to every matching subscriber, to Telegram through a
circuit breaker, and what fails goes to the dead letter queue. The service has all of its
optional parts. -/
namespace TradeStream.SignalFanout
open TradeStream.CircuitBreaker TradeStream.DeadLetterQueue TradeStream.RunSteps

structure Subscription where
  id : String
  channel : String
  endpoint : String
  strategies : List String
  pairs : List String
  active : Bool

/-- What an HTTP request comes to. -/
inductive HttpReply where
  | status (code : ℕ)
  | requestException

/-- What `TelegramSender.send_signal` comes to. It catches the exceptions of the request, but
not those of formatting the message. -/
inductive TelegramReply where
  | http (reply : HttpReply)
  | raises (error : String)

/-- How an attempt goes: the times when the breaker is asked, when the result is recorded and
when a failure is enqueued, what Telegram answers, and a webhook to each post. -/
structure Reply where
  requested : ℚ
  recorded : ℚ
  enqueued : ℚ
  telegram : TelegramReply
  webhook : ℕ → HttpReply

structure Metrics where
  deliveriesAttempted : ℕ := 0
  deliveriesSucceeded : ℕ := 0
  deliveriesFailed : ℕ := 0
  dlqEnqueued : ℕ := 0
  telegramApiCalls : ℕ := 0
  telegramApiErrors : ℕ := 0
  telegramCircuitBreakerTrips : ℕ := 0

/-- An attempt, and the error with which it failed, if it did. -/
structure Attempt (S : Type*) where
  signal : S
  subscription : Subscription
  error : Option String

/-- The service. The last three observe: what has been asked of the breaker and of the queue,
and the attempts. -/
structure State (S : Type*) where
  breaker : Breaker := {}
  queue : Queue S := {}
  metrics : Metrics := {}
  calls : List Call := []
  ops : List (Op S) := []
  attempts : List (Attempt S) := []

/-- What the service is built with. -/
structure Config where
  telegramBotToken : String
  breaker : CircuitBreaker.Config
  queue : DeadLetterQueue.Config

/-- What it reads of a signal. -/
structure SignalFields (S : Type*) where
  strategyName : S → Option String
  instrument : S → Option String

/-- A subscriber's list of names, which admits all if it is empty. A signal without a name is
admitted by every list. -/
def admits (names : List String) : Option String → Bool
  | none => true
  | some name => names = [] || name = "" || name ∈ names

/-- The rows that `get_active_subscriptions` keeps. -/
def Subscription.matches (sub : Subscription) (strategyName instrument : Option String) :
    Bool :=
  sub.active && admits sub.strategies strategyName && admits sub.pairs instrument

/-- `_deliver` with its retries: a server error or an exception is tried again, and
`send_signal` returns `False` after the last. -/
def deliverWebhook : ℕ → (ℕ → HttpReply) → Bool
  | 0, _ => false
  | attempts + 1, replies =>
    match replies 0 with
    | .status code =>
      if code < 300 then true
      else if 500 ≤ code then deliverWebhook attempts fun i => replies (i + 1)
      else false
    | .requestException => deliverWebhook attempts fun i => replies (i + 1)

/-- What a delivery returns or raises. -/
inductive Result where
  | returned (ok : Bool)
  | raised (error : String)

/-- `send_signal` of Telegram. -/
def TelegramReply.ok : HttpReply → Bool
  | .status code => code = 200
  | .requestException => false

variable {S : Type*} (config : Config)

def State.call (s : State S) (c : Call) : State S :=
  { s with breaker := s.breaker.step config.breaker c, calls := s.calls ++ [c] }

def State.dlq (s : State S) (op : Op S) : State S :=
  { s with queue := s.queue.step config.queue op, ops := s.ops ++ [op] }

/-- `deliver_to_telegram`. -/
def deliverToTelegram (s : State S) (reply : Reply) : State S × Result :=
  if config.telegramBotToken = "" then (s, .returned false)
  else
    let admitted := s.breaker.admits config.breaker (.allowRequest reply.requested)
    let s := s.call config (.allowRequest reply.requested)
    let m := s.metrics
    if !admitted then
      ({ s with metrics := { m with
          telegramCircuitBreakerTrips := m.telegramCircuitBreakerTrips + 1 } },
        .returned false)
    else
      match reply.telegram with
      -- neither a success nor a failure is recorded
      | .raises error => (s, .raised error)
      | .http http =>
        if TelegramReply.ok http then
          ({ s with metrics := { m with telegramApiCalls := m.telegramApiCalls + 1 } }.call
            config (.recordSuccess reply.recorded), .returned true)
        else
          ({ s with metrics := { m with
              telegramApiCalls := m.telegramApiCalls + 1
              telegramApiErrors := m.telegramApiErrors + 1 } }.call config
            (.recordFailure reply.recorded), .returned false)

def deliver (s : State S) (sub : Subscription) (reply : Reply) : State S × Result :=
  if sub.channel = "telegram" then deliverToTelegram config s reply
  else if sub.channel = "webhook" then (s, .returned (deliverWebhook 3 reply.webhook))
  else (s, .returned false)

def failedDelivery (signal : S) (sub : Subscription) (error : String) : FailedDelivery S where
  signal := signal
  subscriberId := sub.id
  channel := sub.channel
  endpoint := sub.endpoint
  error := error

/-- A failed attempt is counted and enqueued. -/
def State.fail (s : State S) (signal : S) (sub : Subscription) (error : String) (now : ℚ) :
    State S :=
  let s := s.dlq config (.enqueue (failedDelivery signal sub error) now)
  { s with
    metrics := { s.metrics with
      deliveriesFailed := s.metrics.deliveriesFailed + 1
      dlqEnqueued := s.metrics.dlqEnqueued + 1 }
    attempts := s.attempts ++ [⟨signal, sub, some error⟩] }

def State.succeed (s : State S) (signal : S) (sub : Subscription) : State S :=
  { s with
    metrics := { s.metrics with deliveriesSucceeded := s.metrics.deliveriesSucceeded + 1 }
    attempts := s.attempts ++ [⟨signal, sub, none⟩] }

def State.attempt (s : State S) : State S :=
  { s with metrics := { s.metrics with
    deliveriesAttempted := s.metrics.deliveriesAttempted + 1 } }

/-- One subscriber of `deliver_signal`. -/
def deliverTo (signal : S) (s : State S) (row : Subscription × Reply) : State S :=
  let (s, result) := deliver config s.attempt row.1 row.2
  match result with
  | .returned true => s.succeed signal row.1
  | .returned false =>
    s.fail config signal row.1 "delivery_returned_false" row.2.enqueued
  | .raised error => s.fail config signal row.1 error row.2.enqueued

variable (fields : SignalFields S)

/-- The subscribers of a signal, each with how the attempt goes. -/
def subscribers (signal : S) (rows : List (Subscription × Reply)) :
    List (Subscription × Reply) :=
  rows.filter fun row => row.1.matches (fields.strategyName signal) (fields.instrument signal)

def deliverSignal (s : State S) (signal : S) (rows : List (Subscription × Reply)) : State S :=
  (subscribers fields signal rows).foldl (deliverTo config signal) s

/-- What a worker may ask of the queue. -/
inductive WorkerOp where
  | dequeueBatch (batchSize : ℤ) (now : ℚ)
  | ack (uid : ℕ)
  | nack (uid : ℕ) (now : ℚ)

def WorkerOp.op : WorkerOp → Op S
  | .dequeueBatch batchSize now => .dequeueBatch batchSize now
  | .ack uid => .ack uid
  | .nack uid now => .nack uid now

/-- A message of the listener, unless it is no JSON, with the rows of the subscriptions, unless
the query raises; or what a worker asks of the queue. -/
inductive Event (S : Type*) where
  | message (signal : Option S) (rows : Option (List (Subscription × Reply)))
  | worker (op : WorkerOp)

/-- The signal and the subscribers of a message. -/
def Event.delivery : Event S → Option (S × List (Subscription × Reply))
  | .message (some signal) (some rows) => some (signal, subscribers fields signal rows)
  | _ => none

/-- One message of `listen_and_deliver`, which keeps every exception to itself. -/
def step (s : State S) : Event S → State S
  | .message (some signal) (some rows) => deliverSignal config fields s signal rows
  | .message _ _ => s
  | .worker op => s.dlq config op.op

def run (events : List (Event S)) : State S := events.foldl (step config fields) {}

/-! ### Every attempt is accounted for -/

def Attempt.failure (a : Attempt S) : Option (FailedDelivery S) :=
  a.error.map (failedDelivery a.signal a.subscription)

/-- What a call of the queue adds to it. -/
def enqueuedBy : Op S → Option (FailedDelivery S)
  | .enqueue failed _ => some failed
  | _ => none

theorem enqueuedBy_op (op : WorkerOp) : enqueuedBy (S := S) op.op = none := by
  cases op <;> rfl

/-- The attempts so far, in the counters, in the queue and in the breaker. -/
structure Accounts (s : State S) : Prop where
  attempted : s.metrics.deliveriesAttempted = s.attempts.length
  succeeded : s.metrics.deliveriesSucceeded = s.attempts.countP (·.error.isNone)
  failed : s.metrics.deliveriesFailed = s.attempts.countP (·.error.isSome)
  dlqEnqueued : s.metrics.dlqEnqueued = s.metrics.deliveriesFailed
  enqueues : s.ops.filterMap enqueuedBy = s.attempts.filterMap Attempt.failure
  queue : s.queue = s.ops.foldl (Queue.step config.queue) {}
  breaker : s.breaker = after config.breaker s.calls

/-- What a delivery leaves to its caller. -/
structure Delivers (s s' : State S) : Prop where
  attempts : s'.attempts = s.attempts
  ops : s'.ops = s.ops
  queue : s'.queue = s.queue
  attempted : s'.metrics.deliveriesAttempted = s.metrics.deliveriesAttempted
  succeeded : s'.metrics.deliveriesSucceeded = s.metrics.deliveriesSucceeded
  failed : s'.metrics.deliveriesFailed = s.metrics.deliveriesFailed
  dlqEnqueued : s'.metrics.dlqEnqueued = s.metrics.dlqEnqueued
  breaker : s.breaker = after config.breaker s.calls →
    s'.breaker = after config.breaker s'.calls

theorem breaker_call {s : State S} (h : s.breaker = after config.breaker s.calls) (c : Call) :
    (s.call config c).breaker = after config.breaker (s.call config c).calls := by
  rw [State.call, after, List.foldl_append, h]
  rfl

theorem delivers_refl (s : State S) : Delivers config s s :=
  ⟨rfl, rfl, rfl, rfl, rfl, rfl, rfl, id⟩

theorem delivers_deliver (s : State S) (sub : Subscription) (reply : Reply) :
    Delivers config s (deliver config s sub reply).1 := by
  rw [deliver]
  split_ifs
  · rw [deliverToTelegram]
    split_ifs with htoken
    · exact delivers_refl config s
    · have hasked := fun h => breaker_call config (s := s) h (.allowRequest reply.requested)
      dsimp only
      split_ifs
      · exact ⟨rfl, rfl, rfl, rfl, rfl, rfl, rfl, hasked⟩
      · cases reply.telegram with
        | raises error => exact ⟨rfl, rfl, rfl, rfl, rfl, rfl, rfl, hasked⟩
        | http http =>
          dsimp only
          split_ifs <;>
            exact ⟨rfl, rfl, rfl, rfl, rfl, rfl, rfl, fun h => breaker_call config (hasked h) _⟩
  · exact delivers_refl config s
  · exact delivers_refl config s

theorem accounts_dlq {s : State S} (h : Accounts config s) (op : WorkerOp) :
    Accounts config (s.dlq config op.op) where
  attempted := h.attempted
  succeeded := h.succeeded
  failed := h.failed
  dlqEnqueued := h.dlqEnqueued
  enqueues := by
    have hnone : [op.op].filterMap (enqueuedBy (S := S)) = [] := by
      simp [enqueuedBy_op]
    rw [State.dlq, List.filterMap_append, hnone, List.append_nil]
    exact h.enqueues
  queue := by
    rw [State.dlq, List.foldl_append, h.queue]
    rfl
  breaker := h.breaker

section
variable {config}

theorem accounts_fail {s s' : State S} (h : Accounts config s)
    (hd : Delivers config s.attempt s') (signal : S) (sub : Subscription) (error : String)
    (now : ℚ) : Accounts config (s'.fail config signal sub error now) where
  attempted := by
    simp [State.fail, State.dlq, hd.attempted, hd.attempts, State.attempt, h.attempted]
  succeeded := by
    simp [State.fail, State.dlq, hd.succeeded, hd.attempts, State.attempt, h.succeeded]
  failed := by
    simp [State.fail, State.dlq, hd.failed, hd.attempts, State.attempt, h.failed]
  dlqEnqueued := by
    simp [State.fail, State.dlq, hd.failed, hd.dlqEnqueued, State.attempt, h.dlqEnqueued]
  enqueues := by
    simp [State.fail, State.dlq, hd.ops, hd.attempts, State.attempt, h.enqueues, enqueuedBy,
      Attempt.failure]
  queue := by
    simp [State.fail, State.dlq, hd.ops, hd.queue, State.attempt, h.queue]
  breaker := hd.breaker h.breaker

theorem accounts_succeed {s s' : State S} (h : Accounts config s)
    (hd : Delivers config s.attempt s') (signal : S) (sub : Subscription) :
    Accounts config (s'.succeed signal sub) where
  attempted := by
    simp [State.succeed, hd.attempted, hd.attempts, State.attempt, h.attempted]
  succeeded := by
    simp [State.succeed, hd.succeeded, hd.attempts, State.attempt, h.succeeded]
  failed := by
    simp [State.succeed, hd.failed, hd.attempts, State.attempt, h.failed]
  dlqEnqueued := by
    simp [State.succeed, hd.failed, hd.dlqEnqueued, State.attempt, h.dlqEnqueued]
  enqueues := by
    simp [State.succeed, hd.ops, hd.attempts, State.attempt, h.enqueues, Attempt.failure]
  queue := by
    simp [State.succeed, hd.ops, hd.queue, State.attempt, h.queue]
  breaker := hd.breaker h.breaker

/-- An attempt is accounted for, whatever it comes to. -/
theorem accounts_deliverTo {s : State S} (h : Accounts config s) (signal : S)
    (row : Subscription × Reply) :
    Accounts config (deliverTo config signal s row) ∧
      ∃ error, (deliverTo config signal s row).attempts =
        s.attempts ++ [⟨signal, row.1, error⟩] := by
  have hd := delivers_deliver config s.attempt row.1 row.2
  rw [deliverTo]
  generalize deliver config s.attempt row.1 row.2 = delivered at hd ⊢
  rcases delivered with ⟨s', (_ | _) | error⟩
  · exact ⟨accounts_fail h hd signal row.1 _ _, _, congrArg (· ++ _) hd.attempts⟩
  · exact ⟨accounts_succeed h hd signal row.1, _, congrArg (· ++ _) hd.attempts⟩
  · exact ⟨accounts_fail h hd signal row.1 error _, _, congrArg (· ++ _) hd.attempts⟩

theorem accounts_deliverSignal {s : State S} (h : Accounts config s) (signal : S)
    (rows : List (Subscription × Reply)) :
    Accounts config (rows.foldl (deliverTo config signal) s) ∧
      (rows.foldl (deliverTo config signal) s).attempts.map (fun a => (a.signal, a.subscription)) =
        s.attempts.map (fun a => (a.signal, a.subscription)) ++
          rows.map fun row => (signal, row.1) := by
  induction rows generalizing s with
  | nil => exact ⟨h, (List.append_nil _).symm⟩
  | cons row rest ih =>
    obtain ⟨hone, error, hattempts⟩ := accounts_deliverTo h signal row
    obtain ⟨hrest, hmap⟩ := ih hone
    refine ⟨hrest, ?_⟩
    rw [List.foldl_cons, hmap, hattempts]
    simp

end

/-- The attempts that a message should lead to. -/
def Event.due (event : Event S) : List (S × Subscription) :=
  match event.delivery fields with
  | none => []
  | some (signal, rows) => rows.map fun row => (signal, row.1)

theorem step_accounts {s : State S} (h : Accounts config s) (event : Event S) :
    Accounts config (step config fields s event) ∧
      (step config fields s event).attempts.map (fun a => (a.signal, a.subscription)) =
        s.attempts.map (fun a => (a.signal, a.subscription)) ++ event.due fields := by
  cases event with
  | worker op => exact ⟨accounts_dlq config h op, (List.append_nil _).symm⟩
  | message signal rows =>
    cases signal with
    | none => exact ⟨h, (List.append_nil _).symm⟩
    | some signal =>
      cases rows with
      | none => exact ⟨h, (List.append_nil _).symm⟩
      | some rows => exact accounts_deliverSignal h signal (subscribers fields signal rows)

theorem accounts_run (events : List (Event S)) :
    Accounts config (run config fields events) := by
  apply List.foldlRecOn
  · exact ⟨rfl, rfl, rfl, rfl, rfl, rfl, rfl⟩
  · exact fun s hs event _ => (step_accounts config fields hs event).1

theorem length_ids_step (queue : Queue S) (op : Op S) :
    (queue.step config.queue op).ids.length =
      queue.ids.length + (enqueuedBy op).toList.length := by
  have hanswer : ∀ uid (finish : Queue S → Delivery S → Queue S),
      (∀ queue delivery, (finish queue delivery).ids = queue.ids) →
        (queue.answer uid finish).ids = queue.ids := by
    intro uid finish hfinish
    rw [Queue.answer]
    cases queue.ids[uid]? with
    | none => rfl
    | some dlqId =>
      dsimp only
      cases queue.processing dlqId with
      | none => rfl
      | some delivery => exact hfinish _ _
  cases op with
  | enqueue failed now => simp [Queue.step, Queue.enqueue, enqueuedBy]
  | dequeueBatch batchSize now =>
    obtain ⟨-, dropped, hchecked⟩ := checked_dequeueBatch queue batchSize now
    exact congrArg List.length hchecked.ids
  | ack uid => exact congrArg List.length (hanswer uid _ fun _ _ => rfl)
  | nack uid now =>
    refine congrArg List.length (hanswer uid _ fun queue delivery => ?_)
    rw [Queue.retry]
    split_ifs <;> rfl

theorem length_ids_foldl (ops : List (Op S)) :
    (ops.foldl (Queue.step config.queue) {}).ids.length =
      (ops.filterMap enqueuedBy).length := by
  induction ops using List.reverseRecOn with
  | nil => rfl
  | append_singleton ops op ih =>
    rw [List.foldl_append, List.filterMap_append, List.length_append, ← ih]
    have hone : ([op].filterMap enqueuedBy).length = (enqueuedBy op).toList.length := by
      cases h : enqueuedBy op <;> simp [h]
    rw [hone]
    exact length_ids_step config _ op

theorem conserved_foldl (ops : List (Op S))
    (hids : ∀ earlier op, earlier ++ [op] <+: ops →
      (earlier.foldl (Queue.step config.queue) {}).IdsApart op) :
    (ops.foldl (Queue.step config.queue) {}).Inv config.queue ∧
      (ops.foldl (Queue.step config.queue) {}).Conserved := by
  induction ops using List.reverseRecOn with
  | nil => exact ⟨by constructor <;> simp [Queue.RetriesCounted, Queue.places, Queue.processingOf],
      nofun⟩
  | append_singleton ops op ih =>
    obtain ⟨hinv, hconserved⟩ :=
      ih fun earlier op hpre => hids earlier op (hpre.trans (List.prefix_append ops _))
    rw [List.foldl_append]
    exact ⟨inv_step hinv op,
      ((conserved_step_iff hinv hconserved op).mpr (hids ops op List.prefix_rfl)).1⟩

/-- One failure opens the breaker. -/
def touchy : Config where
  telegramBotToken := "token"
  breaker := { failureThreshold := 1 }
  queue := {}

def nameless : SignalFields Unit := ⟨fun _ => none, fun _ => none⟩

def chat (id : String) : Subscription := ⟨id, "telegram", id, [], [], true⟩

def serverError (requested : ℚ) : Reply :=
  ⟨requested, requested + 1, requested + 2, .http (.status 500), fun _ => .status 500⟩

/-- A signal for two chats, of which the second is not asked, and one after the timeout. -/
def twoSignals : List (Event Unit) :=
  [.message (some ()) (some [(chat "a", serverError 1), (chat "b", serverError 4)]),
    .message (some ()) (some [(chat "a", serverError 70)])]

/-- The times of an attempt, in order, if it is one at Telegram. -/
def timesOf (row : Subscription × Reply) : List ℚ :=
  if row.1.channel = "telegram" then [row.2.requested, row.2.recorded] else []

def Event.times (event : Event S) : List ℚ :=
  match event.delivery fields with
  | none => []
  | some (_, rows) => rows.flatMap timesOf

/-- Telegram does not take the signal of this attempt. -/
def Fails (row : Subscription × Reply) : Prop :=
  row.1.channel = "telegram" → ∀ http, row.2.telegram = .http http → TelegramReply.ok http = false

def Event.Down (event : Event S) : Prop :=
  ∀ signal rows, event.delivery fields = some (signal, rows) → ∀ row ∈ rows, Fails row

/-- The breaker at `now`, with `sent` requests let through since `began` and none of them
answered: each but the first few has waited for the timeout of the one before. -/
structure Outage (b : Breaker) (sent : ℕ) (began now : ℚ) : Prop where
  past : began ≤ now
  closed : b.state = .closed → sent ≤ b.failureCount ∧ b.BelowThreshold config.breaker
  opened : b.state = .opened → sent = 0 ∨
    config.breaker.recoveryTimeout * (sent - config.breaker.failureThreshold) ≤
      b.lastFailureTime - began ∧ b.lastFailureTime ≤ now
  halfOpen : b.state = .halfOpen → sent = 0 ∨
    config.breaker.recoveryTimeout * (sent + 1 - config.breaker.failureThreshold) ≤ now - began

section
variable {config} {b : Breaker} {sent : ℕ} {began now later : ℚ}

theorem Outage.mono (h : Outage config b sent began now) (hlater : now ≤ later) :
    Outage config b sent began later where
  past := h.past.trans hlater
  closed := h.closed
  opened hstate := (h.opened hstate).imp_right fun ⟨hsent, hlast⟩ => ⟨hsent, hlast.trans hlater⟩
  halfOpen hstate := (h.halfOpen hstate).imp_right fun hsent => by linarith

/-- What is asked does not count as sent yet. A breaker that lets it through is not open. -/
theorem Outage.request (h : Outage config b sent began now) (asked : ℚ) (hasked : now ≤ asked) :
    Outage config (b.allowRequest config.breaker asked).2 sent began asked ∧
      ((b.allowRequest config.breaker asked).1 = true →
        (b.allowRequest config.breaker asked).2.state ≠ .opened) := by
  have hlater := h.mono hasked
  cases hstate : b.state with
  | closed =>
    rw [allowRequest_closed hstate]
    exact ⟨hlater, fun _ hopened => by cases hstate.symm.trans hopened⟩
  | halfOpen =>
    rw [allowRequest_halfOpen hstate]
    split_ifs
    · refine ⟨⟨hlater.past, ?_, ?_, hlater.halfOpen⟩, fun _ hopened => ?_⟩
      · exact fun hclosed => by cases hstate.symm.trans hclosed
      · exact fun hopened => by cases hstate.symm.trans hopened
      · cases hstate.symm.trans hopened
    · exact ⟨hlater, nofun⟩
  | opened =>
    rcases allowRequest_opened_cases config.breaker hstate asked with
      ⟨-, hanswer⟩ | ⟨helapsed, hanswer⟩
    · rw [hanswer]
      exact ⟨hlater, nofun⟩
    · have hprobe : Outage config { b with state := .halfOpen, halfOpenCalls := 0 } sent began
          asked := by
        refine ⟨hlater.past, nofun, nofun, fun _ => (h.opened hstate).imp_right ?_⟩
        rintro ⟨hsent, -⟩
        linarith
      rw [hanswer, allowRequest_halfOpen rfl]
      split_ifs
      · exact ⟨⟨hprobe.past, nofun, nofun, hprobe.halfOpen⟩, fun _ => nofun⟩
      · exact ⟨hprobe, nofun⟩

variable (config) in
theorem recordFailure_cases (h : b.state ≠ .opened) (recorded : ℚ) :
    (b.recordFailure config.breaker recorded).state = .opened ∧
        (b.recordFailure config.breaker recorded).lastFailureTime = recorded ∨
      (b.recordFailure config.breaker recorded).state = .closed ∧
        (b.recordFailure config.breaker recorded).failureCount = b.failureCount + 1 := by
  rw [Breaker.recordFailure]
  cases hstate : b.state with
  | opened => exact absurd hstate h
  | halfOpen => exact Or.inl ⟨rfl, rfl⟩
  | closed =>
    simp only [reduceCtorEq, if_false]
    split_ifs
    · exact Or.inl ⟨rfl, rfl⟩
    · exact Or.inr ⟨rfl, rfl⟩

theorem Outage.failure (hthreshold : 0 < config.breaker.failureThreshold)
    (htimeout : 0 ≤ config.breaker.recoveryTimeout) (h : Outage config b sent began now)
    (hstate : b.state ≠ .opened) (recorded : ℚ) (hrecorded : now ≤ recorded) :
    Outage config (b.recordFailure config.breaker recorded) (sent + 1) began recorded := by
  have hpast : began ≤ recorded := h.past.trans hrecorded
  -- the first requests are below the threshold, the others have waited
  have hfirst : (sent : ℤ) + 1 ≤ config.breaker.failureThreshold →
      config.breaker.recoveryTimeout * ((sent + 1 : ℕ) - config.breaker.failureThreshold) ≤
        recorded - began := by
    intro hfew
    have hcast : (sent : ℚ) + 1 ≤ config.breaker.failureThreshold := by exact_mod_cast hfew
    refine (mul_nonpos_of_nonneg_of_nonpos htimeout ?_).trans (sub_nonneg.mpr hpast)
    push_cast
    linarith
  have hsent : config.breaker.recoveryTimeout *
      ((sent + 1 : ℕ) - config.breaker.failureThreshold) ≤ recorded - began := by
    cases hcase : b.state with
    | opened => exact absurd hcase hstate
    | closed =>
      obtain ⟨hcount, hbelow⟩ := h.closed hcase
      have hless := hbelow hcase
      exact hfirst (by omega)
    | halfOpen =>
      rcases h.halfOpen hcase with hnone | hwaited
      · exact hfirst (by omega)
      · push_cast
        linarith
  rcases recordFailure_cases config hstate recorded with
    ⟨hopened, hlast⟩ | ⟨hclosed, hcount⟩
  · refine ⟨hpast, fun heq => ?_, fun _ => Or.inr ?_, fun heq => ?_⟩
    · cases hopened.symm.trans heq
    · rw [hlast]
      exact ⟨hsent, le_rfl⟩
    · cases hopened.symm.trans heq
  · refine ⟨hpast, fun _ => ⟨?_, ?_⟩, fun heq => ?_, fun heq => ?_⟩
    · rw [hcount]
      have hbefore : b.state = .closed := by
        cases hcase : b.state with
        | opened => exact absurd hcase hstate
        | closed => rfl
        | halfOpen => cases hclosed.symm.trans (recordFailure_halfOpen hcase recorded).1
      exact Nat.succ_le_succ (h.closed hbefore).1
    · cases hcase : b.state with
      | opened => exact absurd hcase hstate
      | closed =>
        exact belowThreshold_step hthreshold (h.closed hcase).2 (.recordFailure recorded)
      | halfOpen => cases hclosed.symm.trans (recordFailure_halfOpen hcase recorded).1
    · cases hclosed.symm.trans heq
    · cases hclosed.symm.trans heq

theorem Outage.sent_le (hthreshold : 0 < config.breaker.failureThreshold)
    (htimeout : 0 ≤ config.breaker.recoveryTimeout) (h : Outage config b sent began now) :
    config.breaker.recoveryTimeout * (sent - config.breaker.failureThreshold) ≤ now - began := by
  have hfew : (sent : ℤ) ≤ config.breaker.failureThreshold →
      config.breaker.recoveryTimeout * (sent - config.breaker.failureThreshold) ≤ now - began := by
    intro hfew
    have hcast : (sent : ℚ) ≤ config.breaker.failureThreshold := by exact_mod_cast hfew
    exact (mul_nonpos_of_nonneg_of_nonpos htimeout (by linarith)).trans (sub_nonneg.mpr h.past)
  cases hcase : b.state with
  | closed =>
    obtain ⟨hcount, hbelow⟩ := h.closed hcase
    have hless := hbelow hcase
    exact hfew (by omega)
  | opened =>
    rcases h.opened hcase with hnone | ⟨hsent, hlast⟩
    · exact hfew (by omega)
    · linarith
  | halfOpen =>
    rcases h.halfOpen hcase with hnone | hwaited
    · exact hfew (by omega)
    · linarith

/-- An attempt asks the breaker no earlier than `now`, and is answered no earlier. -/
theorem outage_deliver (hthreshold : 0 < config.breaker.failureThreshold)
    (htimeout : 0 ≤ config.breaker.recoveryTimeout) {s : State S}
    (h : Outage config s.breaker sent began now) {row : Subscription × Reply} (hfails : Fails row)
    {rest : List ℚ} (hclock : (now :: (timesOf row ++ rest)).Pairwise (· ≤ ·)) :
    ∃ more later, Outage config (deliver config s row.1 row.2).1.breaker (sent + more) began later ∧
      (deliver config s row.1 row.2).1.metrics.telegramApiCalls =
        s.metrics.telegramApiCalls + more ∧
      (later :: rest).Pairwise (· ≤ ·) := by
  have hskip : (now :: rest).Pairwise (· ≤ ·) :=
    hclock.sublist ((List.sublist_append_right _ _).cons_cons now)
  rw [deliver]
  split_ifs with htelegram
  · have htimes : timesOf row = [row.2.requested, row.2.recorded] := if_pos htelegram
    rw [htimes, List.cons_append, List.cons_append, List.nil_append] at hclock
    have hrequested : now ≤ row.2.requested := List.rel_of_pairwise_cons hclock List.mem_cons_self
    have hafter := hclock.of_cons
    have hrecorded : row.2.requested ≤ row.2.recorded :=
      List.rel_of_pairwise_cons hafter List.mem_cons_self
    have hlater : (row.2.requested :: rest).Pairwise (· ≤ ·) :=
      hafter.sublist ((List.sublist_cons_self _ _).cons_cons _)
    obtain ⟨hasked, hlets⟩ := h.request row.2.requested hrequested
    rw [deliverToTelegram]
    split_ifs with htoken
    · exact ⟨0, now, h, rfl, hskip⟩
    · dsimp only
      split_ifs with hdenied
      · exact ⟨0, _, hasked, rfl, hlater⟩
      · cases hreply : row.2.telegram with
        | raises error => exact ⟨0, _, hasked, rfl, hlater⟩
        | http http =>
          dsimp only
          rw [if_neg (by simp [hfails htelegram http hreply])]
          have hadmitted := hlets (by simpa [Breaker.admits] using hdenied)
          exact ⟨1, row.2.recorded,
            hasked.failure hthreshold htimeout hadmitted row.2.recorded hrecorded, rfl,
            hafter.of_cons⟩
  · exact ⟨0, now, h, rfl, hskip⟩
  · exact ⟨0, now, h, rfl, hskip⟩

variable (config) in
theorem deliverTo_breaker (signal : S) (s : State S) (row : Subscription × Reply) :
    (deliverTo config signal s row).breaker = (deliver config s.attempt row.1 row.2).1.breaker ∧
      (deliverTo config signal s row).metrics.telegramApiCalls =
        (deliver config s.attempt row.1 row.2).1.metrics.telegramApiCalls := by
  rw [deliverTo]
  generalize deliver config s.attempt row.1 row.2 = delivered
  rcases delivered with ⟨s', (_ | _) | error⟩
  all_goals exact ⟨rfl, rfl⟩

theorem outage_rows (hthreshold : 0 < config.breaker.failureThreshold)
    (htimeout : 0 ≤ config.breaker.recoveryTimeout) {s : State S}
    (h : Outage config s.breaker sent began now) (signal : S) {rows : List (Subscription × Reply)}
    (hfails : ∀ row ∈ rows, Fails row) {rest : List ℚ}
    (hclock : (now :: (rows.flatMap timesOf ++ rest)).Pairwise (· ≤ ·)) :
    ∃ more later,
      Outage config (rows.foldl (deliverTo config signal) s).breaker (sent + more) began later ∧
      (rows.foldl (deliverTo config signal) s).metrics.telegramApiCalls =
        s.metrics.telegramApiCalls + more ∧
      (later :: rest).Pairwise (· ≤ ·) := by
  induction rows generalizing s sent now with
  | nil => exact ⟨0, now, h, rfl, hclock⟩
  | cons row rows ih =>
    rw [List.forall_mem_cons] at hfails
    rw [List.flatMap_cons, List.append_assoc] at hclock
    obtain ⟨first, next, hone, hcalls, hnext⟩ :=
      outage_deliver hthreshold htimeout (s := s.attempt) h hfails.1 hclock
    obtain ⟨hbreaker, hmetrics⟩ := deliverTo_breaker config signal s row
    rw [← hbreaker] at hone
    obtain ⟨more, later, hall, hrest, hlater⟩ := ih hone hfails.2 hnext
    refine ⟨first + more, later, ?_, ?_, hlater⟩
    · rw [← add_assoc]
      exact hall
    · rw [List.foldl_cons, hrest, hmetrics, hcalls, ← add_assoc]
      rfl

end

theorem outage_events (hthreshold : 0 < config.breaker.failureThreshold)
    (htimeout : 0 ≤ config.breaker.recoveryTimeout) {s : State S} {sent : ℕ} {began now : ℚ}
    (h : Outage config s.breaker sent began now) {events : List (Event S)}
    (hdown : ∀ event ∈ events, event.Down fields) {rest : List ℚ}
    (hclock : (now :: (events.flatMap (Event.times fields) ++ rest)).Pairwise (· ≤ ·)) :
    ∃ more later, Outage config (events.foldl (step config fields) s).breaker (sent + more) began
        later ∧
      (events.foldl (step config fields) s).metrics.telegramApiCalls =
        s.metrics.telegramApiCalls + more ∧
      (later :: rest).Pairwise (· ≤ ·) := by
  induction events generalizing s sent now with
  | nil => exact ⟨0, now, h, rfl, hclock⟩
  | cons event events ih =>
    rw [List.forall_mem_cons] at hdown
    rw [List.flatMap_cons, List.append_assoc] at hclock
    cases event with
    | worker op => exact ih (s := s.dlq config op.op) h hdown.2 hclock
    | message signal rows =>
      cases signal with
      | none => exact ih h hdown.2 hclock
      | some signal =>
        cases rows with
        | none => exact ih h hdown.2 hclock
        | some rows =>
          obtain ⟨first, next, hone, hcalls, hnext⟩ := outage_rows hthreshold htimeout h signal
            (fun row hrow => hdown.1 signal (subscribers fields signal rows) rfl row hrow) hclock
          obtain ⟨more, later, hall, hrest, hlater⟩ := ih hone hdown.2 hnext
          refine ⟨first + more, later, ?_, ?_, hlater⟩
          · rw [← add_assoc]
            exact hall
          · rw [← add_assoc, ← hcalls]
            exact hrest

theorem outage_begins (hthreshold : 0 < config.breaker.failureThreshold)
    (before : List (Event S)) (began : ℚ) :
    Outage config (run config fields before).breaker 0 began began where
  past := le_rfl
  closed hclosed := by
    refine ⟨Nat.zero_le _, ?_⟩
    rw [(accounts_run config fields before).breaker, after]
    apply List.foldlRecOn
    · exact fun _ => hthreshold
    · exact fun b hb c _ => belowThreshold_step hthreshold hb c
  opened _ := Or.inl rfl
  halfOpen _ := Or.inl rfl

/-- While Telegram takes no signal, whatever came before and however many signals come, it is
asked at most once in each recovery timeout after the first few requests. -/
theorem outage_calls_le (hthreshold : 0 < config.breaker.failureThreshold)
    (htimeout : 0 ≤ config.breaker.recoveryTimeout) (before outage : List (Event S))
    (hdown : ∀ event ∈ outage, event.Down fields) (began ended : ℚ)
    (hclock : (began :: (outage.flatMap (Event.times fields) ++ [ended])).Pairwise (· ≤ ·)) :
    config.breaker.recoveryTimeout *
        ((run config fields (before ++ outage)).metrics.telegramApiCalls -
          (run config fields before).metrics.telegramApiCalls -
          config.breaker.failureThreshold) ≤ ended - began := by
  obtain ⟨sent, later, houtage, hcalls, hended⟩ := outage_events config fields hthreshold htimeout
    (outage_begins config fields hthreshold before began) hdown hclock
  have hlater : later ≤ ended := List.rel_of_pairwise_cons hended List.mem_cons_self
  have hsent := houtage.sent_le hthreshold htimeout
  have hcast : ((run config fields (before ++ outage)).metrics.telegramApiCalls : ℚ) =
      (run config fields before).metrics.telegramApiCalls + sent := by
    rw [run, List.foldl_append]
    exact_mod_cast hcalls
  rw [hcast, add_sub_cancel_left]
  rw [zero_add] at hsent
  exact hsent.trans (sub_le_sub_right hlater began)

theorem twoSignals_replies : ∀ event ∈ twoSignals, ∀ signal rows,
    event.delivery nameless = some (signal, rows) → ∀ row ∈ rows,
      row.2.telegram = .http (.status 500) := by
  have hrows : ∀ event ∈ twoSignals, ∀ d ∈ (event.delivery nameless).toList, ∀ row ∈ d.2,
      ∃ requested, row.2 = serverError requested := by
    simp only [twoSignals, Event.delivery, subscribers, List.mem_cons, List.not_mem_nil,
      or_false, forall_eq_or_imp, forall_eq, Option.toList_some, List.mem_filter]
    refine ⟨?_, ?_⟩
    · rintro row ⟨rfl | rfl, -⟩
      · exact ⟨1, rfl⟩
      · exact ⟨4, rfl⟩
    · rintro row ⟨rfl, -⟩
      exact ⟨70, rfl⟩
  intro event hevent signal rows hdelivery row hrow
  obtain ⟨requested, hreply⟩ :=
    hrows event hevent (signal, rows) (by rw [hdelivery]; exact List.mem_singleton_self _) row hrow
  rw [hreply]
  rfl

theorem twoSignals_down : ∀ event ∈ twoSignals, event.Down nameless := by
  intro event hevent signal rows hdelivery row hrow _ http hhttp
  rw [twoSignals_replies event hevent signal rows hdelivery row hrow] at hhttp
  cases hhttp
  rfl

theorem twoSignals_calls_le :
    (60 : ℚ) * ((run touchy nameless ([] ++ twoSignals)).metrics.telegramApiCalls -
        (run touchy nameless []).metrics.telegramApiCalls - 1) ≤ 71 - 1 :=
  outage_calls_le touchy nameless (by decide) (by norm_num [touchy]) [] twoSignals
    twoSignals_down 1 71 (by decide +kernel)

/-- No attempt at Telegram of the message raises. -/
def Event.NoneRaises (event : Event S) : Prop :=
  ∀ signal rows, event.delivery fields = some (signal, rows) → ∀ row ∈ rows,
    row.1.channel = "telegram" → ∃ http, row.2.telegram = .http http

section
variable {config}

theorem recordSuccess_state_ne (b : Breaker) : b.recordSuccess.state ≠ .halfOpen := by
  rw [Breaker.recordSuccess]
  cases b.state <;> simp

theorem recordFailure_state_ne (b : Breaker) (now : ℚ) :
    (b.recordFailure config.breaker now).state ≠ .halfOpen := by
  rw [Breaker.recordFailure]
  cases b.state with
  | closed =>
    simp only [reduceCtorEq, if_false]
    split_ifs
    · simp
    · simp
  | opened => simp
  | halfOpen => simp

/-- A breaker that is not half-open denies a request only if it stays open. -/
theorem state_ne_of_denied (hmax : 0 < config.breaker.halfOpenMaxCalls) {b : Breaker}
    (h : b.state ≠ .halfOpen) {now : ℚ} (hdenied : (b.allowRequest config.breaker now).1 = false) :
    (b.allowRequest config.breaker now).2.state ≠ .halfOpen := by
  cases hstate : b.state with
  | closed =>
    rw [allowRequest_closed hstate] at hdenied
    cases hdenied
  | halfOpen => exact absurd hstate h
  | opened =>
    by_cases helapsed : config.breaker.recoveryTimeout ≤ now - b.lastFailureTime
    · rw [allowRequest_opened_of_elapsed hstate helapsed, allowRequest_halfOpen rfl,
        if_pos (by simpa using hmax)] at hdenied
      cases hdenied
    · rw [allowRequest_opened_of_not_elapsed hstate helapsed]
      exact fun heq => by cases hstate.symm.trans heq

theorem state_ne_deliver (hmax : 0 < config.breaker.halfOpenMaxCalls) {s : State S}
    (h : s.breaker.state ≠ .halfOpen) {row : Subscription × Reply}
    (hraise : row.1.channel = "telegram" → ∃ http, row.2.telegram = .http http) :
    (deliver config s row.1 row.2).1.breaker.state ≠ .halfOpen := by
  rw [deliver]
  split_ifs with htelegram
  · obtain ⟨http, hhttp⟩ := hraise htelegram
    rw [deliverToTelegram, hhttp]
    dsimp only
    split_ifs with htoken hdenied
    · exact h
    · exact state_ne_of_denied hmax h ((Bool.not_eq_true' _).mp hdenied)
    · exact recordSuccess_state_ne _
    · exact recordFailure_state_ne _ _
  · exact h
  · exact h

theorem state_ne_deliverTo (hmax : 0 < config.breaker.halfOpenMaxCalls) {s : State S}
    (h : s.breaker.state ≠ .halfOpen) (signal : S) {row : Subscription × Reply}
    (hraise : row.1.channel = "telegram" → ∃ http, row.2.telegram = .http http) :
    (deliverTo config signal s row).breaker.state ≠ .halfOpen := by
  have hd := state_ne_deliver (s := s.attempt) hmax h hraise
  rw [deliverTo]
  generalize deliver config s.attempt row.1 row.2 = delivered at hd ⊢
  rcases delivered with ⟨s', (_ | _) | error⟩
  all_goals exact hd

end

/-- As long as no attempt raises between its request and its result, Telegram is always let
through again. -/
theorem telegram_recovers (hmax : 0 < config.breaker.halfOpenMaxCalls)
    (events : List (Event S)) (hraise : ∀ event ∈ events, event.NoneRaises fields) :
    (run config fields events).breaker.LetsThrough config.breaker := by
  have hstate : (run config fields events).breaker.state ≠ .halfOpen := by
    refine List.foldlRecOn (motive := fun s : State S => s.breaker.state ≠ .halfOpen) events
      (step config fields) ?_ ?_
    · exact nofun
    · intro s hs event hevent
      cases event with
      | worker op => exact hs
      | message signal rows =>
        cases signal with
        | none => exact hs
        | some signal =>
          cases rows with
          | none => exact hs
          | some rows =>
            refine List.foldlRecOn (motive := fun s : State S => s.breaker.state ≠ .halfOpen) _
              (deliverTo config signal) hs ?_
            intro s hs row hrow
            exact state_ne_deliverTo hmax hs signal (hraise _ hevent signal _ rfl row hrow)
  rw [letsThrough_iff_hasProbe]
  cases h : (run config fields events).breaker.state with
  | closed => simp [Breaker.HasProbe, h]
  | opened => simpa [Breaker.HasProbe, h] using hmax
  | halfOpen => exact absurd h hstate

theorem twoSignals_recovers :
    (run touchy nameless twoSignals).breaker.LetsThrough touchy.breaker := by
  apply telegram_recovers touchy nameless (by decide) twoSignals
  intro event hevent signal rows hdelivery row hrow _
  exact ⟨.status 500, twoSignals_replies event hevent signal rows hdelivery row hrow⟩

end TradeStream.SignalFanout
