import TradeStream.IntText
import TradeStream.JsonText
import TradeStream.RunSteps

/-! One connection to the agent stream: the events that it sends, their sequence numbers,
and the messages that are published while it lasts. -/
namespace TradeStream.AgentStream
open TradeStream.IntText TradeStream.JsonText TradeStream.RunSteps

def maxQueueSize : ℕ := 1000

def backpressureThresholdPct : ℚ := 80

def slowConsumerTimeoutSeconds : ℚ := 30

def heartbeatIntervalSeconds : ℚ := 30

abbrev Fields (N : Type*) := List (String × Json N)

inductive Event (N : Type*) where
  | sessionStart (timestamp : String)
  | heartbeat (timestamp : String)
  | backpressureWarning (queueSize : ℕ) (timestamp : String)
  | slowConsumer (timestamp : String)
  | message (fields : Fields N)

structure Sent (N : Type*) where
  sequence : ℕ
  event : Event N

inductive End where
  | removed
  | slowConsumer
  | raised
  deriving DecidableEq

/-- The session, the loop's own variables and what it has sent. -/
structure State (N : Type*) where
  sequence : ℕ
  lastHeartbeat : ℚ
  backpressureSince : Option ℚ
  sent : List (Sent N)
  ended : Option End

/-- The query and the header of a connection. -/
structure Request where
  sessionId : String
  agentName : Option String
  eventType : Option String
  lastEventId : Option String

/-- What a turn of the loop finds: the clock at its checks, the queue and the message. -/
structure Poll where
  sessionFound : Bool
  now : ℚ
  heartbeatTimestamp : String
  queueSize : ℕ
  checkedAt : ℚ
  warningTimestamp : String
  message : Option String

/-- What `json.loads` makes of a text: a value, a `JSONDecodeError`, or another exception
(as for an integer of more digits than Python converts). -/
inductive Loaded (N : Type*) where
  | value (data : Json N)
  | decodeError
  | raises

def eventId (sessionId : String) (sequence : ℕ) : String :=
  String.ofList (sessionId.toList ++ ':' :: Nat.toDigits 10 sequence)

/-- The sequence number in a `Last-Event-ID`. -/
def resumeAfter : Option String → ℤ
  | none => 0
  | some header =>
    if ':' ∈ header.toList then (int (header.toList.rtakeWhile (· ≠ ':'))).getD 0 else 0

section
variable {N : Type*}

def isText (text : String) : Option (Json N) → Bool
  | some (.str value) => value = text
  | _ => false

/-- What is handed to the response for an event. -/
structure Frame (N : Type*) where
  event : Json N
  id : String
  data : String

def Event.name : Event N → Json N
  | .sessionStart _ => .str "session_start"
  | .heartbeat _ => .str "heartbeat"
  | .backpressureWarning _ _ => .str "backpressure_warning"
  | .slowConsumer _ => .str "error"
  | .message fields => (fields.lookup "event_type").getD (.str "message")

def Event.data [NatCast N] (sessionId : String) : Event N → Json N
  | .sessionStart timestamp =>
    .obj [("session_id", .str sessionId), ("timestamp", .str timestamp)]
  | .heartbeat timestamp => .obj [("timestamp", .str timestamp)]
  | .backpressureWarning queueSize timestamp =>
    .obj [("queue_size", .num queueSize), ("queue_max", .num maxQueueSize),
      ("message", .str "Event queue nearing capacity"), ("timestamp", .str timestamp)]
  | .slowConsumer timestamp =>
    .obj [("error_code", .str "slow_consumer"),
      ("message", .str "Disconnected due to sustained backpressure"),
      ("timestamp", .str timestamp)]
  | .message fields => .obj fields

def Sent.frame [NatCast N] (numbers : NumberText N) (sessionId : String) (sent : Sent N) :
    Frame N :=
  ⟨sent.event.name, eventId sessionId sent.sequence, dumps numbers (sent.event.data sessionId)⟩

def nextSequence (state : State N) : State N := { state with sequence := state.sequence + 1 }

/-- An event is sent under the number that the session has come to. -/
def yieldEvent (event : Event N) (state : State N) : State N :=
  { state with sent := state.sent ++ [⟨state.sequence, event⟩] }

def start (startedAt : ℚ) (timestamp : String) : State N :=
  yieldEvent (.sessionStart timestamp) (nextSequence ⟨0, startedAt, none, [], none⟩)

def checkHeartbeat (poll : Poll) (state : State N) : State N :=
  if heartbeatIntervalSeconds ≤ poll.now - state.lastHeartbeat then
    yieldEvent (.heartbeat poll.heartbeatTimestamp)
      (nextSequence { state with lastHeartbeat := poll.now })
  else state

def checkBackpressure (poll : Poll) (state : State N) : State N :=
  if backpressureThresholdPct ≤ (poll.queueSize : ℚ) / maxQueueSize * 100 then
    match state.backpressureSince with
    | none =>
      yieldEvent (.backpressureWarning poll.queueSize poll.warningTimestamp)
        (nextSequence { state with backpressureSince := some poll.checkedAt })
    | some since =>
      if slowConsumerTimeoutSeconds < poll.checkedAt - since then
        { yieldEvent (.slowConsumer poll.warningTimestamp) (nextSequence state) with
          ended := some .slowConsumer }
      else state
  else { state with backpressureSince := none }

/-- `none` where the data has no `get`. -/
def passes (filter : Option String) (key : String) (data : Json N) : Option Bool :=
  match filter with
  | none => some true
  | some text =>
    if text = "" then some true
    else match data with
      | .obj fields => some (isText text (fields.lookup key))
      | _ => none

/-- The two filters, the second only after the first. -/
def passesBoth (request : Request) (data : Json N) : Option Bool :=
  (passes request.agentName "agent_name" data).bind fun first =>
    if first then passes request.eventType "event_type" data else some false

def raise (state : State N) : State N := { state with ended := some .raised }

/-- A message that has passed the filters. -/
def deliver (request : Request) (data : Json N) (state : State N) : State N :=
  -- the number is of this connection, the resume point of an earlier one
  if ((nextSequence state).sequence : ℤ) ≤ resumeAfter request.lastEventId then nextSequence state
  else match data with
    | .obj fields => yieldEvent (.message fields) (nextSequence state)
    | _ => raise (nextSequence state)

/-- Neither filter is given. -/
def Request.unfiltered (request : Request) : Prop :=
  (request.agentName = none ∨ request.agentName = some "") ∧
    (request.eventType = none ∨ request.eventType = some "")

instance (request : Request) : Decidable request.unfiltered :=
  inferInstanceAs (Decidable (_ ∧ _))

variable (loads : String → Loaded N) (request : Request)

def receive (text : String) (state : State N) : State N :=
  match loads text with
  | .decodeError => state
  | .raises => raise state
  | .value data =>
    match passesBoth request data with
    | none => raise state
    | some false => state
    | some true => deliver request data state

/-- The checks that stand before the message. -/
def check (poll : Poll) (state : State N) : State N :=
  checkBackpressure poll (checkHeartbeat poll state)

/-- A turn of the loop. -/
def step (state : State N) (poll : Poll) : State N :=
  if state.ended.isSome then state
  else if !poll.sessionFound then { state with ended := some .removed }
  else if (check poll state).ended.isSome then check poll state
  else match poll.message with
    | none => check poll state
    | some text => receive loads request text (check poll state)

/-- The messages among the events sent. -/
def State.messages (state : State N) : List (Fields N) :=
  state.sent.filterMap fun sent =>
    match sent.event with
    | .message fields => some fields
    | _ => none

def keeps (filter : Option String) (key : String) (fields : Fields N) : Bool :=
  filter = none || filter = some "" || filter.any fun text => isText text (fields.lookup key)

/-- The message of a turn, if it is an object that matches the filters. -/
def wanted (poll : Poll) : List (Fields N) :=
  match poll.message.map loads with
  | some (.value (.obj fields)) =>
    if keeps request.agentName "agent_name" fields && keeps request.eventType "event_type" fields
    then [fields] else []
  | _ => []

def run (startedAt : ℚ) (timestamp : String) (polls : List Poll) : State N :=
  polls.foldl (step loads request) (start startedAt timestamp)

/-- What is asked of a connection after its turns. -/
structure Delivers (state : State N) (polls : List Poll) : Prop where
  goesOn : state.ended = none
  messages : state.messages = polls.flatMap (wanted loads request)
  increasing : (state.sent.map Sent.sequence).Pairwise (· < ·)

/-- The session is neither removed nor disconnected. -/
def Connected (state : State N) : Prop :=
  state.ended ≠ some .removed ∧ state.ended ≠ some .slowConsumer

/-- The next number of the session is past the resume point for a message that is wanted.
A message that is JSON but no object is dropped before its `get`. -/
def Sendable (state : State N) (poll : Poll) : Prop :=
  match poll.message.map loads with
  | none => True
  | some .decodeError => True
  | some .raises => False
  | some (.value data) =>
    match data with
    | .obj fields => keeps request.agentName "agent_name" fields = true →
        keeps request.eventType "event_type" fields = true →
          resumeAfter request.lastEventId < ((check poll state).sequence : ℤ) + 1
    | _ => request.unfiltered ∧
        ((check poll state).sequence : ℤ) + 1 ≤ resumeAfter request.lastEventId

end

/-- The id of an event is read back as its number. -/
theorem resumeAfter_eventId (sessionId : String) {n : ℕ}
    (h : (Nat.toDigits 10 n).length ≤ maxDigits) :
    resumeAfter (some (eventId sessionId n)) = n := by
  have hdigits : ∀ d ∈ (Nat.toDigits 10 n).reverse, decide (d ≠ ':') = true := by
    intro d hd
    have hdigit : d.isDigit = true :=
      Nat.isDigit_of_mem_toDigits (by decide) (by decide) (List.mem_reverse.mp hd)
    rw [decide_eq_true_eq]
    rintro rfl
    exact absurd hdigit (by decide)
  have hlast : (eventId sessionId n).toList.rtakeWhile (· ≠ ':') = Nat.toDigits 10 n := by
    rw [eventId, String.toList_ofList, List.rtakeWhile, List.reverse_append, List.reverse_cons,
      List.append_assoc, List.takeWhile_append_of_pos hdigits]
    simp
  have hcolon : ':' ∈ (eventId sessionId n).toList := by simp [eventId]
  rw [resumeAfter, if_pos hcolon, hlast, int_toDigits h, Option.getD_some]

section
variable {N : Type*} {state : State N}

theorem messages_nextSequence : (nextSequence state).messages = state.messages := rfl

theorem messages_yieldEvent_message (fields : Fields N) :
    (yieldEvent (.message fields) state).messages = state.messages ++ [fields] := by
  simp [State.messages, yieldEvent]

theorem messages_checkHeartbeat (poll : Poll) :
    (checkHeartbeat poll state).messages = state.messages := by
  unfold checkHeartbeat
  split_ifs
  · simp [State.messages, yieldEvent, nextSequence]
  · rfl

theorem messages_checkBackpressure (poll : Poll) :
    (checkBackpressure poll state).messages = state.messages := by
  unfold checkBackpressure
  split_ifs
  · cases state.backpressureSince with
    | none => simp [State.messages, yieldEvent, nextSequence]
    | some since =>
      dsimp only
      split_ifs
      · simp [State.messages, yieldEvent, nextSequence]
      · rfl
  · rfl

theorem messages_check (poll : Poll) : (check poll state).messages = state.messages := by
  rw [check, messages_checkBackpressure, messages_checkHeartbeat]

/-- The sequence numbers of the events sent increase, up to that of the session. -/
structure Ordered (state : State N) : Prop where
  increasing : (state.sent.map Sent.sequence).Pairwise (· < ·)
  bounded : ∀ sent ∈ state.sent, sent.sequence ≤ state.sequence

theorem Ordered.nextSequence (h : Ordered state) : Ordered (nextSequence state) :=
  ⟨h.increasing, fun sent hsent => (h.bounded sent hsent).trans (Nat.le_succ _)⟩

theorem Ordered.yieldEvent (h : Ordered state) (event : Event N) :
    Ordered (yieldEvent event (AgentStream.nextSequence state)) where
  increasing := by
    simp only [AgentStream.yieldEvent, AgentStream.nextSequence, List.map_append, List.map_cons,
      List.map_nil, List.pairwise_append]
    refine ⟨h.increasing, List.pairwise_singleton _ _, ?_⟩
    intro n hn m hm
    -- the new event has the number after the last
    obtain ⟨sent, hsent, rfl⟩ := List.mem_map.mp hn
    rw [List.mem_singleton.mp hm]
    exact Nat.lt_succ_of_le (h.bounded sent hsent)
  bounded := by
    intro sent hsent
    rcases List.mem_append.mp hsent with hsent | hsent
    · exact (h.bounded sent hsent).trans (Nat.le_succ _)
    · rw [List.mem_singleton.mp hsent]
      exact le_rfl

theorem ordered_start (startedAt : ℚ) (timestamp : String) :
    Ordered (start startedAt timestamp : State N) :=
  Ordered.yieldEvent ⟨List.Pairwise.nil, by simp⟩ _

theorem Ordered.check (h : Ordered state) (poll : Poll) : Ordered (check poll state) := by
  have hheartbeat : Ordered (checkHeartbeat poll state) := by
    unfold checkHeartbeat
    split_ifs
    · apply Ordered.yieldEvent
      exact ⟨h.increasing, h.bounded⟩
    · exact h
  unfold AgentStream.check checkBackpressure
  split_ifs
  · cases (checkHeartbeat poll state).backpressureSince with
    | none =>
      apply Ordered.yieldEvent
      exact ⟨hheartbeat.increasing, hheartbeat.bounded⟩
    | some since =>
      dsimp only
      split_ifs
      -- the loop ends on the event that it has still sent
      · have hsent := hheartbeat.yieldEvent (.slowConsumer poll.warningTimestamp)
        exact ⟨hsent.increasing, hsent.bounded⟩
      · exact hheartbeat
  · exact ⟨hheartbeat.increasing, hheartbeat.bounded⟩

theorem Ordered.raise (h : Ordered state) : Ordered (raise state) := ⟨h.increasing, h.bounded⟩

variable {loads : String → Loaded N} {request : Request}

theorem Ordered.deliver (h : Ordered state) (data : Json N) :
    Ordered (deliver request data state) := by
  unfold AgentStream.deliver
  split_ifs
  · exact h.nextSequence
  · cases data with
    | obj fields => exact h.yieldEvent (.message fields)
    | _ => exact h.nextSequence.raise

theorem Ordered.receive (h : Ordered state) (text : String) :
    Ordered (receive loads request text state) := by
  unfold AgentStream.receive
  cases loads text with
  | decodeError => exact h
  | raises => exact h.raise
  | value data =>
    dsimp only
    cases passesBoth request data with
    | none => exact h.raise
    | some passed =>
      cases passed with
      | false => exact h
      | true => exact h.deliver data

theorem Ordered.step (h : Ordered state) (poll : Poll) :
    Ordered (step loads request state poll) := by
  unfold AgentStream.step
  split_ifs
  · exact h
  · exact ⟨h.increasing, h.bounded⟩
  · exact h.check poll
  · cases poll.message with
    | none => exact h.check poll
    | some text => exact (h.check poll).receive text

theorem passes_obj (filter : Option String) (key : String) (fields : Fields N) :
    passes filter key (.obj fields) = some (keeps filter key fields) := by
  unfold passes keeps
  cases filter with
  | none => rfl
  | some text => by_cases h : text = "" <;> simp [h]

theorem passesBoth_obj (fields : Fields N) :
    passesBoth request (.obj fields) =
      some (keeps request.agentName "agent_name" fields &&
        keeps request.eventType "event_type" fields) := by
  rw [passesBoth, passes_obj, passes_obj, Option.bind_some]
  cases keeps request.agentName "agent_name" fields <;> rfl

section
variable {data : Json N} (hdata : ∀ fields, data ≠ .obj fields)
include hdata

theorem passes_of_not_obj_iff (filter : Option String) (key : String) :
    passes filter key data = if filter = none ∨ filter = some "" then some true else none := by
  unfold passes
  cases filter with
  | none => simp
  | some text =>
    by_cases h : text = ""
    · simp [h]
    · cases data with
      | obj fields => exact absurd rfl (hdata fields)
      | _ => simp [h]

theorem passesBoth_of_not_obj :
    passesBoth request data = if request.unfiltered then some true else none := by
  simp only [passesBoth, passes_of_not_obj_iff hdata, Request.unfiltered]
  by_cases hagent : request.agentName = none ∨ request.agentName = some ""
  · simp [hagent]
  · simp [hagent]

/-- Data without a `get` is dropped for its number, or ends the loop. -/
theorem deliver_of_not_obj :
    deliver request data state =
      if ((nextSequence state).sequence : ℤ) ≤ resumeAfter request.lastEventId then
        nextSequence state
      else raise (nextSequence state) := by
  unfold deliver
  cases data with
  | obj fields => exact absurd rfl (hdata fields)
  | _ => rfl

end

variable {poll : Poll} {text : String}

theorem receive_obj {fields : Fields N} (hloads : loads text = .value (.obj fields)) :
    receive loads request text state =
      if keeps request.agentName "agent_name" fields = true ∧
          keeps request.eventType "event_type" fields = true then
        if (state.sequence : ℤ) + 1 ≤ resumeAfter request.lastEventId then nextSequence state
        else yieldEvent (.message fields) (nextSequence state)
      else state := by
  simp only [receive, hloads, passesBoth_obj, ← Bool.and_eq_true]
  cases keeps request.agentName "agent_name" fields &&
    keeps request.eventType "event_type" fields with
  | false => rfl
  | true => rfl

theorem receive_of_not_obj {data : Json N} (hloads : loads text = .value data)
    (hdata : ∀ fields, data ≠ .obj fields) :
    receive loads request text state =
      if request.unfiltered then
        if (state.sequence : ℤ) + 1 ≤ resumeAfter request.lastEventId then nextSequence state
        else raise (nextSequence state)
      else raise state := by
  simp only [receive, hloads, passesBoth_of_not_obj hdata]
  by_cases hunfiltered : request.unfiltered
  · simp only [hunfiltered, ↓reduceIte, deliver_of_not_obj hdata]
    rfl
  · simp [hunfiltered]

theorem wanted_obj {fields : Fields N} (hmessage : poll.message = some text)
    (hloads : loads text = .value (.obj fields)) :
    wanted loads request poll =
      if keeps request.agentName "agent_name" fields = true ∧
          keeps request.eventType "event_type" fields = true then [fields] else [] := by
  simp [wanted, hmessage, hloads]

theorem wanted_of_not_obj (hmessage : poll.message = some text)
    (hdata : ∀ fields, loads text ≠ .value (.obj fields)) : wanted loads request poll = [] := by
  simp only [wanted, hmessage, Option.map_some]
  split
  · next fields hfields => exact absurd (Option.some.inj hfields) (hdata fields)
  · rfl

theorem sendable_of_not_obj {data : Json N} (hmessage : poll.message = some text)
    (hloads : loads text = .value data) (hdata : ∀ fields, data ≠ .obj fields) :
    Sendable loads request state poll ↔ request.unfiltered ∧
      ((check poll state).sequence : ℤ) + 1 ≤ resumeAfter request.lastEventId := by
  simp only [Sendable, hmessage, Option.map_some, hloads]

/-- A message sends what is wanted of it, or nothing. -/
theorem messages_receive (hmessage : poll.message = some text) :
    (receive loads request text state).messages = state.messages ∨
      (receive loads request text state).messages =
        state.messages ++ wanted loads request poll := by
  by_cases hobj : ∃ fields, loads text = .value (.obj fields)
  · obtain ⟨fields, hloads⟩ := hobj
    rw [receive_obj hloads, wanted_obj hmessage hloads]
    split_ifs
    · exact .inl rfl
    · exact .inr (messages_yieldEvent_message fields)
    · exact .inl rfl
  · refine .inl ?_
    cases hloads : loads text with
    | decodeError => simp only [receive, hloads]
    | raises =>
      simp only [receive, hloads]
      rfl
    | value data =>
      have hdata : ∀ fields, data ≠ .obj fields := by
        rintro fields rfl
        exact hobj ⟨fields, hloads⟩
      rw [receive_of_not_obj hloads hdata]
      split_ifs <;> rfl

/-- Exactly what is sendable is sent. -/
theorem receive_iff (hmessage : poll.message = some text)
    (hgoesOn : (check poll state).ended = none) :
    ((receive loads request text (check poll state)).ended = none ∧
        (receive loads request text (check poll state)).messages =
          state.messages ++ wanted loads request poll) ↔
      Sendable loads request state poll := by
  have hmessages : (check poll state).messages = state.messages := messages_check poll
  cases hloads : loads text with
  | decodeError =>
    have hwanted : wanted loads request poll = [] := wanted_of_not_obj hmessage (by simp [hloads])
    simp [receive, Sendable, hmessage, hloads, hwanted, hgoesOn, hmessages]
  -- nothing is caught but a `JSONDecodeError`
  | raises =>
    simp [receive, Sendable, hmessage, hloads, raise]
  | value data =>
    by_cases hdata : ∀ fields, data ≠ .obj fields
    · have hwanted : wanted loads request poll = [] :=
        wanted_of_not_obj hmessage fun fields hfields => by
          rw [hloads] at hfields
          exact hdata fields (Loaded.value.inj hfields)
      rw [receive_of_not_obj hloads hdata, sendable_of_not_obj hmessage hloads hdata, hwanted,
        List.append_nil]
      -- what is no object goes by silently only where no filter asks it and its number is old
      split_ifs with hunfiltered hnumber
      · simp only [hunfiltered, hnumber, and_self, iff_true]
        exact ⟨hgoesOn, hmessages⟩
      · simp [hnumber, raise]
      · simp [hunfiltered, raise]
    · push Not at hdata
      obtain ⟨fields, rfl⟩ := hdata
      rw [receive_obj hloads, wanted_obj hmessage hloads]
      simp only [Sendable, hmessage, Option.map_some, hloads]
      split_ifs with hkeeps hnumber
      · -- the message is dropped
        have hne : state.messages ≠ state.messages ++ [fields] := by simp
        simp only [hkeeps, true_implies, not_lt.mpr hnumber, iff_false]
        rintro ⟨-, hdropped⟩
        rw [messages_nextSequence, hmessages] at hdropped
        exact hne hdropped
      · rw [messages_yieldEvent_message, messages_nextSequence, hmessages]
        simp only [hkeeps, true_implies, not_le.mp hnumber, iff_true, and_true]
        exact hgoesOn
      -- the filters do not want it
      · rw [hmessages, List.append_nil]
        refine iff_of_true ⟨hgoesOn, rfl⟩ ?_
        exact fun hagent htype => absurd ⟨hagent, htype⟩ hkeeps

theorem ended_check (hstate : state.ended = none) (poll : Poll) :
    (check poll state).ended = none ∨ (check poll state).ended = some .slowConsumer := by
  have hheartbeat : (checkHeartbeat poll state).ended = none := by
    unfold checkHeartbeat
    split_ifs
    · exact hstate
    · exact hstate
  unfold check checkBackpressure
  split_ifs
  · cases (checkHeartbeat poll state).backpressureSince with
    | none => exact .inl hheartbeat
    | some since =>
      dsimp only
      split_ifs
      · exact .inr rfl
      · exact .inl hheartbeat
  · exact .inl hheartbeat

theorem step_of_ended (h : state.ended ≠ none) (poll : Poll) :
    step loads request state poll = state := by
  rw [step, if_pos (Option.isSome_iff_ne_none.mpr h)]

/-- A turn after which the session is still connected comes to its message. -/
theorem step_of_connected (hstate : state.ended = none)
    (hconnected : Connected (step loads request state poll)) :
    (check poll state).ended = none ∧
      step loads request state poll =
        match poll.message with
        | none => check poll state
        | some text => receive loads request text (check poll state) := by
  unfold step at hconnected ⊢
  simp only [hstate, Option.isSome_none, Bool.false_eq_true, ↓reduceIte] at hconnected ⊢
  cases hfound : poll.sessionFound with
  | false => simp [hfound, Connected] at hconnected
  | true =>
    simp only [hfound, Bool.not_true, Bool.false_eq_true, ↓reduceIte] at hconnected ⊢
    -- the checks end a connection only as a slow consumer
    rcases ended_check hstate poll with hcheck | hcheck
    · exact ⟨hcheck, by simp [hcheck]⟩
    · simp [hcheck, Connected] at hconnected

theorem connected_of_step (h : Connected (step loads request state poll)) : Connected state := by
  by_cases hstate : state.ended = none
  · simp [Connected, hstate]
  · rwa [step_of_ended hstate] at h

theorem messages_step (hstate : state.ended = none)
    (hconnected : Connected (step loads request state poll)) :
    (step loads request state poll).messages = state.messages ∨
      (step loads request state poll).messages = state.messages ++ wanted loads request poll := by
  rw [(step_of_connected hstate hconnected).2]
  cases hmessage : poll.message with
  | none => exact .inl (messages_check poll)
  | some text =>
    have hcheck : (check poll state).messages = state.messages := messages_check poll
    rw [← hcheck]
    exact messages_receive hmessage

theorem step_iff (hstate : state.ended = none)
    (hconnected : Connected (step loads request state poll)) :
    ((step loads request state poll).ended = none ∧
        (step loads request state poll).messages =
          state.messages ++ wanted loads request poll) ↔
      Sendable loads request state poll := by
  obtain ⟨hcheck, hstep⟩ := step_of_connected hstate hconnected
  rw [hstep]
  cases hmessage : poll.message with
  | none => simp [hcheck, messages_check, wanted, Sendable, hmessage]
  | some text => exact receive_iff hmessage hcheck

end

section
variable {N : Type*} {loads : String → Loaded N} {request : Request} {startedAt : ℚ}
  {timestamp : String}

theorem run_append_singleton (polls : List Poll) (poll : Poll) :
    run loads request startedAt timestamp (polls ++ [poll]) =
      step loads request (run loads request startedAt timestamp polls) poll := by
  rw [run, List.foldl_append]
  rfl

theorem ordered_run (polls : List Poll) :
    Ordered (run loads request startedAt timestamp polls) := by
  apply List.foldlRecOn
  · exact ordered_start startedAt timestamp
  · exact fun state hstate poll _ => hstate.step poll

/-- No message is sent twice, and none that is not wanted. -/
theorem length_messages_run {polls : List Poll}
    (hconnected : Connected (run loads request startedAt timestamp polls)) :
    (run loads request startedAt timestamp polls).messages.length ≤
      (polls.flatMap (wanted loads request)).length := by
  induction polls using List.reverseRecOn with
  | nil => simp [run, start, State.messages, yieldEvent, nextSequence]
  | append_singleton polls poll ih =>
    rw [run_append_singleton] at hconnected ⊢
    have hpolls := ih (connected_of_step hconnected)
    rw [List.flatMap_append, List.flatMap_singleton, List.length_append]
    by_cases hstate : (run loads request startedAt timestamp polls).ended = none
    · rcases messages_step hstate hconnected with h | h
      · rw [h]
        omega
      · rw [h, List.length_append]
        omega
    · rw [step_of_ended hstate]
      omega

/-- While the session is connected, a connection sends all that it has to exactly as long
as every message that comes is sendable. -/
theorem delivers_iff_sendable (polls : List Poll)
    (hconnected : Connected (run loads request startedAt timestamp polls)) :
    Delivers loads request (run loads request startedAt timestamp polls) polls ↔
      ∀ earlier poll, earlier ++ [poll] <+: polls →
        Sendable loads request (run loads request startedAt timestamp earlier) poll := by
  induction polls using List.reverseRecOn with
  | nil =>
    refine iff_of_true ⟨rfl, ?_, (ordered_run []).increasing⟩ (by simp)
    simp [run, start, State.messages, yieldEvent, nextSequence]
  | append_singleton polls poll ih =>
    have hordered : Ordered (run loads request startedAt timestamp (polls ++ [poll])) :=
      ordered_run (polls ++ [poll])
    rw [run_append_singleton] at hconnected hordered ⊢
    have hbefore := connected_of_step hconnected
    rw [forall_step_append_singleton_iff, ← ih hbefore]
    by_cases hstate : (run loads request startedAt timestamp polls).ended = none
    · rw [← step_iff hstate hconnected]
      constructor
      -- the turns before have sent no more than was wanted, so that both parts are exact
      · rintro ⟨hgoesOn, hmessages, -⟩
        rw [List.flatMap_append, List.flatMap_singleton] at hmessages
        have hlength := length_messages_run hbefore
        have hsplit : (run loads request startedAt timestamp polls).messages =
              polls.flatMap (wanted loads request) ∧
            (step loads request (run loads request startedAt timestamp polls) poll).messages =
              (run loads request startedAt timestamp polls).messages ++
                wanted loads request poll := by
          rcases messages_step hstate hconnected with hsame | hsent
          · -- nothing was sent, so that nothing was wanted
            rw [hsame] at hmessages ⊢
            have hsum := congrArg List.length hmessages
            rw [List.length_append] at hsum
            have hnil : wanted loads request poll = [] := List.eq_nil_of_length_eq_zero (by omega)
            rw [hnil, List.append_nil] at hmessages ⊢
            exact ⟨hmessages, rfl⟩
          · rw [hsent] at hmessages
            exact ⟨List.append_cancel_right hmessages, hsent⟩
        exact ⟨⟨hstate, hsplit.1, (ordered_run polls).increasing⟩, hgoesOn, hsplit.2⟩
      · rintro ⟨hdelivers, hgoesOn, hmessages⟩
        refine ⟨hgoesOn, ?_, hordered.increasing⟩
        rw [hmessages, hdelivers.messages, List.flatMap_append, List.flatMap_singleton]
    · -- the loop has ended on a message
      rw [step_of_ended hstate]
      exact iff_of_false (fun h => hstate h.goesOn) fun h => hstate h.1.goesOn

end

/-- `json.loads` on texts with integers and without repeated keys. -/
def jsonLoads (text : String) : Loaded ℤ :=
  match JsonText.loads integerText text with
  | some data => .value data
  | none => .decodeError

/-- A turn with nothing to check and one message. -/
def pollOf (message : String) : Poll := ⟨true, 0, "", 0, 0, "", some message⟩

/-- A first connection. -/
def firstConnection : Request := ⟨"sess-b", none, none, none⟩

/-- One that resumes after the second event of an earlier session. -/
def resumed : Request := ⟨"sess-b", none, none, some "sess-a:2"⟩

theorem run_pollOf (request : Request) (message : String) :
    run jsonLoads request 0 "" [pollOf message] =
      receive jsonLoads request message ⟨1, 0, none, [⟨1, .sessionStart ""⟩], none⟩ := by
  have hcheck : check (pollOf message) (start 0 "" : State ℤ) =
      ⟨1, 0, none, [⟨1, .sessionStart ""⟩], none⟩ := by
    norm_num [check, checkHeartbeat, checkBackpressure, start, pollOf, yieldEvent, nextSequence,
      heartbeatIntervalSeconds, backpressureThresholdPct]
  rw [run, List.foldl_cons, List.foldl_nil, step, hcheck]
  rfl

theorem jsonLoads_braces : jsonLoads "{}" = .value (.obj []) := rfl

theorem firstConnection_delivers :
    Delivers jsonLoads firstConnection (run jsonLoads firstConnection 0 "" [pollOf "{}"])
      [pollOf "{}"] := by
  have hconnected : Connected (run jsonLoads firstConnection 0 "" [pollOf "{}"]) := by
    rw [run_pollOf, receive_obj jsonLoads_braces]
    simp [Connected, firstConnection, keeps, resumeAfter, yieldEvent, nextSequence]
  apply (delivers_iff_sendable _ hconnected).mpr
  apply (forall_step_append_singleton_iff (l := []) (i := pollOf "{}")
    (Q := fun earlier poll => Sendable jsonLoads firstConnection
      (run jsonLoads firstConnection 0 "" earlier) poll)).mpr
  refine ⟨by simp, ?_⟩
  simp only [Sendable, pollOf, Option.map_some, jsonLoads_braces]
  intro _ _
  simp only [firstConnection, resumeAfter]
  omega

/-- The new session drops what comes under the numbers of the old one, and a message that
is a number ends the stream. -/
theorem resumed_not_delivers :
    ¬ Delivers jsonLoads resumed (run jsonLoads resumed 0 "" [pollOf "{}"]) [pollOf "{}"] ∧
      ¬ Delivers jsonLoads firstConnection (run jsonLoads firstConnection 0 "" [pollOf "5"])
        [pollOf "5"] := by
  constructor
  · intro h
    have hresume : resumeAfter (some "sess-a:2") = 2 := by decide
    have hmessages := h.messages
    rw [run_pollOf, receive_obj jsonLoads_braces] at hmessages
    simp [resumed, keeps, hresume, State.messages, nextSequence, wanted, pollOf,
      jsonLoads_braces] at hmessages
  · intro h
    have hloads : jsonLoads "5" = .value (.num 5) := rfl
    have hgoesOn := h.goesOn
    rw [run_pollOf, receive_of_not_obj hloads (by simp)] at hgoesOn
    simp [Request.unfiltered, firstConnection, resumeAfter, raise] at hgoesOn

end TradeStream.AgentStream
