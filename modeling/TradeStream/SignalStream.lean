import Mathlib

/-! `SignalEventBus` and the clients of `signal_stream`. A publication appends its event and
takes its subscribers under the lock, and calls them after that; a client reads the buffer
first and subscribes then. -/
namespace TradeStream.SignalStream
open scoped List

structure Event (D : Type*) where
  id : ℕ
  type : String
  data : D

/-- A publication that has left the lock, with the callbacks that it still has to call. -/
structure Flight (ι D : Type*) where
  event : Event D
  callbacks : List ι

/-- Where the generator of a client is. -/
inductive Phase (D : Type*) where
  | arrived
  | replaying (rest : List (Event D))
  | live
  | closed

/-- A client, with what observes it: the events that it was sent or that its full queue did not
take, and how many had been published when it read the buffer and when it subscribed. -/
structure Client (D : Type*) where
  phase : Phase D := .arrived
  queue : List (Event D) := []
  sent : List (Event D) := []
  dropped : List (Event D) := []
  read : ℕ := 0
  joined : ℕ := 0

/-- The bus, its clients, and all events that have been published. -/
structure Bus (ι D : Type*) where
  subscribers : List ι := []
  replayBuffer : List (Event D) := []
  eventCounter : ℕ := 0
  flights : List (Flight ι D) := []
  clients : ι → Client D := fun _ => {}
  published : List (Event D) := []

inductive Turn (ι D : Type*) where
  | publish (type : String) (data : D)
  /-- The publication with this number calls its next callback. -/
  | callback (flight : ℕ)
  | client (i : ι) (disconnected : Bool)

/-- How many events the buffer holds, and after which event a client asks to go on. -/
structure Config (ι : Type*) where
  replayBufferSize : ℕ := 100
  lastEventId : ι → ℕ

variable {ι D : Type*} [DecidableEq ι]

section
variable (config : Config ι)

/-- `publish`, under the lock. -/
def Bus.publish (bus : Bus ι D) (type : String) (data : D) : Bus ι D :=
  let event : Event D := ⟨bus.eventCounter + 1, type, data⟩
  { bus with
    eventCounter := bus.eventCounter + 1
    -- a deque with a maximal length
    replayBuffer := (bus.replayBuffer ++ [event]).drop
      (bus.replayBuffer.length + 1 - config.replayBufferSize)
    flights := bus.flights ++ [⟨event, bus.subscribers⟩]
    published := bus.published ++ [event] }

/-- `on_event`: a full queue does not take the event. -/
def Client.put (c : Client D) (event : Event D) : Client D :=
  if c.queue.length < 100 then { c with queue := c.queue ++ [event] }
  else { c with dropped := c.dropped ++ [event] }

def Bus.callback (bus : Bus ι D) (flight : ℕ) : Bus ι D :=
  match bus.flights[flight]? with
  | some ⟨event, i :: rest⟩ =>
    { bus with
      flights := bus.flights.set flight ⟨event, rest⟩
      clients := Function.update bus.clients i ((bus.clients i).put event) }
  | _ => bus

def Bus.set (bus : Bus ι D) (i : ι) (c : Client D) : Bus ι D :=
  { bus with clients := Function.update bus.clients i c }

/-- `event_generator`, up to where it waits next. -/
def Bus.resume (bus : Bus ι D) (i : ι) (disconnected : Bool) : Bus ι D :=
  let c := bus.clients i
  match c.phase with
  | .arrived =>
    bus.set i { c with
      phase := .replaying (bus.replayBuffer.filter fun event => config.lastEventId i < event.id)
      read := bus.published.length }
  | .replaying (event :: rest) =>
    if disconnected then bus.set i { c with phase := .closed }
    else bus.set i { c with phase := .replaying rest, sent := c.sent ++ [event] }
  | .replaying [] =>
    { bus with subscribers := bus.subscribers ++ [i] }.set i
      { c with phase := .live, joined := bus.published.length }
  | .live =>
    if disconnected then
      { bus with subscribers := bus.subscribers.erase i }.set i { c with phase := .closed }
    else
      match c.queue with
      -- a comment that keeps the connection
      | [] => bus
      | event :: queue => bus.set i { c with queue := queue, sent := c.sent ++ [event] }
  | .closed => bus

def Bus.step (bus : Bus ι D) : Turn ι D → Bus ι D
  | .publish type data => bus.publish config type data
  | .callback flight => bus.callback flight
  | .client i disconnected => bus.resume config i disconnected

def run (turns : List (Turn ι D)) : Bus ι D := turns.foldl (Bus.step config) {}

end

/-- The events that publications still have to hand to the client. -/
def Bus.owed (bus : Bus ι D) (i : ι) : List (Event D) :=
  (bus.flights.filter fun flight => i ∈ flight.callbacks).map Flight.event

/-- What the buffer had for the client when it was read. -/
def replayOf (config : Config ι) (published : List (Event D)) (i : ι) (read : ℕ) :
    List (Event D) :=
  ((published.take read).drop (read - config.replayBufferSize)).filter
    fun event => config.lastEventId i < event.id

section
variable (config : Config ι)

/-- The bus itself. -/
structure Bus.Sound (bus : Bus ι D) : Prop where
  counter : bus.eventCounter = bus.published.length
  ids : bus.published.map Event.id = List.range' 1 bus.published.length
  buffer : bus.replayBuffer =
    bus.published.drop (bus.published.length - config.replayBufferSize)
  subscribers : bus.subscribers.Nodup
  live : ∀ i, i ∈ bus.subscribers ↔ (bus.clients i).phase = .live
  callbacks : ∀ flight ∈ bus.flights, flight.callbacks.Nodup

/-- What a client has got so far of what was published, and what it is still owed. -/
def Follows (published : List (Event D)) (i : ι) (c : Client D) (owed : List (Event D)) : Prop :=
  c.read ≤ published.length ∧ c.joined ≤ published.length ∧
  match c.phase with
  | .arrived => c.sent = [] ∧ c.queue = [] ∧ c.dropped = [] ∧ c.joined = 0 ∧ owed = []
  | .replaying rest =>
    c.sent ++ rest = replayOf config published i c.read ∧ c.queue = [] ∧ c.dropped = [] ∧
      c.joined = 0 ∧ owed = []
  | .live => c.read ≤ c.joined ∧ ∃ heard, c.sent = replayOf config published i c.read ++ heard ∧
      heard ++ c.queue ++ c.dropped ++ owed ~ published.drop c.joined
  | .closed => ∃ replayed heard, c.sent = replayed ++ heard ∧
      replayed <+: replayOf config published i c.read ∧ heard <+~ published.drop c.joined ∧
        (heard = [] ∨ c.read ≤ c.joined)

variable {config}

omit [DecidableEq ι] in
theorem replayOf_append {published : List (Event D)} (i : ι) {read : ℕ}
    (h : read ≤ published.length) (more : List (Event D)) :
    replayOf config (published ++ more) i read = replayOf config published i read := by
  rw [replayOf, replayOf, List.take_append_of_le_length h]

omit [DecidableEq ι] in
/-- Another event is published, which a client is owed if it has subscribed. -/
theorem Follows.publish {published : List (Event D)} {i : ι} {c : Client D}
    {owed : List (Event D)} (h : Follows config published i c owed) (event : Event D)
    {more : List (Event D)} (hlive : c.phase = .live → more = [event])
    (hother : c.phase ≠ .live → more = []) :
    Follows config (published ++ [event]) i c (owed ++ more) := by
  obtain ⟨hread, hjoined, hphase⟩ := h
  have hlength : published.length ≤ (published ++ [event]).length := by simp
  have hdrop : (published ++ [event]).drop c.joined = published.drop c.joined ++ [event] :=
    List.drop_append_of_le_length hjoined
  refine ⟨hread.trans hlength, hjoined.trans hlength, ?_⟩
  rw [replayOf_append i hread, hdrop]
  cases hcase : c.phase with
  | arrived =>
    rw [hcase] at hphase hother
    rw [hother nofun, List.append_nil]
    exact hphase
  | replaying rest =>
    rw [hcase] at hphase hother
    rw [hother nofun, List.append_nil]
    exact hphase
  | live =>
    rw [hcase] at hphase
    obtain ⟨horder, heard, hsent, hperm⟩ := hphase
    refine ⟨horder, heard, hsent, ?_⟩
    rw [hlive hcase, ← List.append_assoc]
    exact hperm.append_right [event]
  | closed =>
    rw [hcase] at hphase
    obtain ⟨replayed, heard, hsent, hreplayed, hheard, horder⟩ := hphase
    exact ⟨replayed, heard, hsent, hreplayed,
      hheard.trans (List.sublist_append_left _ _).subperm, horder⟩

omit [DecidableEq ι] in
/-- A callback hands the client an event that it is owed. -/
theorem Follows.put {published : List (Event D)} {i : ι} {c : Client D} {event : Event D}
    {before after : List (Event D)} (h : Follows config published i c (before ++ event :: after)) :
    Follows config published i (c.put event) (before ++ after) := by
  obtain ⟨hread, hjoined, hphase⟩ := h
  have hsame : (c.put event).read = c.read ∧ (c.put event).joined = c.joined ∧
      (c.put event).phase = c.phase ∧ (c.put event).sent = c.sent := by
    rw [Client.put]
    split_ifs <;> exact ⟨rfl, rfl, rfl, rfl⟩
  obtain ⟨hread', hjoined', hphase', hsent'⟩ := hsame
  rw [Follows, hread', hjoined', hphase', hsent']
  refine ⟨hread, hjoined, ?_⟩
  cases hcase : c.phase with
  | arrived =>
    rw [hcase] at hphase
    simp at hphase
  | replaying rest =>
    rw [hcase] at hphase
    simp at hphase
  | live =>
    rw [hcase] at hphase
    obtain ⟨horder, heard, hsent, hperm⟩ := hphase
    refine ⟨horder, heard, hsent, List.Perm.trans ?_ hperm⟩
    rw [Client.put]
    split_ifs
    · simp only [List.append_assoc, List.cons_append, List.nil_append]
      refine (List.perm_append_left_iff _).mpr ((List.perm_append_left_iff _).mpr ?_)
      rw [← List.append_assoc, ← List.append_assoc]
      exact List.perm_middle.symm
    · simp only [List.append_assoc, List.cons_append, List.nil_append]
      refine (List.perm_append_left_iff _).mpr ((List.perm_append_left_iff _).mpr
        ((List.perm_append_left_iff _).mpr ?_))
      exact List.perm_middle.symm
  | closed =>
    rw [hcase] at hphase
    exact hphase

theorem owed_publish (bus : Bus ι D) (type : String) (data : D) (i : ι) :
    (bus.publish config type data).owed i = bus.owed i ++
      if i ∈ bus.subscribers then [⟨bus.eventCounter + 1, type, data⟩] else [] := by
  rw [Bus.owed, Bus.owed, Bus.publish, List.filter_append, List.map_append, List.filter_singleton]
  split_ifs with hmem <;> simp [hmem]

/-- A callback takes its event from what its client is owed, and nothing from the others. -/
theorem owed_callback {bus : Bus ι D} {k : ℕ} {event : Event D} {i : ι} {rest : List ι}
    (h : bus.flights[k]? = some ⟨event, i :: rest⟩) (hnodup : (i :: rest).Nodup) (j : ι) :
    (j ≠ i → (bus.callback k).owed j = bus.owed j) ∧
      (j = i → ∃ before after, bus.owed j = before ++ event :: after ∧
        (bus.callback k).owed j = before ++ after) := by
  obtain ⟨before, after, hbefore, hafter⟩ : ∃ before after,
      bus.flights = before ++ ⟨event, i :: rest⟩ :: after ∧
        (bus.callback k).flights = before ++ ⟨event, rest⟩ :: after := by
    obtain ⟨hk, hget⟩ := List.getElem?_eq_some_iff.mp h
    refine ⟨bus.flights.take k, bus.flights.drop (k + 1), ?_, ?_⟩
    · rw [← hget, List.cons_getElem_drop_succ, List.take_append_drop]
    · rw [Bus.callback, h]
      dsimp only
      rw [List.set_eq_take_append_cons_drop, if_pos hk]
  rw [Bus.owed, Bus.owed, hafter, hbefore, List.filter_append, List.filter_append, List.map_append,
    List.map_append, List.filter_cons, List.filter_cons]
  constructor
  · intro hne
    simp only [List.mem_cons, hne, false_or]
    split_ifs <;> rfl
  · rintro rfl
    have hnot : j ∉ rest := (List.nodup_cons.mp hnodup).1
    refine ⟨(before.filter fun flight => j ∈ flight.callbacks).map Flight.event,
      (after.filter fun flight => j ∈ flight.callbacks).map Flight.event, ?_, ?_⟩
    · simp only [List.mem_cons, true_or, decide_true, if_true, List.map_cons]
    · simp only [hnot, decide_false, Bool.false_eq_true, if_false]

/-- A callback is without effect, or it puts its event into the queue of its client. -/
theorem callback_cases (bus : Bus ι D) (k : ℕ) :
    bus.callback k = bus ∨ ∃ event i rest, bus.flights[k]? = some ⟨event, i :: rest⟩ ∧
      (bus.callback k).published = bus.published ∧
      (bus.callback k).clients = Function.update bus.clients i ((bus.clients i).put event) := by
  cases hflight : bus.flights[k]? with
  | none => exact Or.inl (by rw [Bus.callback, hflight])
  | some flight =>
    obtain ⟨event, callbacks⟩ := flight
    cases callbacks with
    | nil => exact Or.inl (by rw [Bus.callback, hflight])
    | cons i rest =>
      refine Or.inr ⟨event, i, rest, rfl, ?_, ?_⟩ <;> rw [Bus.callback, hflight]

/-! ### The client's own steps -/

omit [DecidableEq ι] in
/-- What the buffer holds is what the client asks for. -/
theorem Bus.Sound.replay {bus : Bus ι D} (h : bus.Sound config) (i : ι) :
    bus.replayBuffer.filter (fun event => config.lastEventId i < event.id) =
      replayOf config bus.published i bus.published.length := by
  rw [h.buffer, replayOf, List.take_length]

theorem follows_resume {bus : Bus ι D} (hsound : bus.Sound config) {i : ι}
    (h : Follows config bus.published i (bus.clients i) (bus.owed i)) (disconnected : Bool) :
    Follows config bus.published i ((bus.resume config i disconnected).clients i) (bus.owed i) := by
  obtain ⟨hread, hjoined, hphase⟩ := h
  rw [Bus.resume]
  cases hcase : (bus.clients i).phase with
  | arrived =>
    rw [hcase] at hphase
    obtain ⟨hsent, hqueue, hdropped, hzero, howed⟩ := hphase
    simp only [Bus.set, Function.update_self]
    refine ⟨le_rfl, hjoined, ?_, hqueue, hdropped, hzero, howed⟩
    rw [hsent, List.nil_append, hsound.replay]
  | replaying rest =>
    rw [hcase] at hphase
    obtain ⟨hsent, hqueue, hdropped, hzero, howed⟩ := hphase
    cases rest with
    | nil =>
      simp only [Bus.set, Function.update_self]
      refine ⟨hread, le_rfl, hread, [], ?_, ?_⟩
      · rw [← hsent, List.append_nil, List.append_nil]
      · rw [hqueue, hdropped, howed, List.drop_length]
        exact List.Perm.nil
    | cons event rest =>
      dsimp only
      split_ifs
      · simp only [Bus.set, Function.update_self]
        refine ⟨hread, hjoined, (bus.clients i).sent, [], (List.append_nil _).symm, ?_,
          List.nil_subperm, Or.inl rfl⟩
        exact ⟨event :: rest, hsent⟩
      · simp only [Bus.set, Function.update_self]
        refine ⟨hread, hjoined, ?_, hqueue, hdropped, hzero, howed⟩
        rw [List.append_assoc]
        exact hsent
  | live =>
    rw [hcase] at hphase
    obtain ⟨horder, heard, hsent, hperm⟩ := hphase
    dsimp only
    split_ifs
    · simp only [Bus.set, Function.update_self]
      refine ⟨hread, hjoined, _, heard, hsent, List.prefix_rfl, ?_, Or.inr horder⟩
      rw [List.append_assoc, List.append_assoc] at hperm
      exact (List.sublist_append_left _ _).subperm.trans hperm.subperm
    · cases hqueue : (bus.clients i).queue with
      | nil =>
        dsimp only
        refine ⟨hread, hjoined, ?_⟩
        rw [hcase]
        exact ⟨horder, heard, hsent, hperm⟩
      | cons event queue =>
        simp only [Bus.set, Function.update_self]
        refine ⟨hread, hjoined, ?_⟩
        dsimp only
        refine ⟨horder, heard ++ [event], ?_, ?_⟩
        · rw [hsent, List.append_assoc]
        · rw [hqueue] at hperm
          simpa using hperm
  | closed =>
    rw [hcase] at hphase
    refine ⟨hread, hjoined, ?_⟩
    rw [hcase]
    exact hphase

/-! ### Runs -/

theorem resume_of_ne (bus : Bus ι D) {i j : ι} (h : j ≠ i) (disconnected : Bool) :
    (bus.resume config i disconnected).clients j = bus.clients j := by
  rw [Bus.resume]
  cases (bus.clients i).phase with
  | arrived => exact Function.update_of_ne h _ _
  | replaying rest =>
    cases rest with
    | nil => exact Function.update_of_ne h _ _
    | cons event rest =>
      dsimp only
      split_ifs
      · exact Function.update_of_ne h _ _
      · exact Function.update_of_ne h _ _
  | live =>
    dsimp only
    split_ifs
    · exact Function.update_of_ne h _ _
    · cases (bus.clients i).queue with
      | nil => rfl
      | cons event queue => exact Function.update_of_ne h _ _
  | closed => rfl

variable (config) in
/-- A client's own step leaves all to the publications but who has subscribed. -/
theorem resume_frame (bus : Bus ι D) (i : ι) (disconnected : Bool) :
    (bus.resume config i disconnected).published = bus.published ∧
      (bus.resume config i disconnected).flights = bus.flights ∧
      (bus.resume config i disconnected).eventCounter = bus.eventCounter ∧
      (bus.resume config i disconnected).replayBuffer = bus.replayBuffer := by
  rw [Bus.resume]
  cases (bus.clients i).phase with
  | arrived => exact ⟨rfl, rfl, rfl, rfl⟩
  | replaying rest =>
    cases rest with
    | nil => exact ⟨rfl, rfl, rfl, rfl⟩
    | cons event rest =>
      dsimp only
      split_ifs <;> exact ⟨rfl, rfl, rfl, rfl⟩
  | live =>
    dsimp only
    split_ifs
    · exact ⟨rfl, rfl, rfl, rfl⟩
    · cases (bus.clients i).queue <;> exact ⟨rfl, rfl, rfl, rfl⟩
  | closed => exact ⟨rfl, rfl, rfl, rfl⟩

omit [DecidableEq ι] in
theorem sound_publish {bus : Bus ι D} (h : bus.Sound config) (type : String) (data : D) :
    (bus.publish config type data).Sound config where
  counter := by simp [Bus.publish, h.counter]
  ids := by
    simp only [Bus.publish, List.map_append, h.ids, h.counter, List.length_append,
      List.length_singleton, List.map_cons, List.map_nil]
    rw [List.range'_concat, one_mul, add_comm 1]
  buffer := by
    have hlength : bus.replayBuffer.length =
        bus.published.length - (bus.published.length - config.replayBufferSize) := by
      rw [h.buffer, List.length_drop]
    simp only [Bus.publish, List.length_append, List.length_singleton]
    rw [hlength, h.buffer]
    generalize (⟨bus.eventCounter + 1, type, data⟩ : Event D) = event
    have hle : bus.published.length - config.replayBufferSize ≤ bus.published.length :=
      Nat.sub_le _ _
    rw [← List.drop_append_of_le_length hle, List.drop_drop]
    congr 1
    omega
  subscribers := h.subscribers
  live := h.live
  callbacks := by
    intro flight hflight
    rcases List.mem_append.mp hflight with hold | hnew
    · exact h.callbacks flight hold
    · rw [List.mem_singleton.mp hnew]
      exact h.subscribers

theorem sound_callback {bus : Bus ι D} (h : bus.Sound config) (k : ℕ) :
    (bus.callback k).Sound config := by
  rw [Bus.callback]
  split
  · next event i rest hflight =>
    have hmem := List.mem_of_getElem? hflight
    refine ⟨h.counter, h.ids, h.buffer, h.subscribers, ?_, ?_⟩
    · intro j
      rw [h.live]
      by_cases hj : j = i
      · subst hj
        simp only [Function.update_self, Client.put]
        split_ifs <;> rfl
      · simp only [Function.update_of_ne hj]
    · intro flight hset
      rcases List.mem_or_eq_of_mem_set hset with hold | rfl
      · exact h.callbacks flight hold
      · exact (List.nodup_cons.mp (h.callbacks _ hmem)).2
  · exact h

theorem Bus.Sound.set {bus : Bus ι D} (h : bus.Sound config) {i : ι} {c : Client D}
    {subscribers : List ι} (hnodup : subscribers.Nodup)
    (hothers : ∀ j ≠ i, j ∈ subscribers ↔ j ∈ bus.subscribers)
    (hself : i ∈ subscribers ↔ c.phase = .live) :
    ({ bus with subscribers := subscribers }.set i c : Bus ι D).Sound config where
  counter := h.counter
  ids := h.ids
  buffer := h.buffer
  subscribers := hnodup
  live j := by
    by_cases hj : j = i
    · subst hj
      simpa [Bus.set] using hself
    · simpa [Bus.set, Function.update_of_ne hj] using (hothers j hj).trans (h.live j)
  callbacks := h.callbacks

theorem sound_resume {bus : Bus ι D} (h : bus.Sound config) (i : ι) (disconnected : Bool) :
    (bus.resume config i disconnected).Sound config := by
  have hkeep : ∀ c : Client D, (i ∈ bus.subscribers ↔ c.phase = .live) →
      (bus.set i c).Sound config :=
    fun c hc => h.set h.subscribers (fun _ _ => Iff.rfl) hc
  have hlive := h.live i
  rw [Bus.resume]
  cases hcase : (bus.clients i).phase with
  | arrived =>
    rw [hcase] at hlive
    exact hkeep _ (hlive.trans (iff_of_false nofun nofun))
  | replaying rest =>
    rw [hcase] at hlive
    have hnot : i ∉ bus.subscribers := fun hmem => by cases hlive.mp hmem
    cases rest with
    | nil =>
      refine h.set (h.subscribers.append (List.nodup_singleton i) ?_) (fun j hj => ?_) ?_
      · exact List.disjoint_singleton.mpr hnot
      · simp [hj]
      · simp
    | cons event rest =>
      dsimp only
      split_ifs
      · exact hkeep _ (iff_of_false hnot nofun)
      · exact hkeep _ (iff_of_false hnot nofun)
  | live =>
    rw [hcase] at hlive
    dsimp only
    split_ifs
    · refine h.set (h.subscribers.erase i) (fun j hj => ?_) ?_
      · exact List.mem_erase_of_ne hj
      · exact iff_of_false h.subscribers.not_mem_erase nofun
    · cases (bus.clients i).queue with
      | nil => exact h
      | cons event queue => exact hkeep _ (hlive.trans (iff_of_true rfl rfl))
  | closed => exact h

/-- The bus and each of its clients. -/
def Bus.Inv (config : Config ι) (bus : Bus ι D) : Prop :=
  bus.Sound config ∧ ∀ i, Follows config bus.published i (bus.clients i) (bus.owed i)

theorem inv_step {bus : Bus ι D} (h : bus.Inv config) (turn : Turn ι D) :
    (bus.step config turn).Inv config := by
  obtain ⟨hsound, hfollows⟩ := h
  cases turn with
  | publish type data =>
    refine ⟨sound_publish hsound type data, fun i => ?_⟩
    rw [Bus.step, owed_publish]
    apply (hfollows i).publish
    · exact fun hlive => if_pos ((hsound.live i).mpr hlive)
    · exact fun hother => if_neg fun hmem => hother ((hsound.live i).mp hmem)
  | callback k =>
    refine ⟨sound_callback hsound k, fun j => ?_⟩
    rw [Bus.step]
    rcases callback_cases bus k with hsame | ⟨event, i, rest, hflight, hpublished, hclients⟩
    · rw [hsame]
      exact hfollows j
    · have hnodup := hsound.callbacks _ (List.mem_of_getElem? hflight)
      obtain ⟨hothers, hself⟩ := owed_callback hflight hnodup j
      rw [hpublished, hclients]
      by_cases hj : j = i
      · obtain ⟨before, after, hbefore, hafter⟩ := hself hj
        have howed := hfollows j
        rw [hbefore] at howed
        subst hj
        rw [hafter, Function.update_self]
        exact howed.put
      · rw [hothers hj, Function.update_of_ne hj]
        exact hfollows j
  | client i disconnected =>
    refine ⟨sound_resume hsound i disconnected, fun j => ?_⟩
    obtain ⟨hpublished, hflights, -⟩ := resume_frame config bus i disconnected
    have howed : (bus.resume config i disconnected).owed j = bus.owed j := by
      rw [Bus.owed, hflights, Bus.owed]
    rw [Bus.step, hpublished, howed]
    by_cases hj : j = i
    · subst hj
      exact follows_resume hsound (hfollows j) disconnected
    · rw [resume_of_ne bus hj]
      exact hfollows j

variable (config) in
theorem inv_run (turns : List (Turn ι D)) : (run config turns).Inv config := by
  refine List.foldlRecOn (motive := fun bus : Bus ι D => bus.Inv config) turns _ ?_ ?_
  · refine ⟨⟨rfl, rfl, List.drop_nil.symm, List.nodup_nil, fun _ => iff_of_false nofun nofun,
      nofun⟩, fun i => ?_⟩
    exact ⟨le_rfl, le_rfl, rfl, rfl, rfl, rfl, rfl⟩
  · exact fun bus hbus turn _ => inv_step hbus turn

/-! ### What a client is sent -/

section
omit [DecidableEq ι]
variable {published : List (Event D)} {event : Event D} {n : ℕ}

theorem id_getElem (hids : published.map Event.id = List.range' 1 published.length) {k : ℕ}
    (hk : k < published.length) : published[k].id = k + 1 := by
  have hk' : k < (published.map Event.id).length := by rwa [List.length_map]
  have hget : (published.map Event.id)[k] = published[k].id := List.getElem_map _
  rw [← hget]
  simp only [hids, List.getElem_range']
  omega

theorem mem_drop_iff (hids : published.map Event.id = List.range' 1 published.length) :
    event ∈ published.drop n ↔ event ∈ published ∧ n < event.id := by
  constructor
  · intro hmem
    obtain ⟨k, hk, rfl⟩ := List.getElem_of_mem hmem
    refine ⟨List.mem_of_mem_drop hmem, ?_⟩
    rw [List.getElem_drop, id_getElem hids]
    omega
  · rintro ⟨hmem, hlt⟩
    obtain ⟨k, hk, rfl⟩ := List.getElem_of_mem hmem
    rw [id_getElem hids] at hlt
    rw [List.mem_drop_iff_getElem]
    refine ⟨k - n, by omega, ?_⟩
    congr 1
    omega

theorem mem_take_iff (hids : published.map Event.id = List.range' 1 published.length) :
    event ∈ published.take n ↔ event ∈ published ∧ event.id ≤ n := by
  constructor
  · intro hmem
    obtain ⟨k, hk, rfl⟩ := List.getElem_of_mem hmem
    refine ⟨List.mem_of_mem_take hmem, ?_⟩
    rw [List.getElem_take, id_getElem hids]
    rw [List.length_take] at hk
    omega
  · rintro ⟨hmem, hle⟩
    obtain ⟨k, hk, rfl⟩ := List.getElem_of_mem hmem
    rw [id_getElem hids] at hle
    rw [List.mem_take_iff_getElem]
    exact ⟨k, by omega, rfl⟩

theorem take_append_drop_sublist (published : List (Event D)) {read joined : ℕ}
    (h : read ≤ joined) : published.take read ++ published.drop joined <+ published := by
  conv_rhs => rw [← List.take_append_drop joined published]
  exact (List.take_sublist_take_left h).append_right _

theorem nodup_of_ids (hids : published.map Event.id = List.range' 1 published.length) :
    published.Nodup := by
  apply List.Nodup.of_map Event.id
  rw [hids]
  exact List.nodup_range'

theorem replayOf_sublist (config : Config ι) (i : ι) (read : ℕ) :
    replayOf config published i read <+ published.take read :=
  List.filter_sublist.trans (List.drop_sublist _ _)

theorem mem_replayOf_iff (hids : published.map Event.id = List.range' 1 published.length)
    (config : Config ι) (i : ι) {read : ℕ} (hread : read ≤ published.length) :
    event ∈ replayOf config published i read ↔ event ∈ published ∧ event.id ≤ read ∧
      read - config.replayBufferSize < event.id ∧ config.lastEventId i < event.id := by
  have htake : (published.take read).map Event.id = List.range' 1 (published.take read).length := by
    rw [List.map_take, hids, List.take_range'_of_length_ge hread, List.length_take,
      Nat.min_eq_left hread]
  rw [replayOf, List.mem_filter, mem_drop_iff htake, mem_take_iff hids, decide_eq_true_iff]
  tauto

end

/-- The stream of a client. -/
structure Streams (config : Config ι) (bus : Bus ι D) (i : ι) : Prop where
  once : (bus.clients i).sent.Nodup
  published : ∀ event ∈ (bus.clients i).sent, event ∈ bus.published
  since : ∀ event ∈ (bus.clients i).sent, event.id ≤ (bus.clients i).read →
    config.lastEventId i < event.id
  /-- Of the events that it asks for and that the buffer still had, a client misses only those
  between its read and its subscription, and those that its full queue did not take. -/
  all : (bus.clients i).phase = .live → ∀ event ∈ bus.published,
    config.lastEventId i < event.id →
    (bus.clients i).read - config.replayBufferSize < event.id →
    event.id ≤ (bus.clients i).read ∨ (bus.clients i).joined < event.id →
    event ∈ (bus.clients i).sent ∨ event ∈ (bus.clients i).queue ∨
      event ∈ (bus.clients i).dropped ∨ event ∈ bus.owed i

omit [DecidableEq ι] in
/-- The events of a replay and of the live part have different ids. -/
theorem nodup_sent {bus : Bus ι D} (h : bus.Sound config) {c : Client D}
    {replayed heard : List (Event D)} (hreplayed : replayed <+ bus.published.take c.read)
    (hheard : heard <+~ bus.published.drop c.joined) (horder : heard = [] ∨ c.read ≤ c.joined) :
    (replayed ++ heard).Nodup := by
  have hnodup := nodup_of_ids h.ids
  refine (hreplayed.nodup (hnodup.sublist (List.take_sublist _ _))).append ?_ ?_
  · obtain ⟨copy, hperm, hsub⟩ := hheard
    exact hperm.nodup_iff.mp (hsub.nodup (hnodup.sublist (List.drop_sublist _ _)))
  · intro event hold hnew
    rcases horder with rfl | hle
    · cases hnew
    · have hread := ((mem_take_iff h.ids).mp (hreplayed.subset hold)).2
      have hjoined := ((mem_drop_iff h.ids).mp (hheard.subset hnew)).2
      omega

/-- What is sent is a part of a replay, and events that were published after the client had
subscribed. -/
theorem exists_sent {bus : Bus ι D} {i : ι}
    (h : Follows config bus.published i (bus.clients i) (bus.owed i)) :
    ∃ replayed heard, (bus.clients i).sent = replayed ++ heard ∧
      replayed <+ replayOf config bus.published i (bus.clients i).read ∧
      heard <+~ bus.published.drop (bus.clients i).joined ∧
        (heard = [] ∨ (bus.clients i).read ≤ (bus.clients i).joined) := by
  obtain ⟨-, -, hphase⟩ := h
  cases hcase : (bus.clients i).phase with
  | arrived =>
    rw [hcase] at hphase
    exact ⟨[], [], hphase.1, List.nil_sublist _, List.nil_subperm, Or.inl rfl⟩
  | replaying rest =>
    rw [hcase] at hphase
    refine ⟨(bus.clients i).sent, [], (List.append_nil _).symm, ?_, List.nil_subperm, Or.inl rfl⟩
    rw [← hphase.1]
    exact List.sublist_append_left _ _
  | live =>
    rw [hcase] at hphase
    obtain ⟨horder, heard, hsent, hperm⟩ := hphase
    refine ⟨_, heard, hsent, List.Sublist.refl _, ?_, Or.inr horder⟩
    rw [List.append_assoc, List.append_assoc] at hperm
    exact (List.sublist_append_left _ _).subperm.trans hperm.subperm
  | closed =>
    rw [hcase] at hphase
    obtain ⟨replayed, heard, hsent, hreplayed, hheard, horder⟩ := hphase
    exact ⟨replayed, heard, hsent, hreplayed.sublist, hheard, horder⟩

variable (config)

/-- In every interleaving of publications, callbacks and clients a client is sent no event twice
and none that it did not ask for, and it misses none but those that `Streams` names. -/
theorem stream_accounts (turns : List (Turn ι D)) (i : ι) :
    Streams config (run config turns) i := by
  obtain ⟨hsound, hfollows⟩ := inv_run config turns
  generalize run config turns = bus at hsound hfollows ⊢
  obtain ⟨replayed, heard, hsent, hreplayed, hheard, horder⟩ := exists_sent (hfollows i)
  obtain ⟨hread, -, hphase⟩ := hfollows i
  have htake := hreplayed.trans (replayOf_sublist config i _)
  refine ⟨?_, ?_, ?_, ?_⟩
  · rw [hsent]
    exact nodup_sent hsound htake hheard horder
  · intro event hevent
    rw [hsent] at hevent
    rcases List.mem_append.mp hevent with hold | hnew
    · exact List.mem_of_mem_take (htake.subset hold)
    · exact List.mem_of_mem_drop (hheard.subset hnew)
  · intro event hevent hid
    rw [hsent] at hevent
    rcases List.mem_append.mp hevent with hold | hnew
    · exact ((mem_replayOf_iff hsound.ids config i hread).mp (hreplayed.subset hold)).2.2.2
    · have hlater := ((mem_drop_iff hsound.ids).mp (hheard.subset hnew)).2
      rcases horder with rfl | hle
      · cases hnew
      · omega
  · intro hlive event hevent hasked hbuffered hid
    rw [hlive] at hphase
    obtain ⟨-, heard, hsent, hperm⟩ := hphase
    rcases hid with hold | hnew
    · left
      rw [hsent]
      exact List.mem_append_left _
        ((mem_replayOf_iff hsound.ids config i hread).mpr ⟨hevent, hold, hbuffered, hasked⟩)
    · have hmem := hperm.mem_iff.mpr ((mem_drop_iff hsound.ids).mpr ⟨hevent, hnew⟩)
      rw [hsent]
      simp only [List.mem_append] at hmem ⊢
      tauto

/-! ### The order -/

/-- No publication is still calling its subscribers. -/
def Bus.Idle (bus : Bus ι D) : Prop := ∀ flight ∈ bus.flights, flight.callbacks = []

theorem owed_of_idle {bus : Bus ι D} (h : bus.Idle) (i : ι) : bus.owed i = [] := by
  rw [Bus.owed, List.map_eq_nil_iff, List.filter_eq_nil_iff]
  intro flight hflight hmem
  rw [h flight hflight] at hmem
  simp at hmem

/-- What a client has and will get, in order. -/
def Ordered (published : List (Event D)) (c : Client D) (owed : List (Event D)) : Prop :=
  match c.phase with
  | .live => c.sent ++ c.queue ++ owed <+ published.take c.read ++ published.drop c.joined
  | .closed => c.sent <+ published
  | _ => True

omit [DecidableEq ι] in
theorem Ordered.publish {published : List (Event D)} {c : Client D} (h : Ordered published c [])
    (hread : c.read ≤ published.length) (hjoined : c.joined ≤ published.length)
    (event : Event D) {more : List (Event D)} (hlive : c.phase = .live → more = [event]) :
    Ordered (published ++ [event]) c more := by
  rw [Ordered] at h ⊢
  cases hcase : c.phase with
  | live =>
    rw [hcase] at h
    dsimp only at h ⊢
    rw [hlive hcase, List.take_append_of_le_length hread, List.drop_append_of_le_length hjoined,
      ← List.append_assoc (published.take c.read)]
    rw [List.append_nil] at h
    exact h.append_right [event]
  | closed =>
    rw [hcase] at h
    exact h.trans (List.sublist_append_left _ _)
  | _ => trivial

omit [DecidableEq ι] in
theorem Ordered.put {published : List (Event D)} {c : Client D} {event : Event D}
    (h : Ordered published c [event]) : Ordered published (c.put event) [] := by
  rw [Client.put]
  rw [Ordered] at h
  split_ifs
  · rw [Ordered]
    cases hcase : c.phase with
    | live =>
      rw [hcase] at h
      rw [List.append_nil, ← List.append_assoc]
      exact h
    | closed =>
      rw [hcase] at h
      exact h
    | _ => trivial
  · rw [Ordered]
    cases hcase : c.phase with
    | live =>
      rw [hcase] at h
      rw [List.append_nil]
      exact (List.sublist_append_left _ _).trans h
    | closed =>
      rw [hcase] at h
      exact h
    | _ => trivial

theorem ordered_resume {bus : Bus ι D} {i : ι}
    (hfollows : Follows config bus.published i (bus.clients i) (bus.owed i))
    (h : Ordered bus.published (bus.clients i) (bus.owed i)) (disconnected : Bool) :
    Ordered bus.published ((bus.resume config i disconnected).clients i) (bus.owed i) := by
  obtain ⟨-, hjoined, hphase⟩ := hfollows
  have hreplay : replayOf config bus.published i (bus.clients i).read <+
      bus.published.take (bus.clients i).read := replayOf_sublist config i _
  rw [Ordered] at h
  rw [Bus.resume]
  cases hcase : (bus.clients i).phase with
  | arrived =>
    simp only [Bus.set, Function.update_self]
    trivial
  | replaying rest =>
    rw [hcase] at hphase
    obtain ⟨hsent, hqueue, -, -, howed⟩ := hphase
    cases rest with
    | nil =>
      simp only [Bus.set, Function.update_self]
      rw [Ordered]
      dsimp only
      rw [hqueue, howed, List.append_nil, List.append_nil, List.drop_length, List.append_nil]
      rw [List.append_nil] at hsent
      exact hsent ▸ hreplay
    | cons event rest =>
      dsimp only
      split_ifs
      · simp only [Bus.set, Function.update_self]
        have hprefix : (bus.clients i).sent <+
            replayOf config bus.published i (bus.clients i).read :=
          hsent ▸ List.sublist_append_left _ _
        exact hprefix.trans (hreplay.trans (List.take_sublist _ _))
      · simp only [Bus.set, Function.update_self]
        trivial
  | live =>
    rw [hcase] at h hphase
    dsimp only at h ⊢
    split_ifs
    · simp only [Bus.set, Function.update_self]
      rw [List.append_assoc] at h
      exact ((List.sublist_append_left _ _).trans h).trans
        (take_append_drop_sublist bus.published hphase.1)
    · cases hqueue : (bus.clients i).queue with
      | nil =>
        rw [Ordered, hcase]
        exact h
      | cons event queue =>
        simp only [Bus.set, Function.update_self]
        rw [Ordered]
        dsimp only
        rw [hqueue] at h
        simpa using h
  | closed =>
    rw [hcase] at h
    rw [Ordered, hcase]
    exact h

/-- Every client's events, and at most one that it is still owed. -/
def Bus.InOrder (bus : Bus ι D) : Prop :=
  ∀ i, (bus.owed i).length ≤ 1 ∧ Ordered bus.published (bus.clients i) (bus.owed i)

variable {config} in
theorem inOrder_step {bus : Bus ι D} (hinv : bus.Inv config) (h : bus.InOrder) {turn : Turn ι D}
    (hidle : ∀ type data, turn = .publish type data → bus.Idle) :
    (bus.step config turn).InOrder := by
  obtain ⟨hsound, hfollows⟩ := hinv
  intro j
  obtain ⟨hone, hordered⟩ := h j
  cases turn with
  | publish type data =>
    have hnone := owed_of_idle (hidle type data rfl) j
    rw [Bus.step, owed_publish, hnone, List.nil_append]
    rw [hnone] at hordered
    obtain ⟨hread, hjoined, -⟩ := hfollows j
    refine ⟨?_, hordered.publish hread hjoined _ ?_⟩
    · split_ifs <;> simp
    · exact fun hlive => if_pos ((hsound.live j).mpr hlive)
  | callback k =>
    rw [Bus.step]
    rcases callback_cases bus k with hsame | ⟨event, i, rest, hflight, hpublished, hclients⟩
    · rw [hsame]
      exact h j
    · have hnodup := hsound.callbacks _ (List.mem_of_getElem? hflight)
      obtain ⟨hothers, hself⟩ := owed_callback hflight hnodup j
      rw [hpublished, hclients]
      by_cases hj : j = i
      · obtain ⟨before, after, hbefore, hafter⟩ := hself hj
        -- it was owed this event alone
        rw [hbefore, List.length_append, List.length_cons] at hone
        have hbeforeNil : before = [] := List.eq_nil_of_length_eq_zero (by omega)
        have hafterNil : after = [] := List.eq_nil_of_length_eq_zero (by omega)
        rw [hbefore, hbeforeNil, hafterNil] at hordered
        rw [hafter, hbeforeNil, hafterNil]
        subst hj
        rw [Function.update_self]
        exact ⟨Nat.zero_le _, hordered.put⟩
      · rw [hothers hj, Function.update_of_ne hj]
        exact h j
  | client i disconnected =>
    obtain ⟨hpublished, hflights, -⟩ := resume_frame config bus i disconnected
    have howed : (bus.resume config i disconnected).owed j = bus.owed j := by
      rw [Bus.owed, hflights, Bus.owed]
    rw [Bus.step, hpublished, howed]
    refine ⟨hone, ?_⟩
    by_cases hj : j = i
    · subst hj
      exact ordered_resume config (hfollows j) hordered disconnected
    · rw [resume_of_ne bus hj]
      exact hordered

/-- Where each publication has called its subscribers before the next one begins, every client is
sent its events in the order of their publication. -/
theorem sent_in_order (turns : List (Turn ι D))
    (hidle : ∀ earlier type data, earlier ++ [.publish type data] <+: turns →
      (run config earlier).Idle) (i : ι) :
    ((run config turns).clients i).sent <+ (run config turns).published := by
  have horder : (run config turns).InOrder := by
    induction turns using List.reverseRecOn with
    | nil => exact fun i => ⟨Nat.zero_le 1, trivial⟩
    | append_singleton turns turn ih =>
      have hearlier := ih fun earlier type data hpre =>
        hidle earlier type data (hpre.trans (List.prefix_append _ _))
      rw [run, List.foldl_append]
      exact inOrder_step (inv_run config turns) hearlier fun type data hturn =>
        hidle turns type data (hturn ▸ List.prefix_rfl)
  obtain ⟨hsound, hfollows⟩ := inv_run config turns
  generalize run config turns = bus at horder hsound hfollows ⊢
  have hordered := (horder i).2
  obtain ⟨-, -, hphase⟩ := hfollows i
  rw [Ordered] at hordered
  have hreplay : replayOf config bus.published i (bus.clients i).read <+ bus.published :=
    (replayOf_sublist config i _).trans (List.take_sublist _ _)
  cases hcase : (bus.clients i).phase with
  | arrived =>
    rw [hcase] at hphase
    rw [hphase.1]
    exact List.nil_sublist _
  | replaying rest =>
    rw [hcase] at hphase
    refine List.Sublist.trans ?_ hreplay
    rw [← hphase.1]
    exact List.sublist_append_left _ _
  | live =>
    rw [hcase] at hphase hordered
    rw [List.append_assoc] at hordered
    exact ((List.sublist_append_left _ _).trans hordered).trans
      (take_append_drop_sublist bus.published hphase.1)
  | closed =>
    rw [hcase] at hordered
    exact hordered

end

/-- A client that subscribes and is sent the one event after that. -/
def oneEvent : List (Turn Unit Unit) :=
  [.client () false, .client () false, .publish "signal" (), .callback 0, .client () false]

theorem oneEvent_in_order :
    ((run ⟨100, fun _ => 0⟩ oneEvent).clients ()).sent <+
      (run ⟨100, fun _ => 0⟩ oneEvent).published := by
  apply sent_in_order
  intro earlier type data hpre
  have hlast := List.prefix_iff_eq_take.mp hpre
  rw [List.length_append, List.length_singleton] at hlast
  have hlength : earlier.length < oneEvent.length := by simpa using hpre.length_le
  have hearlier := List.prefix_iff_eq_take.mp ((List.prefix_append earlier _).trans hpre)
  change _ < 5 at hlength
  generalize earlier.length = n at hlast hlength hearlier
  subst hearlier
  interval_cases n
  all_goals simp [oneEvent] at hlast
  intro flight hflight
  simp [oneEvent, run, Bus.step, Bus.resume, Bus.set] at hflight

end TradeStream.SignalStream
