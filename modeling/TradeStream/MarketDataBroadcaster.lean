import TradeStream.RelationIndex
import TradeStream.RunSteps

/-! `MarketDataBroadcaster` of the market data gateway, with the handler of its clients'
messages. Every section under the lock runs as one step; between two sends of a broadcast, and
before each disconnect that it makes, any other coroutine may run. -/
namespace TradeStream.MarketDataWs
open TradeStream.RelationIndex TradeStream.RunSteps

variable {W M ι : Type*}

/-! ### Channels -/

inductive DataType where
  | trades
  | candles
  | orderbook

def DataType.text : DataType → List Char
  | .trades => "trades".toList
  | .candles => "candles".toList
  | .orderbook => "orderbook".toList

def dataType (text : List Char) : Option DataType :=
  if text = DataType.trades.text then some .trades
  else if text = DataType.candles.text then some .candles
  else if text = DataType.orderbook.text then some .orderbook
  else none

def validateChannel (channel : List Char) : Bool :=
  match channel.splitOn ':' with
  | [] => false
  | text :: rest =>
    if (text :: rest).length < 2 ∨ 3 < (text :: rest).length then false
    else
      match dataType text with
      | none => false
      | some .candles => (text :: rest).length = 3
      | some _ => (text :: rest).length = 2

theorem notMem_of_mem_splitOn {a : Char} {l part : List Char} (h : part ∈ l.splitOn a) :
    a ∉ part := by
  induction l generalizing part with
  | nil =>
    rw [List.splitOn_nil, List.mem_singleton] at h
    simp [h]
  | cons c l ih =>
    rw [List.splitOn_cons_eq_if_modifyHead] at h
    split_ifs at h with hc
    · rcases List.mem_cons.mp h with rfl | hmem
      · exact List.not_mem_nil
      · exact ih hmem
    · cases hsplit : l.splitOn a with
      | nil => simp [hsplit] at h
      | cons first rest =>
        rw [hsplit, List.modifyHead_cons, List.mem_cons] at h
        rcases h with rfl | hmem
        · have hne : a ≠ c := fun heq => hc (by simp [heq])
          exact List.not_mem_cons_of_ne_of_not_mem hne (ih (by simp [hsplit]))
        · exact ih (by simp [hsplit, hmem])

/-- A data type with its pair, and for candles also an interval. -/
def WellFormed (channel : List Char) : Prop :=
  ∃ pair, ':' ∉ pair ∧
    (channel = DataType.trades.text ++ ':' :: pair ∨
      channel = DataType.orderbook.text ++ ':' :: pair ∨
      ∃ interval, ':' ∉ interval ∧
        channel = DataType.candles.text ++ ':' :: (pair ++ ':' :: interval))

theorem eq_of_dataType {text : List Char} {type : DataType} (h : dataType text = some type) :
    text = type.text := by
  unfold dataType at h
  split_ifs at h with htrades hcandles hbook <;> cases h <;> assumption

theorem wellFormed_of_validateChannel {channel : List Char} (h : validateChannel channel = true) :
    WellFormed channel := by
  have hcolon : ∀ part ∈ channel.splitOn ':', ':' ∉ part := fun _ => notMem_of_mem_splitOn
  have hjoin : [':'].intercalate (channel.splitOn ':') = channel := List.intercalate_splitOn ':'
  unfold validateChannel at h
  cases hsplit : channel.splitOn ':' with
  | nil => simp [hsplit] at h
  | cons text rest =>
    rw [hsplit] at h hcolon hjoin
    cases htype : dataType text with
    | none => simp [htype] at h
    | some type =>
      obtain rfl := eq_of_dataType htype
      -- two parts, or three
      match rest, type with
      | [], _ => simp at h
      | [pair], .trades => exact ⟨pair, hcolon pair (by simp), .inl (by simpa using hjoin.symm)⟩
      | [pair], .orderbook =>
        exact ⟨pair, hcolon pair (by simp), .inr (.inl (by simpa using hjoin.symm))⟩
      | [pair], .candles => simp [htype] at h
      | [pair, interval], .candles =>
        exact ⟨pair, hcolon pair (by simp),
          .inr (.inr ⟨interval, hcolon interval (by simp), by simpa using hjoin.symm⟩)⟩
      | [pair, interval], .trades => simp [htype] at h
      | [pair, interval], .orderbook => simp [htype] at h
      | _ :: _ :: _ :: _, _ => simp at h

/-! ### The broadcaster -/

structure Broadcaster (W : Type*) where
  subscriptions : Index (List Char) W := fun _ => none
  clientChannels : Index W (List Char) := fun _ => none

section
variable [DecidableEq W]

namespace Broadcaster

/-- The new state, and whether the client is newly subscribed. -/
def subscribe (b : Broadcaster W) (ws : W) (channel : List Char) : Broadcaster W × Bool :=
  if validateChannel channel then
    if ws ∈ elements b.subscriptions channel then (b, false)
    else (⟨add b.subscriptions channel ws, add b.clientChannels ws channel⟩, true)
  else (b, false)

/-- The new state, and whether the client was subscribed. -/
def unsubscribe (b : Broadcaster W) (ws : W) (channel : List Char) : Broadcaster W × Bool :=
  if ws ∈ elements b.subscriptions channel then
    (⟨discard b.subscriptions channel ws, discard b.clientChannels ws channel⟩, true)
  else (b, false)

def disconnect (b : Broadcaster W) (ws : W) : Broadcaster W where
  subscriptions :=
    (elements b.clientChannels ws).foldl (fun d channel => discard d channel ws) b.subscriptions
  clientChannels := remove b.clientChannels ws

def getSubscriberCount (b : Broadcaster W) (channel : List Char) : ℕ :=
  (elements b.subscriptions channel).length

def getClientChannels (b : Broadcaster W) (ws : W) : List (List Char) :=
  elements b.clientChannels ws

end Broadcaster

/-- A client's message, by its `type`. -/
inductive Message where
  | subscribe (channel : List Char)
  | unsubscribe (channel : List Char)
  | ping
  | listSubscriptions
  | other (type : String)

inductive Reply where
  | invalidChannel (channel : List Char)
  | subscribed (channel : List Char) (alreadySubscribed : Bool)
  | unsubscribed (channel : List Char) (wasSubscribed : Bool)
  | pong
  | subscriptions (channels : List (List Char))
  | unknownMessageType (type : String)

/-- `_handle_message`, up to the reply. -/
def handleMessage (b : Broadcaster W) (ws : W) : Message → Broadcaster W × Reply
  | .subscribe channel =>
    if validateChannel channel then
      let (b, added) := b.subscribe ws channel
      (b, .subscribed channel !added)
    else (b, .invalidChannel channel)
  | .unsubscribe channel =>
    let (b, removed) := b.unsubscribe ws channel
    (b, .unsubscribed channel removed)
  | .ping => (b, .pong)
  | .listSubscriptions => (b, .subscriptions ((b.getClientChannels ws).mergeSort (· ≤ ·)))
  | .other type => (b, .unknownMessageType type)

end

/-- A call of `broadcast` after its snapshot: the sockets to which it has still to send, and those
it has still to disconnect. -/
structure Broadcast (W M : Type*) where
  channel : List Char
  payload : M
  waiting : List W
  disconnected : List W

/-- What is seen from outside of the steps taken. -/
inductive Action (W M ι : Type*) where
  | handled (ws : W) (message : Message) (reply : Reply)
  | left (ws : W)
  | started (i : ι) (channel : List Char) (payload : M)
  | sent (i : ι) (ws : W) (ok : Bool)
  | dropped (i : ι) (ws : W)

structure Gateway (W M ι : Type*) where
  broadcaster : Broadcaster W := {}
  broadcasts : ι → Option (Broadcast W M) := fun _ => none
  log : List (Action W M ι) := []

/-- A turn of one coroutine: a client's message, the end of a client's connection, or a call
`i` of `broadcast` that starts, sends to the next socket (`ok` unless that raises), or disconnects
the next one that it has failed to send to. -/
inductive Turn (W M ι : Type*) where
  | receive (ws : W) (message : Message)
  | leave (ws : W)
  | start (i : ι) (channel : List Char) (payload : M)
  | send (i : ι) (ok : Bool)
  | drop (i : ι)

section
variable [DecidableEq W] [DecidableEq ι]

def Gateway.step (g : Gateway W M ι) : Turn W M ι → Gateway W M ι
  | .receive ws message =>
    let (b, reply) := handleMessage g.broadcaster ws message
    { g with broadcaster := b, log := g.log ++ [.handled ws message reply] }
  | .leave ws =>
    { g with broadcaster := g.broadcaster.disconnect ws, log := g.log ++ [.left ws] }
  | .start i channel payload =>
    match g.broadcasts i with
    | some _ => g
    | none =>
      { g with
        broadcasts := Function.update g.broadcasts i
          (some ⟨channel, payload, elements g.broadcaster.subscriptions channel, []⟩)
        log := g.log ++ [.started i channel payload] }
  | .send i ok =>
    match g.broadcasts i with
    | some ⟨channel, payload, ws :: waiting, disconnected⟩ =>
      { g with
        broadcasts := Function.update g.broadcasts i
          (some ⟨channel, payload, waiting,
            if ok then disconnected else disconnected ++ [ws]⟩)
        log := g.log ++ [.sent i ws ok] }
    | _ => g
  | .drop i =>
    match g.broadcasts i with
    | some ⟨channel, payload, [], ws :: disconnected⟩ =>
      { g with
        broadcaster := g.broadcaster.disconnect ws
        broadcasts := Function.update g.broadcasts i
          (some ⟨channel, payload, [], disconnected⟩)
        log := g.log ++ [.dropped i ws] }
    | _ => g

end

/-! ### What the log says -/

/-- Whether a client is subscribed to a channel after one more action. -/
def holdsAfter (ws : W) (channel : List Char) (held : Prop) : Action W M ι → Prop
  | .handled w (.subscribe c) (.subscribed _ _) => held ∨ w = ws ∧ c = channel
  | .handled w (.unsubscribe c) _ => held ∧ ¬ (w = ws ∧ c = channel)
  | .handled _ _ _ => held
  | .left w => held ∧ w ≠ ws
  | .dropped _ w => held ∧ w ≠ ws
  | .started _ _ _ => held
  | .sent _ _ _ => held

/-- The client has subscribed to the channel, and neither unsubscribed nor been disconnected since. -/
def Holds (log : List (Action W M ι)) (ws : W) (channel : List Char) : Prop :=
  log.foldl (holdsAfter ws channel) False

section
variable [DecidableEq ι]

def sentBy (i : ι) : Action W M ι → Option W
  | .sent j ws _ => if j = i then some ws else none
  | _ => none

def failedBy (i : ι) : Action W M ι → Option W
  | .sent j ws false => if j = i then some ws else none
  | _ => none

def droppedBy (i : ι) : Action W M ι → Option W
  | .dropped j ws => if j = i then some ws else none
  | _ => none

end

theorem pairwise_mergeSort_le (l : List (List Char)) :
    (l.mergeSort (· ≤ ·)).Pairwise (· ≤ ·) := by
  have htrans : ∀ a b c : List Char, decide (a ≤ b) → decide (b ≤ c) → decide (a ≤ c) := by
    intro a b c hab hbc
    simp only [decide_eq_true_eq] at hab hbc ⊢
    exact le_trans hab hbc
  have htotal : ∀ a b : List Char, decide (a ≤ b) || decide (b ≤ a) := by
    intro a b
    simpa using le_total a b
  simpa using List.pairwise_mergeSort htrans htotal l

/-! ### One section under the lock -/

/-- Both dictionaries say `held`, whose channels are all valid. -/
structure Mirrors (b : Broadcaster W) (held : W → List Char → Prop) : Prop where
  subscriptions : Represents b.subscriptions fun channel ws => held ws channel
  clientChannels : Represents b.clientChannels held
  valid : ∀ ws channel, held ws channel → validateChannel channel = true

theorem Mirrors.congr {b : Broadcaster W} {held held' : W → List Char → Prop}
    (h : Mirrors b held) (heq : ∀ ws channel, held ws channel ↔ held' ws channel) :
    Mirrors b held' := by
  have hfun : held = held' := by
    funext ws channel
    exact propext (heq ws channel)
  rwa [← hfun]

section
variable [DecidableEq W]

theorem mirrors_subscribe {b : Broadcaster W} {held : W → List Char → Prop} (h : Mirrors b held)
    (ws : W) {channel : List Char} (hvalid : validateChannel channel = true) :
    Mirrors (b.subscribe ws channel).1 fun w c => held w c ∨ w = ws ∧ c = channel := by
  rw [Broadcaster.subscribe, if_pos hvalid]
  split_ifs with hmem
  · have hheld := (h.subscriptions.mem_iff channel ws).mp hmem
    apply h.congr
    rintro w c
    constructor
    · exact Or.inl
    · rintro (hold | ⟨rfl, rfl⟩)
      · exact hold
      · exact hheld
  · constructor
    · simpa only [and_comm] using represents_add h.subscriptions channel ws
    · exact represents_add h.clientChannels ws channel
    · rintro w c (hold | ⟨-, rfl⟩)
      · exact h.valid w c hold
      · exact hvalid

theorem mirrors_unsubscribe {b : Broadcaster W} {held : W → List Char → Prop}
    (h : Mirrors b held) (ws : W) (channel : List Char) :
    Mirrors (b.unsubscribe ws channel).1 fun w c => held w c ∧ ¬ (w = ws ∧ c = channel) := by
  rw [Broadcaster.unsubscribe]
  split_ifs with hmem
  · constructor
    · simpa only [and_comm] using represents_discard h.subscriptions channel ws
    · exact represents_discard h.clientChannels ws channel
    · exact fun w c hold => h.valid w c hold.1
  · rw [h.subscriptions.mem_iff] at hmem
    apply h.congr
    intro w c
    constructor
    · intro hold
      refine ⟨hold, ?_⟩
      rintro ⟨rfl, rfl⟩
      exact hmem hold
    · exact And.left

/-- The loop takes the client out of the set of each of its channels, so out of all. -/
theorem mirrors_disconnect {b : Broadcaster W} {held : W → List Char → Prop} (h : Mirrors b held)
    (ws : W) : Mirrors (b.disconnect ws) fun w c => held w c ∧ w ≠ ws := by
  constructor
  · have hloop := represents_foldl_discard h.subscriptions (elements b.clientChannels ws) ws
    have hrel : (fun c w => held w c ∧ ¬ (c ∈ elements b.clientChannels ws ∧ w = ws)) =
        fun c w => held w c ∧ w ≠ ws := by
      funext c w
      rw [h.clientChannels.mem_iff, eq_iff_iff]
      constructor
      · rintro ⟨hold, hnot⟩
        refine ⟨hold, ?_⟩
        rintro rfl
        exact hnot ⟨hold, rfl⟩
      · rintro ⟨hold, hne⟩
        exact ⟨hold, fun hws => hne hws.2⟩
    rwa [hrel] at hloop
  · exact represents_remove h.clientChannels ws
  · exact fun w c hold => h.valid w c hold.1

theorem mirrors_handleMessage {b : Broadcaster W} {held : W → List Char → Prop}
    (h : Mirrors b held) (ws : W) (message : Message) :
    Mirrors (handleMessage b ws message).1 fun w c =>
      holdsAfter (M := M) (ι := ι) w c (held w c)
        (.handled ws message (handleMessage b ws message).2) := by
  cases message with
  | subscribe channel =>
    rw [handleMessage]
    split_ifs with hvalid
    · apply (mirrors_subscribe h ws hvalid).congr
      intro w c
      simp only [holdsAfter, eq_comm]
    · exact h
  | unsubscribe channel =>
    apply (mirrors_unsubscribe h ws channel).congr
    intro w c
    simp only [holdsAfter, eq_comm]
  | ping => exact h
  | listSubscriptions => exact h
  | other type => exact h

end

theorem holds_concat (log : List (Action W M ι)) (a : Action W M ι) (ws : W)
    (channel : List Char) :
    Holds (log ++ [a]) ws channel = holdsAfter ws channel (Holds log ws channel) a := by
  rw [Holds, List.foldl_append, List.foldl_cons, List.foldl_nil, Holds]

/-- An action that leaves the dictionaries alone. -/
theorem Mirrors.log {b : Broadcaster W} {log : List (Action W M ι)} (h : Mirrors b (Holds log))
    {a : Action W M ι} (ha : ∀ ws channel held, holdsAfter ws channel held a = held) :
    Mirrors b (Holds (log ++ [a])) := by
  apply h.congr
  intro ws channel
  rw [holds_concat, ha]

/-! ### Runs -/

/-- The dictionaries say what the log says. -/
def Gateway.Mirrors (g : Gateway W M ι) : Prop :=
  MarketDataWs.Mirrors g.broadcaster (Holds g.log)

variable [DecidableEq W] in
theorem Mirrors.disconnected {b : Broadcaster W} {log : List (Action W M ι)}
    (h : MarketDataWs.Mirrors b (Holds log)) (ws : W) {a : Action W M ι}
    (ha : ∀ w c held, holdsAfter w c held a = (held ∧ ws ≠ w)) :
    MarketDataWs.Mirrors (b.disconnect ws) (Holds (log ++ [a])) := by
  apply (mirrors_disconnect h ws).congr
  intro w c
  rw [holds_concat, ha]
  exact and_congr_right fun _ => ne_comm

variable [DecidableEq W] [DecidableEq ι] in
theorem mirrors_step {g : Gateway W M ι} (h : g.Mirrors) (turn : Turn W M ι) :
    (g.step turn).Mirrors := by
  cases turn with
  | receive ws message =>
    apply (mirrors_handleMessage h ws message).congr
    intro w c
    exact (holds_concat g.log _ w c).symm.to_iff
  | leave ws => exact Mirrors.disconnected h ws fun _ _ _ => rfl
  | start i channel payload =>
    simp only [Gateway.step]
    split
    · exact h
    · exact Mirrors.log h fun _ _ _ => rfl
  | send i ok =>
    simp only [Gateway.step]
    split
    · exact Mirrors.log h fun _ _ _ => rfl
    · exact h
  | drop i =>
    simp only [Gateway.step]
    split
    · exact Mirrors.disconnected h _ fun _ _ _ => rfl
    · exact h

section
variable [DecidableEq ι]

/-- An action that no turn of call `i` after its start takes. -/
def Apart (i : ι) (a : Action W M ι) : Prop := sentBy i a = none ∧ droppedBy i a = none

theorem Apart.failedBy {i : ι} {a : Action W M ι} (h : Apart i a) : failedBy i a = none := by
  cases a with
  | sent j ws ok =>
    cases ok with
    | true => rfl
    | false => exact h.1
  | _ => rfl

theorem apart_sent_of_ne {i j : ι} (h : j ≠ i) (ws : W) (ok : Bool) :
    Apart j (Action.sent (M := M) i ws ok) := ⟨if_neg h.symm, rfl⟩

theorem apart_dropped_of_ne {i j : ι} (h : j ≠ i) (ws : W) :
    Apart j (Action.dropped (M := M) i ws) := ⟨rfl, if_neg h.symm⟩

/-- Where call `i` stands: the log is `later` beyond its start. -/
structure Delivers (log : List (Action W M ι)) (i : ι) (b : Broadcast W M)
    (earlier later : List (Action W M ι)) : Prop where
  split : log = earlier ++ .started i b.channel b.payload :: later
  fresh : ∀ a ∈ earlier, Apart i a
  once : (later.filterMap (sentBy i) ++ b.waiting).Nodup
  recipients : ∀ ws, ws ∈ later.filterMap (sentBy i) ++ b.waiting ↔ Holds earlier ws b.channel
  failed : later.filterMap (failedBy i) = later.filterMap (droppedBy i) ++ b.disconnected

theorem Delivers.other {log : List (Action W M ι)} {i : ι} {b : Broadcast W M}
    {earlier later : List (Action W M ι)} (h : Delivers log i b earlier later)
    {a : Action W M ι} (ha : Apart i a) : Delivers (log ++ [a]) i b earlier (later ++ [a]) where
  split := by rw [h.split, List.append_assoc, List.cons_append]
  fresh := h.fresh
  once := by simpa [List.filterMap_append, ha.1] using h.once
  recipients := by simpa [List.filterMap_append, ha.1] using h.recipients
  failed := by simpa [List.filterMap_append, ha.2, ha.failedBy] using h.failed

theorem Delivers.sent {log : List (Action W M ι)} {i : ι} {channel : List Char} {payload : M}
    {ws : W} {waiting disconnected : List W} {earlier later : List (Action W M ι)}
    (h : Delivers log i ⟨channel, payload, ws :: waiting, disconnected⟩ earlier later)
    (ok : Bool) :
    Delivers (log ++ [.sent i ws ok]) i
      ⟨channel, payload, waiting, if ok then disconnected else disconnected ++ [ws]⟩
      earlier (later ++ [.sent i ws ok]) where
  split := by rw [h.split, List.append_assoc, List.cons_append]
  fresh := h.fresh
  once := by simpa [List.filterMap_append, List.filterMap_cons, sentBy] using h.once
  recipients := by simpa [List.filterMap_append, List.filterMap_cons, sentBy] using h.recipients
  failed := by
    have hfailed := h.failed
    cases ok with
    | true => simpa [List.filterMap_append, List.filterMap_cons, failedBy, droppedBy] using hfailed
    | false => simp [List.filterMap_append, List.filterMap_cons, failedBy, droppedBy, hfailed]

theorem Delivers.dropped {log : List (Action W M ι)} {i : ι} {channel : List Char} {payload : M}
    {ws : W} {disconnected : List W} {earlier later : List (Action W M ι)}
    (h : Delivers log i ⟨channel, payload, [], ws :: disconnected⟩ earlier later) :
    Delivers (log ++ [.dropped i ws]) i ⟨channel, payload, [], disconnected⟩ earlier
      (later ++ [.dropped i ws]) where
  split := by rw [h.split, List.append_assoc, List.cons_append]
  fresh := h.fresh
  once := by simpa [List.filterMap_append, List.filterMap_cons, sentBy] using h.once
  recipients := by simpa [List.filterMap_append, List.filterMap_cons, sentBy] using h.recipients
  failed := by simp [List.filterMap_append, List.filterMap_cons, failedBy, droppedBy, h.failed]

/-- What is known of every call, those to come included. -/
structure Gateway.Accounts (g : Gateway W M ι) : Prop where
  mirrors : g.Mirrors
  unstarted : ∀ i, g.broadcasts i = none → ∀ a ∈ g.log, Apart i a
  started : ∀ i b, g.broadcasts i = some b → ∃ earlier later, Delivers g.log i b earlier later

/-- A step that takes no turn of a call. -/
theorem Gateway.Accounts.other {g : Gateway W M ι} (h : g.Accounts) {b : Broadcaster W}
    {a : Action W M ι} (hmirrors : Gateway.Mirrors ⟨b, g.broadcasts, g.log ++ [a]⟩)
    (ha : ∀ i, Apart i a) :
    Gateway.Accounts ⟨b, g.broadcasts, g.log ++ [a]⟩ where
  mirrors := hmirrors
  unstarted i hi a' ha' := by
    rcases List.mem_append.mp ha' with hmem | hmem
    · exact h.unstarted i hi a' hmem
    · rw [List.mem_singleton.mp hmem]
      exact ha i
  started i b hi := by
    obtain ⟨earlier, later, hdelivers⟩ := h.started i b hi
    exact ⟨earlier, later ++ [a], hdelivers.other (ha i)⟩

/-- A step that takes a turn of call `i`, and leaves it at `b'`. -/
theorem Gateway.Accounts.turn {g : Gateway W M ι} (h : g.Accounts) {b : Broadcaster W} {i : ι}
    {b' : Broadcast W M} {a : Action W M ι}
    (hmirrors : Gateway.Mirrors ⟨b, Function.update g.broadcasts i (some b'), g.log ++ [a]⟩)
    (ha : ∀ j ≠ i, Apart j a)
    (hdelivers : ∃ earlier later, Delivers (g.log ++ [a]) i b' earlier later) :
    Gateway.Accounts ⟨b, Function.update g.broadcasts i (some b'), g.log ++ [a]⟩ where
  mirrors := hmirrors
  unstarted j hj a' ha' := by
    have hne : j ≠ i := by
      rintro rfl
      simp at hj
    replace hj : g.broadcasts j = none := by simpa [Function.update_of_ne hne] using hj
    rcases List.mem_append.mp ha' with hmem | hmem
    · exact h.unstarted j hj a' hmem
    · rw [List.mem_singleton.mp hmem]
      exact ha j hne
  started j c hj := by
    by_cases hji : j = i
    · subst hji
      obtain rfl : b' = c := by simpa using hj
      exact hdelivers
    · replace hj : g.broadcasts j = some c := by simpa [Function.update_of_ne hji] using hj
      obtain ⟨earlier, later, hother⟩ := h.started j c hj
      exact ⟨earlier, later ++ [a], hother.other (ha j hji)⟩

/-- The snapshot is the set of those that hold the channel. -/
theorem delivers_started {g : Gateway W M ι} (h : g.Accounts) {i : ι}
    (hi : g.broadcasts i = none) (channel : List Char) (payload : M) :
    Delivers (g.log ++ [.started i channel payload]) i
      ⟨channel, payload, elements g.broadcaster.subscriptions channel, []⟩ g.log [] where
  split := rfl
  fresh := h.unstarted i hi
  once := h.mirrors.subscriptions.nodup channel
  recipients ws := h.mirrors.subscriptions.mem_iff channel ws
  failed := rfl

variable [DecidableEq W]

theorem accounts_step {g : Gateway W M ι} (h : g.Accounts) (turn : Turn W M ι) :
    (g.step turn).Accounts := by
  have hmirrors := mirrors_step h.mirrors turn
  cases turn with
  | receive ws message => exact h.other hmirrors fun _ => ⟨rfl, rfl⟩
  | leave ws => exact h.other hmirrors fun _ => ⟨rfl, rfl⟩
  | start i channel payload =>
    simp only [Gateway.step] at hmirrors ⊢
    split at hmirrors
    · exact h
    · rename_i hi
      exact h.turn hmirrors (fun _ _ => ⟨rfl, rfl⟩) ⟨_, _, delivers_started h hi channel payload⟩
  | send i ok =>
    simp only [Gateway.step] at hmirrors ⊢
    split at hmirrors
    · rename_i hi
      obtain ⟨earlier, later, hdelivers⟩ := h.started i _ hi
      exact h.turn hmirrors (fun j hne => apart_sent_of_ne hne _ ok) ⟨_, _, hdelivers.sent ok⟩
    · exact h
  | drop i =>
    simp only [Gateway.step] at hmirrors ⊢
    split at hmirrors
    · rename_i hi
      obtain ⟨earlier, later, hdelivers⟩ := h.started i _ hi
      exact h.turn hmirrors (fun j hne => apart_dropped_of_ne hne _) ⟨_, _, hdelivers.dropped⟩
    · exact h

theorem accounts_run (turns : List (Turn W M ι)) :
    (turns.foldl Gateway.step ({} : Gateway W M ι)).Accounts := by
  apply List.foldlRecOn
  · constructor
    · constructor
      · constructor <;> simp [elements, Holds]
      · constructor <;> simp [elements, Holds]
      · simp [Holds]
    · simp
    · simp
  · exact fun g hg turn _ => accounts_step hg turn

/-- The two dictionaries, the subscriber counts and the lists that clients are told agree with
what the log says, and hold nothing else. -/
structure Gateway.Agrees (g : Gateway W M ι) : Prop where
  subscribers : ∀ ws channel,
    ws ∈ elements g.broadcaster.subscriptions channel ↔ Holds g.log ws channel
  channels : ∀ ws channel,
    channel ∈ g.broadcaster.getClientChannels ws ↔ Holds g.log ws channel
  counted : ∀ channel,
    (g.broadcaster.getSubscriberCount channel : ℕ∞) = Set.encard {ws | Holds g.log ws channel}
  listed : ∀ ws, ∃ channels,
    (handleMessage g.broadcaster ws .listSubscriptions).2 = .subscriptions channels ∧
      channels.Pairwise (· ≤ ·) ∧ channels.Nodup ∧
      ∀ channel, channel ∈ channels ↔ Holds g.log ws channel
  noEmptySet : (∀ channel, g.broadcaster.subscriptions channel ≠ some []) ∧
    ∀ ws, g.broadcaster.clientChannels ws ≠ some []
  wellFormed : ∀ ws channel, Holds g.log ws channel → WellFormed channel

/-- In every interleaving. -/
theorem run_agrees (turns : List (Turn W M ι)) :
    (turns.foldl Gateway.step ({} : Gateway W M ι)).Agrees := by
  have h := (accounts_run turns).mirrors
  constructor
  · exact fun ws channel => h.subscriptions.mem_iff channel ws
  · exact h.clientChannels.mem_iff
  · exact h.subscriptions.length_elements
  · intro ws
    refine ⟨_, rfl, pairwise_mergeSort_le _, ?_, ?_⟩
    · rw [(List.mergeSort_perm _ _).nodup_iff]
      exact h.clientChannels.nodup ws
    · intro channel
      rw [List.mem_mergeSort]
      exact h.clientChannels.mem_iff ws channel
  · exact ⟨h.subscriptions.nonempty, h.clientChannels.nonempty⟩
  · exact fun ws channel hheld => wellFormed_of_validateChannel (h.valid ws channel hheld)

/-- A call that has returned has sent once to each socket that held the channel when it started,
and to no other, and has disconnected those that it failed to send to. -/
theorem broadcast_delivers (turns : List (Turn W M ι)) (i : ι) (channel : List Char) (payload : M)
    (hreturned : (turns.foldl Gateway.step ({} : Gateway W M ι)).broadcasts i =
      some ⟨channel, payload, [], []⟩) :
    ∃ earlier later, (turns.foldl Gateway.step ({} : Gateway W M ι)).log =
        earlier ++ .started i channel payload :: later ∧
      ((turns.foldl Gateway.step ({} : Gateway W M ι)).log.filterMap (sentBy i)).Nodup ∧
      (∀ ws, ws ∈ (turns.foldl Gateway.step ({} : Gateway W M ι)).log.filterMap (sentBy i) ↔
        Holds earlier ws channel) ∧
      later.filterMap (droppedBy i) = later.filterMap (failedBy i) := by
  obtain ⟨earlier, later, h⟩ := (accounts_run turns).started i _ hreturned
  have hnone : earlier.filterMap (sentBy i) = [] := by
    rw [List.filterMap_eq_nil_iff]
    exact fun a ha => (h.fresh a ha).1
  have hsent : (turns.foldl Gateway.step ({} : Gateway W M ι)).log.filterMap (sentBy i) =
      later.filterMap (sentBy i) := by
    rw [h.split, List.filterMap_append, hnone]
    rfl
  refine ⟨earlier, later, h.split, ?_, ?_, ?_⟩
  · rw [hsent]
    simpa using h.once
  · intro ws
    rw [hsent]
    simpa using h.recipients ws
  · simpa using h.failed.symm

end

/-- A client that has subscribed is sent a trade, and does not take it. -/
def deafClient : List (Turn ℕ ℕ ℕ) :=
  [.receive 7 (.subscribe "trades:BTC-USD".toList), .start 0 "trades:BTC-USD".toList 42,
    .send 0 false, .drop 0]

theorem deafClient_delivers :
    ∃ earlier later, (deafClient.foldl Gateway.step ({} : Gateway ℕ ℕ ℕ)).log =
        earlier ++ .started 0 "trades:BTC-USD".toList 42 :: later ∧
      ((deafClient.foldl Gateway.step ({} : Gateway ℕ ℕ ℕ)).log.filterMap (sentBy 0)).Nodup ∧
      (∀ ws, ws ∈ (deafClient.foldl Gateway.step ({} : Gateway ℕ ℕ ℕ)).log.filterMap (sentBy 0) ↔
        Holds earlier ws "trades:BTC-USD".toList) ∧
      later.filterMap (droppedBy 0) = later.filterMap (failedBy 0) :=
  broadcast_delivers deafClient 0 _ 42 rfl

end TradeStream.MarketDataWs
