import TradeStream.Interleaving
import TradeStream.RunSteps

/-! `DeliveryRateLimiter`: calls for one key, a Redis command at a time. The timestamps are
those of the callers' clocks, in any order. -/
namespace TradeStream.DeliveryRateLimiter
open TradeStream.Interleaving TradeStream.RunSteps

structure Limit where
  maxTokens : ℕ
  windowSeconds : ℕ

def defaultLimits : List (String × Limit) :=
  [("telegram", ⟨20, 3600⟩), ("discord", ⟨20, 3600⟩), ("slack", ⟨20, 3600⟩),
    ("webhook", ⟨60, 3600⟩), ("email", ⟨5, 3600⟩), ("sms", ⟨3, 3600⟩)]

def tierMultipliers : List (String × ℚ) := [("free", 1), ("pro", 2), ("power", 3)]

def limitOf (limits : List (String × Limit)) (channel : String) : Limit :=
  (limits.lookup channel).getD ⟨20, 3600⟩

/-- `int(max_tokens * multiplier)`. -/
def effectiveLimit (limit : Limit) (tier : String) : ℕ :=
  ⌊limit.maxTokens * (tierMultipliers.lookup tier).getD 1⌋₊

theorem one_le_multiplier (tier : String) : 1 ≤ (tierMultipliers.lookup tier).getD 1 := by
  cases htier : tierMultipliers.lookup tier with
  | none => rfl
  | some multiplier =>
    obtain ⟨before, after, hsplit, -⟩ := List.lookup_eq_some_iff.mp htier
    have hmem : (tier, multiplier) ∈ tierMultipliers := by simp [hsplit]
    have hall : ∀ entry ∈ tierMultipliers, 1 ≤ entry.2 := by
      norm_num [tierMultipliers]
    exact hall _ hmem

theorem maxTokens_le_effectiveLimit (limit : Limit) (tier : String) :
    limit.maxTokens ≤ effectiveLimit limit tier := by
  apply Nat.le_floor
  exact le_mul_of_one_le_right (Nat.cast_nonneg _) (one_le_multiplier tier)

/-- No channel is shut by its default limit. -/
theorem effectiveLimit_default_pos (channel tier : String) :
    0 < effectiveLimit (limitOf defaultLimits channel) tier := by
  refine lt_of_lt_of_le ?_ (maxTokens_le_effectiveLimit _ tier)
  unfold limitOf
  cases hchannel : defaultLimits.lookup channel with
  | none => decide
  | some limit =>
    obtain ⟨before, after, hsplit, -⟩ := List.lookup_eq_some_iff.mp hchannel
    have hmem : (channel, limit) ∈ defaultLimits := by simp [hsplit]
    have hall : ∀ entry ∈ defaultLimits, 0 < entry.2.maxTokens := by
      simp [defaultLimits]
    exact hall _ hmem

/-- The sorted set of a key. The text of a timestamp is its member and the timestamp its
score, so that equal timestamps are one member. -/
structure SortedSet where
  members : Finset ℚ
  expiresAt : Option ℚ

namespace SortedSet

def empty : SortedSet := ⟨∅, none⟩

/-- What a command finds at a time of the server's clock. -/
def atTime (set : SortedSet) (serverTime : ℚ) : SortedSet :=
  if set.expiresAt.any (· ≤ serverTime) then empty else set

-- a set without members is no key, and has no expiry
def zremrangebyscore (set : SortedSet) (max : ℚ) : SortedSet :=
  let members := set.members.filter (max < ·)
  ⟨members, if members = ∅ then none else set.expiresAt⟩

def zcard (set : SortedSet) : ℕ := set.members.card

def zadd (set : SortedSet) (score : ℚ) : SortedSet :=
  { set with members := insert score set.members }

def expire (set : SortedSet) (serverTime seconds : ℚ) : SortedSet :=
  if set.members = ∅ then set else { set with expiresAt := some (serverTime + seconds) }

end SortedSet

inductive Request where
  | allow
  | remaining
  deriving DecidableEq

/-- The command that a call executes next, or its answer. -/
inductive Phase where
  | trim (request : Request)
  | count (request : Request) (now : ℚ)
  | add (now : ℚ)
  | expire
  | allowed (answer : Bool)
  | remaining (answer : ℕ)

/-- What a command finds: the caller's clock, which is read before the first one, and the
server's. -/
structure Clocks where
  now : ℚ
  serverTime : ℚ

/-- The set, and the timestamps of the calls that were allowed so far. -/
structure Db where
  set : SortedSet
  allowed : List ℚ

def Db.init : Db := ⟨.empty, []⟩

section
variable (limit : Limit) (tier : String)

def executeCommand (clocks : Clocks) (db : Db) (phase : Phase) : Db × Phase :=
  let set := db.set.atTime clocks.serverTime
  match phase with
  | .trim request =>
    ({ db with set := set.zremrangebyscore (clocks.now - limit.windowSeconds) },
      .count request clocks.now)
  | .count .allow now =>
    ({ db with set },
      if effectiveLimit limit tier ≤ set.zcard then .allowed false else .add now)
  | .count .remaining _ => ({ db with set }, .remaining (effectiveLimit limit tier - set.zcard))
  -- what was counted before may have changed by now
  | .add now => (⟨set.zadd now, db.allowed ++ [now]⟩, .expire)
  | .expire =>
    ({ db with set := set.expire clocks.serverTime limit.windowSeconds }, .allowed true)
  | ended => (db, ended)

variable {ι : Type*} [DecidableEq ι]

abbrev Calls (ι : Type*) := World ι Db Phase

def Calls.init (requests : ι → Request) : Calls ι := ⟨.init, fun i => .trim (requests i)⟩

def Calls.step (world : Calls ι) (turn : Turn ι Clocks) : Calls ι :=
  World.step (fun _ => executeCommand limit tier) world turn

/-- The allowed calls of the window that ends at `t`. -/
def inWindow (allowed : List ℚ) (t : ℚ) : List ℚ :=
  allowed.filter fun a => t - limit.windowSeconds < a ∧ a ≤ t

/-- No window has more allowed calls than the limit. -/
def WithinLimit (db : Db) : Prop :=
  ∀ t, (inWindow limit db.allowed t).length ≤ effectiveLimit limit tier

/-- What makes an add safe: its timestamp is new, the set has room in the window, and it
still has every allowed call that is less than a window away. -/
structure SafeToAdd (db : Db) (set : SortedSet) (now : ℚ) : Prop where
  fresh : now ∉ set.members
  room : (set.members.filter (now - limit.windowSeconds < ·)).card < effectiveLimit limit tier
  complete : ∀ a ∈ db.allowed, now - limit.windowSeconds < a → a < now + limit.windowSeconds →
    a ∈ set.members

/-- The condition on a turn: an add is safe in the set that it finds. -/
def AddsSafely (world : Calls ι) (turn : Turn ι Clocks) : Prop :=
  ∀ now, world.processes turn.process = .add now →
    SafeToAdd limit tier world.db (world.db.set.atTime turn.input.serverTime) now

end

/-! ### What an add does to the windows -/

section
variable {limit : Limit} {tier : String}

/-- The bound, and what makes it possible to count: equal timestamps were not allowed
twice. -/
structure Bounded (limit : Limit) (tier : String) (db : Db) : Prop where
  nodup : 0 < limit.windowSeconds → db.allowed.Nodup
  within : WithinLimit limit tier db

theorem bounded_init : Bounded limit tier .init where
  nodup _ := List.nodup_nil
  within t := by simp [inWindow, Db.init]

theorem inWindow_append_singleton (allowed : List ℚ) (now t : ℚ) :
    inWindow limit (allowed ++ [now]) t =
      inWindow limit allowed t ++
        if t - limit.windowSeconds < now ∧ now ≤ t then [now] else [] := by
  rw [inWindow, List.filter_append, ← inWindow]
  by_cases h : t - limit.windowSeconds < now ∧ now ≤ t
  · simp [h]
  · simp [h]

/-- A window that the new timestamp is in has only members of the set. -/
theorem length_inWindow_lt {db : Db} {set : SortedSet} {now t : ℚ}
    (hnodup : db.allowed.Nodup) (hsafe : SafeToAdd limit tier db set now)
    (hlower : t - limit.windowSeconds < now) (hupper : now ≤ t) :
    (inWindow limit db.allowed t).length < effectiveLimit limit tier := by
  have hsubset : (inWindow limit db.allowed t).toFinset ⊆
      set.members.filter (now - limit.windowSeconds < ·) := by
    intro a ha
    rw [List.mem_toFinset, inWindow, List.mem_filter, decide_eq_true_eq] at ha
    obtain ⟨hmem, hafter, hbefore⟩ := ha
    have hnear : now - limit.windowSeconds < a := by linarith
    exact Finset.mem_filter.mpr ⟨hsafe.complete a hmem hnear (by linarith), hnear⟩
  calc
    (inWindow limit db.allowed t).length = (inWindow limit db.allowed t).toFinset.card :=
      (List.toFinset_card_of_nodup (hnodup.filter _)).symm
    _ ≤ (set.members.filter (now - limit.windowSeconds < ·)).card := Finset.card_le_card hsubset
    _ < effectiveLimit limit tier := hsafe.room

theorem bounded_add {db : Db} (h : Bounded limit tier db) {set : SortedSet} {now : ℚ}
    (hsafe : SafeToAdd limit tier db set now) (set' : SortedSet) :
    Bounded limit tier ⟨set', db.allowed ++ [now]⟩ := by
  constructor
  case nodup =>
    intro hwindow
    -- an allowed call at the same time would be a member
    have hnew : now ∉ db.allowed := by
      have hpos : (0 : ℚ) < limit.windowSeconds := by exact_mod_cast hwindow
      intro hmem
      exact hsafe.fresh (hsafe.complete now hmem (by linarith) (by linarith))
    rw [List.nodup_append]
    refine ⟨h.nodup hwindow, List.nodup_singleton now, ?_⟩
    rintro a ha b hb rfl
    rw [List.mem_singleton] at hb
    exact hnew (hb ▸ ha)
  case within =>
    intro t
    -- the window that ends at `t` has one more call or is as it was
    dsimp only
    rw [inWindow_append_singleton]
    split
    next hin =>
      have hwindow : 0 < limit.windowSeconds := by
        have hpos : (0 : ℚ) < limit.windowSeconds := by linarith [hin.1, hin.2]
        exact_mod_cast hpos
      have hlt := length_inWindow_lt (h.nodup hwindow) hsafe hin.1 hin.2
      simpa using hlt
    next =>
      rw [List.append_nil]
      exact h.within t

theorem bounded_executeCommand {db : Db} (h : Bounded limit tier db) (clocks : Clocks)
    (phase : Phase) (hsafe : ∀ now, phase = .add now →
      SafeToAdd limit tier db (db.set.atTime clocks.serverTime) now) :
    Bounded limit tier (executeCommand limit tier clocks db phase).1 := by
  cases phase with
  | add now => exact bounded_add h (hsafe now rfl) _
  -- no other command allows a call
  | count request now => cases request <;> exact ⟨h.nodup, h.within⟩
  | _ => exact ⟨h.nodup, h.within⟩

/-- In a run in which every add is safe no window ever has more allowed calls than the
limit, whatever the order of the commands and of the timestamps. -/
theorem withinLimit_of_addsSafely {ι : Type*} [DecidableEq ι] (limit : Limit) (tier : String)
    (requests : ι → Request) {turns : List (Turn ι Clocks)}
    (hsafe : ∀ earlier turn, earlier ++ [turn] <+: turns →
      AddsSafely limit tier (earlier.foldl (Calls.step limit tier) (.init requests)) turn) :
    ∀ reached, reached <+: turns →
      WithinLimit limit tier (reached.foldl (Calls.step limit tier) (.init requests)).db := by
  have hrun := forall_reached_of_forall_step (Calls.step limit tier)
    (I := fun world : Calls ι => Bounded limit tier world.db) (C := AddsSafely limit tier)
    (fun world turn hbounded hturn => bounded_executeCommand hbounded turn.input _ hturn)
    (show Bounded limit tier (Calls.init requests).db from bounded_init) hsafe
  exact fun reached hpre => (hrun reached hpre).within

end

/-! ### Two callers at once -/

def oneAnHour : Limit := ⟨1, 3600⟩

def bothAllow (_ : Bool) : Request := .allow

/-- Both count before either adds. -/
def crossingCalls : List (Turn Bool Clocks) :=
  [⟨false, ⟨1, 1⟩⟩, ⟨false, ⟨1, 1⟩⟩, ⟨true, ⟨2, 2⟩⟩, ⟨true, ⟨2, 2⟩⟩, ⟨false, ⟨3, 3⟩⟩,
    ⟨true, ⟨3, 3⟩⟩]

theorem crossing_calls_exceed_limit :
    ¬ ∀ reached, reached <+: crossingCalls →
      WithinLimit oneAnHour "free"
        (reached.foldl (Calls.step oneAnHour "free") (.init bothAllow)).db := by
  intro h
  have hallowed : (crossingCalls.foldl (Calls.step oneAnHour "free") (.init bothAllow)).db.allowed =
      [1, 2] := by
    decide +kernel
  have hwindow := h crossingCalls List.prefix_rfl 2
  rw [hallowed] at hwindow
  exact absurd hwindow (by decide +kernel)

/-- One call, up to its add. -/
def singleCall : List (Turn Bool Clocks) :=
  [⟨false, ⟨1, 1⟩⟩, ⟨false, ⟨1, 1⟩⟩, ⟨false, ⟨2, 2⟩⟩]

theorem withinLimit_of_single_call :
    WithinLimit oneAnHour "free"
      (singleCall.foldl (Calls.step oneAnHour "free") (.init bothAllow)).db := by
  refine withinLimit_of_addsSafely oneAnHour "free" bothAllow ?_ singleCall List.prefix_rfl
  rw [← eachStep_iff_forall_step]
  refine ⟨?_, fun _ => ⟨?_, fun _ => ⟨?_, fun _ => trivial⟩⟩⟩
  · intro now h
    cases h
  · intro now h
    cases h
  · -- the set that the add finds is empty
    intro now _
    exact ⟨Finset.notMem_empty now, (Finset.card_filter_le _ _).trans_lt (by decide +kernel),
      fun a ha => absurd ha List.not_mem_nil⟩

end TradeStream.DeliveryRateLimiter
