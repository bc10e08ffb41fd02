import TradeStream.RunSteps

/-! The run locks of the autonomous runner: what the `LockManager`s of any processes do on
one Redis, command by command. A process of its own is each run of a program: a restarted
instance is another process, which may have the same instance id. Times are seconds. -/
namespace TradeStream.RunLock
open TradeStream.RunSteps

def lockStaleThreshold : ℚ := 120

/-- The value of a lock's key. -/
structure LockValue where
  instanceId : String
  acquiredAt : ℚ
  pid : ℕ
  deriving DecidableEq

/-- `RELEASE_LOCK_SCRIPT`: the key after it. -/
def releaseLockScript (current : Option LockValue) (instanceId : String) : Option LockValue :=
  match current with
  | some data => if data.instanceId = instanceId then none else some data
  | none => none

/-- `RECOVER_LOCK_SCRIPT`: the key after it, and whether it has been set. -/
def recoverLockScript (current : Option LockValue) (newValue : LockValue) (owner : String) :
    Option LockValue × Bool :=
  match releaseLockScript current owner with
  | some data => (some data, false)
  | none => (some newValue, true)

/-- The recovery sets the key only if it was free or still had the owner that was read. -/
theorem recoverLockScript_eq {current value : Option LockValue} {newValue : LockValue}
    {owner : String} (h : recoverLockScript current newValue owner = (value, true)) :
    value = some newValue ∧
      (current = none ∨ current.map LockValue.instanceId = some owner) := by
  cases current with
  | none =>
    simp only [recoverLockScript, releaseLockScript, Prod.mk.injEq, and_true] at h
    exact ⟨h.symm, .inl rfl⟩
  | some data =>
    by_cases howner : data.instanceId = owner
    · simp only [recoverLockScript, releaseLockScript, howner, ↓reduceIte, Prod.mk.injEq,
        and_true] at h
      exact ⟨h.symm, .inr (by simp [howner])⟩
    · simp [recoverLockScript, releaseLockScript, howner] at h

/-- Where a process is with a symbol: before `acquire`, and in it after the SET has failed,
after it has read the owner of the lock, and after it has found the lock stale. -/
inductive Phase where
  | idle
  | failed
  | seen (owner : String)
  | stale (owner : String)
  | holding
  deriving DecidableEq

/-- A running program. -/
structure Process where
  instanceId : String
  pid : ℕ

/-- The commands, with the clock of the process and whether the call raises, and what else
happens. -/
inductive Event (ι : Type*) where
  | acquire (p : ι) (symbol : String) (now : ℚ) (raises : Bool)
  | get (p : ι) (symbol : String) (now : ℚ) (raises : Bool)
  | exists (p : ι) (symbol : String) (raises : Bool)
  | recover (p : ι) (symbol : String) (now : ℚ) (raises : Bool)
  | release (p : ι) (symbol : String) (raises : Bool)
  | startHeartbeat (p : ι)
  | refresh (p : ι)
  | stopHeartbeat (p : ι)
  | stop (p : ι)
  | expireLock (symbol : String)
  | expireHeartbeat (instanceId : String)

/-- The process that an event is a command of. -/
def Event.process {ι : Type*} : Event ι → Option ι
  | .acquire p _ _ _ | .get p _ _ _ | .exists p _ _ | .recover p _ _ _ | .release p _ _ => some p
  | .startHeartbeat p | .refresh p | .stopHeartbeat p | .stop p => some p
  | .expireLock _ | .expireHeartbeat _ => none

/-- The keys, and the processes. -/
structure World (ι : Type*) where
  locks : String → Option LockValue
  heartbeats : String → Bool
  running : ι → Bool
  phases : ι → String → Phase
  refreshing : ι → Bool

section
variable {ι : Type*}

def World.init : World ι where
  locks := fun _ => none
  heartbeats := fun _ => false
  running := fun _ => true
  phases := fun _ _ => .idle
  refreshing := fun _ => false

variable (processes : ι → Process)

def lockValue (p : ι) (now : ℚ) : LockValue := ⟨(processes p).instanceId, now, (processes p).pid⟩

/-- The owner of a lock still has it: some process of its instance is between `acquire` and
`release`. -/
def World.OwnerHolds (w : World ι) (symbol : String) : Prop :=
  ∃ p, w.phases p symbol = .holding ∧
    (w.locks symbol).map LockValue.instanceId = some (processes p).instanceId

/-- Some process of the instance refreshes its heartbeat. -/
def World.Refreshed (w : World ι) (instanceId : String) : Prop :=
  ∃ p, w.refreshing p = true ∧ (processes p).instanceId = instanceId

/-- At most one running process is between `acquire` and `release` of a symbol. -/
def MutuallyExclusive (w : World ι) : Prop :=
  ∀ symbol p q, w.phases p symbol = .holding → w.phases q symbol = .holding → p = q

/-- A recovery deletes only a lock that no running process holds. -/
def RecoversAbandoned (w : World ι) : Event ι → Prop
  | .recover p symbol _ raises => w.running p = true → raises = false → ∀ owner,
      w.phases p symbol = .stale owner →
      (w.locks symbol).map LockValue.instanceId = some owner →
        ∀ q, w.phases q symbol ≠ .holding
  | _ => True

/-- A process that holds a symbol has its lock, alone. -/
def Owned (w : World ι) : Prop :=
  ∀ symbol p, w.phases p symbol = .holding →
    (w.locks symbol).map LockValue.instanceId = some (processes p).instanceId ∧
      ∀ q, w.phases q symbol = .holding → q = p

variable {processes}

/-- Where no lock is, nobody holds the symbol. -/
theorem Owned.free {w : World ι} (h : Owned processes w) {symbol : String}
    (hlock : w.locks symbol = none) (p : ι) : w.phases p symbol ≠ .holding := by
  intro hholds
  have howner := (h symbol p hholds).1
  rw [hlock] at howner
  cases howner

theorem Owned.mutuallyExclusive {w : World ι} (h : Owned processes w) : MutuallyExclusive w :=
  fun symbol p q hp hq => ((h symbol p hp).2 q hq).symm

end

section
variable {ι : Type*} [DecidableEq ι]

def World.goTo (w : World ι) (p : ι) (symbol : String) (phase : Phase) : World ι :=
  { w with phases := Function.update w.phases p (Function.update (w.phases p) symbol phase) }

def World.setLock (w : World ι) (symbol : String) (value : Option LockValue) : World ι :=
  { w with locks := Function.update w.locks symbol value }

section
variable [Fintype ι] (processes : ι → Process)

instance (w : World ι) (symbol : String) : Decidable (w.OwnerHolds processes symbol) :=
  inferInstanceAs (Decidable (∃ _, _))

instance (w : World ι) (instanceId : String) : Decidable (w.Refreshed processes instanceId) :=
  inferInstanceAs (Decidable (∃ _, _))

/-- One event. A key does not expire while its owner keeps it. -/
def World.command (w : World ι) : Event ι → World ι
  | .acquire p symbol now raises =>
    match w.phases p symbol with
    | .idle =>
      match raises, w.locks symbol with
      -- SET with NX and EX
      | false, none => (w.setLock symbol (some (lockValue processes p now))).goTo p symbol .holding
      | _, _ => w.goTo p symbol .failed
    | _ => w
  | .get p symbol now raises =>
    match w.phases p symbol with
    | .failed =>
      match raises, w.locks symbol with
      | false, some data =>
        if lockStaleThreshold < now - data.acquiredAt then
          w.goTo p symbol (.stale data.instanceId)
        -- a young lock is stale only if its owner's heartbeat is missing
        else if data.instanceId = "" then w.goTo p symbol .idle
        else w.goTo p symbol (.seen data.instanceId)
      | _, _ => w.goTo p symbol .idle
    | _ => w
  | .exists p symbol raises =>
    match w.phases p symbol with
    | .seen owner =>
      if raises = false ∧ w.heartbeats owner = false then w.goTo p symbol (.stale owner)
      else w.goTo p symbol .idle
    | _ => w
  | .recover p symbol now raises =>
    match w.phases p symbol with
    | .stale owner =>
      -- the script looks at the owner again, but not at when it acquired the lock
      match raises, recoverLockScript (w.locks symbol) (lockValue processes p now) owner with
      | false, (value, true) => (w.setLock symbol value).goTo p symbol .holding
      | _, _ => w.goTo p symbol .idle
    | _ => w
  | .release p symbol raises =>
    match w.phases p symbol with
    | .holding =>
      if raises then w.goTo p symbol .idle
      else (w.setLock symbol (releaseLockScript (w.locks symbol)
        (processes p).instanceId)).goTo p symbol .idle
    | _ => w
  | .startHeartbeat p => { w with refreshing := Function.update w.refreshing p true }
  | .refresh p =>
    if w.refreshing p then
      { w with heartbeats := Function.update w.heartbeats (processes p).instanceId true }
    else w
  | .stopHeartbeat p =>
    { w with
      refreshing := Function.update w.refreshing p false
      heartbeats := Function.update w.heartbeats (processes p).instanceId false }
  | .stop p =>
    { w with
      running := Function.update w.running p false
      phases := Function.update w.phases p fun _ => .idle
      refreshing := Function.update w.refreshing p false }
  | .expireLock symbol =>
    if w.OwnerHolds processes symbol then w else w.setLock symbol none
  | .expireHeartbeat instanceId =>
    if w.Refreshed processes instanceId then w
    else { w with heartbeats := Function.update w.heartbeats instanceId false }

/-- A process that has stopped sends no more commands. -/
def World.step (w : World ι) (e : Event ι) : World ι :=
  if e.process.all w.running then w.command processes e else w

end

/-! ### One command -/

variable (processes : ι → Process)

@[simp] theorem phases_goTo (w : World ι) (p q : ι) (symbol other : String) (phase : Phase) :
    (w.goTo p symbol phase).phases q other =
      if q = p ∧ other = symbol then phase else w.phases q other := by
  by_cases hq : q = p
  · subst hq
    by_cases hother : other = symbol
    · subst hother
      simp [World.goTo]
    · simp [World.goTo, hother]
  · simp [World.goTo, hq]

/-- What an event can do: take no lock and give none, free a symbol that is then held by
nobody, or grant a symbol that nobody holds, if the event is as it should be. -/
inductive Commands (w : World ι) (e : Event ι) (w' : World ι) : Prop where
  | keeps (habandoned : RecoversAbandoned w e) (hlocks : w'.locks = w.locks)
      (hphases : ∀ p symbol, w'.phases p symbol = .holding → w.phases p symbol = .holding)
  | frees (symbol : String) (habandoned : RecoversAbandoned w e)
      (hlocks : ∀ other, other ≠ symbol → w'.locks other = w.locks other)
      (hphases : ∀ p other, w'.phases p other = .holding → w.phases p other = .holding)
      (hfree : ∀ p, w'.phases p symbol ≠ .holding)
  | grants (p : ι) (symbol : String)
      (habandoned : RecoversAbandoned w e ↔ ∀ q, w.phases q symbol ≠ .holding)
      (hbefore : w.phases p symbol ≠ .holding)
      (hlocks : ∀ other, other ≠ symbol → w'.locks other = w.locks other)
      (hlock : (w'.locks symbol).map LockValue.instanceId = some (processes p).instanceId)
      (hphases : ∀ q other, w'.phases q other =
        if q = p ∧ other = symbol then .holding else w.phases q other)

variable {processes}

/-- A step of `acquire` that does not get the lock. -/
theorem Commands.goTo {w : World ι} {e : Event ι} {p : ι} {symbol : String} {phase : Phase}
    (habandoned : RecoversAbandoned w e) (hphase : phase ≠ .holding) :
    Commands processes w e (w.goTo p symbol phase) := by
  refine .keeps habandoned rfl ?_
  intro q other hholds
  rw [phases_goTo] at hholds
  split_ifs at hholds
  · exact absurd hholds hphase
  · exact hholds

theorem Commands.grant {w : World ι} {e : Event ι} {p : ι} {symbol : String} {now : ℚ}
    (habandoned : RecoversAbandoned w e ↔ ∀ q, w.phases q symbol ≠ .holding)
    (hbefore : w.phases p symbol ≠ .holding) :
    Commands processes w e
      ((w.setLock symbol (some (lockValue processes p now))).goTo p symbol .holding) := by
  refine .grants p symbol habandoned hbefore ?_ ?_ ?_
  · intro other hother
    exact Function.update_of_ne hother _ _
  · simp [World.goTo, World.setLock, lockValue]
  · intro q other
    exact phases_goTo _ _ _ _ _ _

theorem commands_release {w : World ι} (h : Owned processes w) {p : ι} {symbol : String}
    (hphase : w.phases p symbol = .holding) {e : Event ι} (habandoned : RecoversAbandoned w e) :
    Commands processes w e ((w.setLock symbol (releaseLockScript (w.locks symbol)
      (processes p).instanceId)).goTo p symbol .idle) := by
  refine .frees symbol habandoned ?_ ?_ ?_
  · intro other hother
    exact Function.update_of_ne hother _ _
  · intro q other hholds
    rw [phases_goTo] at hholds
    split_ifs at hholds
    exact hholds
  · intro q hholds
    rw [phases_goTo] at hholds
    split_ifs at hholds with hq
    exact hq ⟨(h symbol p hphase).2 q hholds, rfl⟩

theorem commands_command [Fintype ι] {w : World ι} (h : Owned processes w) (e : Event ι)
    (hrunning : e.process.all w.running = true) :
    Commands processes w e (w.command processes e) := by
  cases e with
  | acquire p symbol now raises =>
    simp only [World.command]
    split
    next hphase =>
      split
      next hlock =>
        refine .grant (iff_of_true trivial (h.free hlock)) ?_
        rw [hphase]
        exact Phase.noConfusion
      next => exact .goTo trivial Phase.noConfusion
    next => exact .keeps trivial rfl fun _ _ hholds => hholds
  | get p symbol now raises =>
    simp only [World.command]
    split
    next =>
      split
      next =>
        split_ifs
        · exact .goTo trivial Phase.noConfusion
        · exact .goTo trivial Phase.noConfusion
        · exact .goTo trivial Phase.noConfusion
      next => exact .goTo trivial Phase.noConfusion
    next => exact .keeps trivial rfl fun _ _ hholds => hholds
  | «exists» p symbol raises =>
    simp only [World.command]
    split
    next =>
      split_ifs
      · exact .goTo trivial Phase.noConfusion
      · exact .goTo trivial Phase.noConfusion
    next => exact .keeps trivial rfl fun _ _ hholds => hholds
  | recover p symbol now raises =>
    have hp : w.running p = true := hrunning
    simp only [World.command]
    split
    next owner hphase =>
      split
      next value hscript =>
        obtain ⟨rfl, hcurrent⟩ := recoverLockScript_eq hscript
        refine .grant ?_ ?_
        · constructor
          -- a missing lock is nobody's, and one of the stale owner is to be abandoned
          · intro habandoned
            rcases hcurrent with hlock | howner
            · exact h.free hlock
            · exact habandoned hp rfl owner hphase howner
          · intro hfree _ _ _ _ _
            exact hfree
        · rw [hphase]
          exact Phase.noConfusion
      next hscript =>
        refine .goTo ?_ Phase.noConfusion
        intro _ hraises other hother howner
        obtain rfl : owner = other := by simpa [hphase] using hother
        -- the script would have deleted the lock and set it
        cases hlock : w.locks symbol with
        | none => exact h.free hlock
        | some data =>
          rw [hlock, Option.map_some, Option.some.injEq] at howner
          refine absurd ?_ (hscript (some (lockValue processes p now)) hraises)
          simp [recoverLockScript, releaseLockScript, hlock, howner]
    next hphase =>
      refine .keeps ?_ rfl fun _ _ hholds => hholds
      intro _ _ owner howner
      exact absurd howner (hphase owner)
  | release p symbol raises =>
    simp only [World.command]
    split
    next hphase =>
      split_ifs
      · exact .goTo trivial Phase.noConfusion
      · exact commands_release h hphase trivial
    next => exact .keeps trivial rfl fun _ _ hholds => hholds
  | startHeartbeat p => exact .keeps trivial rfl fun _ _ hholds => hholds
  | refresh p =>
    simp only [World.command]
    split_ifs
    · exact .keeps trivial rfl fun _ _ hholds => hholds
    · exact .keeps trivial rfl fun _ _ hholds => hholds
  | stopHeartbeat p => exact .keeps trivial rfl fun _ _ hholds => hholds
  | stop p =>
    refine .keeps trivial rfl ?_
    intro q symbol hholds
    by_cases hq : q = p
    · subst hq
      simp [World.command] at hholds
    · simpa [World.command, hq] using hholds
  | expireLock symbol =>
    simp only [World.command]
    split_ifs with hholds
    · exact .keeps trivial rfl fun _ _ hphase => hphase
    · refine .frees symbol trivial ?_ (fun _ _ hphase => hphase) ?_
      · intro other hother
        exact Function.update_of_ne hother _ _
      · intro p hp
        exact hholds ⟨p, hp, (h symbol p hp).1⟩
  | expireHeartbeat instanceId =>
    simp only [World.command]
    split_ifs
    · exact .keeps trivial rfl fun _ _ hholds => hholds
    · exact .keeps trivial rfl fun _ _ hholds => hholds

theorem commands_step [Fintype ι] {w : World ι} (h : Owned processes w) (e : Event ι) :
    Commands processes w e (w.step processes e) := by
  rw [World.step]
  split_ifs with hrunning
  · exact commands_command h e hrunning
  · refine .keeps ?_ rfl fun _ _ hholds => hholds
    cases e with
    | recover p symbol now raises => exact fun hp => absurd hp hrunning
    | _ => exact trivial

/-! ### Mutual exclusion -/

theorem Owned.step {w w' : World ι} {e : Event ι} (h : Owned processes w)
    (hcommands : Commands processes w e w') (habandoned : RecoversAbandoned w e) :
    Owned processes w' := by
  intro symbol p hp
  cases hcommands with
  | keeps _ hlocks hphases =>
    rw [hlocks]
    obtain ⟨howner, honly⟩ := h symbol p (hphases p symbol hp)
    exact ⟨howner, fun q hq => honly q (hphases q symbol hq)⟩
  | frees freed _ hlocks hphases hfree =>
    by_cases hsymbol : symbol = freed
    · subst hsymbol
      exact absurd hp (hfree p)
    · rw [hlocks symbol hsymbol]
      obtain ⟨howner, honly⟩ := h symbol p (hphases p symbol hp)
      exact ⟨howner, fun q hq => honly q (hphases q symbol hq)⟩
  | grants granted other hcondition _ hlocks hlock hphases =>
    -- nobody held the symbol that is granted, so that only the new holder does
    have hfree := hcondition.mp habandoned
    rw [hphases] at hp
    by_cases hsymbol : symbol = other
    · subst hsymbol
      have honly (q : ι) (hq : w'.phases q symbol = .holding) : q = granted := by
        rw [hphases] at hq
        split_ifs at hq with heq
        · exact heq.1
        · exact absurd hq (hfree q)
      have hp' : p = granted := by
        split_ifs at hp with heq
        · exact heq.1
        · exact absurd hp (hfree p)
      subst hp'
      exact ⟨hlock, honly⟩
    · rw [if_neg fun heq => hsymbol heq.2] at hp
      obtain ⟨howner, honly⟩ := h symbol p hp
      rw [hlocks symbol hsymbol]
      refine ⟨howner, fun q hq => honly q ?_⟩
      rwa [hphases, if_neg fun heq => hsymbol heq.2] at hq

/-- After an event two processes hold a symbol exactly if it took the lock of a process that
was running. -/
theorem mutuallyExclusive_step_iff {w w' : World ι} {e : Event ι} (h : Owned processes w)
    (hcommands : Commands processes w e w') :
    MutuallyExclusive w' ↔ RecoversAbandoned w e := by
  constructor
  · intro hexclusive
    cases hcommands with
    | keeps habandoned => exact habandoned
    | frees _ habandoned => exact habandoned
    | grants granted symbol hcondition hbefore _ _ hphases =>
      refine hcondition.mpr fun q hq => ?_
      have hself : w'.phases granted symbol = .holding := by
        rw [hphases, if_pos ⟨rfl, rfl⟩]
      have hother : w'.phases q symbol = .holding := by
        rw [hphases]
        split_ifs
        · rfl
        · exact hq
      have heq := hexclusive symbol granted q hself hother
      subst heq
      exact hbefore hq
  · intro habandoned
    exact (h.step hcommands habandoned).mutuallyExclusive

end

/-- Two running processes never hold a symbol at once, exactly if no recovery of the run
deletes the lock of a process that is running. -/
theorem mutuallyExclusive_iff {ι : Type*} [Fintype ι] [DecidableEq ι] (processes : ι → Process)
    (events : List (Event ι)) :
    (∀ reached, reached <+: events →
        MutuallyExclusive (reached.foldl (World.step processes) .init)) ↔
      ∀ earlier e, earlier ++ [e] <+: events →
        RecoversAbandoned (earlier.foldl (World.step processes) .init) e := by
  have howned : Owned processes (World.init : World ι) := by
    intro symbol p hp
    cases hp
  rw [forall_reached_iff (World.step processes) howned.mutuallyExclusive]
  refine @forall_prefix_iff _ _ (World.step processes) (fun _ => True) (Owned processes)
    (fun w e => MutuallyExclusive (w.step processes e)) RecoversAbandoned
    (fun _ _ _ => trivial) ?_ ?_ _ trivial howned events
  · intro w e _ hw
    exact mutuallyExclusive_step_iff hw (commands_step hw e)
  · intro w e _ hw hexclusive
    have hcommands := commands_step hw e
    exact hw.step hcommands ((mutuallyExclusive_step_iff hw hcommands).mp hexclusive)

/-- A runner, another one, and the first one after a restart. -/
def restarted : Fin 3 → Process
  | 0 => ⟨"runner-0", 11⟩
  | 1 => ⟨"runner-1", 12⟩
  | 2 => ⟨"runner-0", 13⟩

/-- All of them refresh their heartbeats. The first one stops, the second finds its
heartbeat missing, and before it recovers the lock, the lock expires and the restarted one
acquires it: the script takes its lock for the one that was found stale. -/
theorem restartedOwner_not_mutuallyExclusive :
    ¬ MutuallyExclusive ([Event.startHeartbeat 0, .refresh 0, .startHeartbeat 1, .refresh 1,
      .acquire 0 "BTC-USD" 0 false, .stop 0, .expireHeartbeat "runner-0",
      .acquire 1 "BTC-USD" 89 false, .get 1 "BTC-USD" 89 false, .exists 1 "BTC-USD" false,
      .expireLock "BTC-USD", .startHeartbeat 2, .refresh 2, .acquire 2 "BTC-USD" 91 false,
      .recover 1 "BTC-USD" 91 false].foldl (World.step restarted) .init) := by
  intro hexclusive
  have heq : (1 : Fin 3) = 2 :=
    hexclusive "BTC-USD" 1 2 (by decide +kernel) (by decide +kernel)
  revert heq
  decide

end TradeStream.RunLock
