import TradeStream.Interleaving

/-! `KillSwitch`: instances that share one Redis key, each with a cached value. A cached
value is a value that the key had within the check interval. -/
namespace TradeStream.AutonomousRunner
open TradeStream.Interleaving

/-- The object that is stored under the key. Only `activate` writes one, and what it writes
has the field `active`. -/
structure SwitchData where
  active : Option Bool
  reason : String
  activatedBy : String
  activatedAt : ℚ
  deriving DecidableEq

structure KillSwitch where
  localCache : Bool
  lastCheck : ℚ
  deriving DecidableEq

def KillSwitch.new : KillSwitch := ⟨false, 0⟩

/-- What the key says: nothing stored is not active. -/
def storedFlag : Option SwitchData → Bool
  | none => false
  | some data => data.active.getD false

namespace KillSwitch

def isActive (checkIntervalSeconds now : ℚ) (stored : Option SwitchData) (switch : KillSwitch) :
    Bool × KillSwitch :=
  if now - switch.lastCheck < checkIntervalSeconds then (switch.localCache, switch)
  else (storedFlag stored, ⟨storedFlag stored, now⟩)

-- the time of the last check stays as it is: the value that is cached here is no older
def activate (reason activatedBy : String) (now : ℚ) (switch : KillSwitch) :
    Option SwitchData × KillSwitch :=
  (some ⟨some true, reason, activatedBy, now⟩, { switch with localCache := true })

def deactivate (switch : KillSwitch) : Option SwitchData × KillSwitch :=
  (none, { switch with localCache := false })

end KillSwitch

inductive Method where
  | isActive
  | activate (reason activatedBy : String)
  | deactivate

structure Call where
  method : Method
  time : ℚ

section
variable {ι : Type*} (checkInterval : ι → ℚ)

def execute (i : ι) (call : Call) (stored : Option SwitchData) (switch : KillSwitch) :
    Option SwitchData × KillSwitch :=
  match call.method with
  | .isActive => (stored, (switch.isActive (checkInterval i) call.time stored).2)
  | .activate reason activatedBy => switch.activate reason activatedBy call.time
  | .deactivate => switch.deactivate

abbrev Switches (ι : Type*) := World ι (Option SwitchData) KillSwitch

variable [DecidableEq ι] (stored : Option SwitchData)

/-- The key and the instances after the calls, from what the key holds at first. -/
def after (calls : List (Turn ι Call)) : Switches ι :=
  calls.foldl (World.step (execute checkInterval)) ⟨stored, fun _ => .new⟩

/-- What instance `i` answers at time `now` after the calls. -/
def reported (calls : List (Turn ι Call)) (i : ι) (now : ℚ) : Bool :=
  (((after checkInterval stored calls).processes i).isActive (checkInterval i) now
    (after checkInterval stored calls).db).1

/-- The flag is `value` at the instant `s`: after the calls up to `s`, or after only some
of those made at `s` itself. -/
def FlagAt (calls : List (Turn ι Call)) (s : ℚ) (value : Bool) : Prop :=
  ∃ earlier later, calls = earlier ++ later ∧ (∀ turn ∈ earlier, turn.input.time ≤ s) ∧
    (∀ turn ∈ later, s ≤ turn.input.time) ∧
    storedFlag (after checkInterval stored earlier).db = value

def InOrder (calls : List (Turn ι Call)) : Prop :=
  calls.Pairwise fun a b => a.input.time ≤ b.input.time

/-- The times of the checks are not before the first interval has passed. -/
def PastFirstInterval (calls : List (Turn ι Call)) : Prop :=
  ∀ turn ∈ calls, checkInterval turn.process ≤ turn.input.time

/-! ### What an instance has cached -/

/-- The cached value is the flag after one of the calls, made no earlier than the last
check. An instance that has not checked may have none. -/
def CacheOfCall (calls : List (Turn ι Call)) (switch : KillSwitch) : Prop :=
  switch.lastCheck = 0 ∨ ∃ earlier turn later, calls = earlier ++ [turn] ++ later ∧
    storedFlag (after checkInterval stored (earlier ++ [turn])).db = switch.localCache ∧
    switch.lastCheck ≤ turn.input.time

theorem after_append_singleton (calls : List (Turn ι Call)) (turn : Turn ι Call) :
    after checkInterval stored (calls ++ [turn]) =
      (after checkInterval stored calls).step (execute checkInterval) turn := by
  simp [after, List.foldl_append]

variable {checkInterval stored}

theorem CacheOfCall.append {calls : List (Turn ι Call)} {switch : KillSwitch}
    (h : CacheOfCall checkInterval stored calls switch) (turn : Turn ι Call) :
    CacheOfCall checkInterval stored (calls ++ [turn]) switch := by
  refine h.imp_right ?_
  rintro ⟨earlier, cached, later, rfl, hflag, htime⟩
  exact ⟨earlier, cached, later ++ [turn], by simp, hflag, htime⟩

/-- A last check that is not the first one of the constructor is at the time of a call. -/
theorem CacheOfCall.lastCheck_le {calls : List (Turn ι Call)} {switch : KillSwitch}
    (h : CacheOfCall checkInterval stored calls switch) {turn : Turn ι Call}
    (horder : InOrder (calls ++ [turn])) :
    switch.lastCheck = 0 ∨ switch.lastCheck ≤ turn.input.time := by
  refine h.imp_right ?_
  rintro ⟨earlier, cached, later, rfl, -, htime⟩
  have hle := (List.pairwise_append.mp horder).2.2 cached (by simp) turn (by simp)
  exact htime.trans hle

/-- The call itself is what the value that it caches comes from. -/
theorem cacheOfCall_append_self {calls : List (Turn ι Call)} {turn : Turn ι Call}
    {switch : KillSwitch}
    (hflag : storedFlag (after checkInterval stored (calls ++ [turn])).db = switch.localCache)
    (htime : switch.lastCheck = 0 ∨ switch.lastCheck ≤ turn.input.time) :
    CacheOfCall checkInterval stored (calls ++ [turn]) switch :=
  htime.imp_right fun hle => ⟨calls, turn, [], by simp, hflag, hle⟩

/-- A call on the instance: it caches the flag that the call leaves, or nothing new. -/
theorem CacheOfCall.called {calls : List (Turn ι Call)} {turn : Turn ι Call}
    (h : CacheOfCall checkInterval stored calls
      ((after checkInterval stored calls).processes turn.process))
    (horder : InOrder (calls ++ [turn])) :
    CacheOfCall checkInterval stored (calls ++ [turn])
      (execute checkInterval turn.process turn.input (after checkInterval stored calls).db
        ((after checkInterval stored calls).processes turn.process)).2 := by
  have hcheck := h.lastCheck_le horder
  have hdb : (after checkInterval stored (calls ++ [turn])).db =
      (execute checkInterval turn.process turn.input (after checkInterval stored calls).db
        ((after checkInterval stored calls).processes turn.process)).1 := by
    rw [after_append_singleton, db_step]
  obtain ⟨i, method, now⟩ := turn
  cases method with
  | isActive =>
    simp only [execute, KillSwitch.isActive] at hdb ⊢
    split
    · exact h.append _
    · -- a check caches what is stored, which it leaves as it is
      apply cacheOfCall_append_self
      · rw [hdb]
      · exact Or.inr le_rfl
  -- what is written is cached at once, under the time of the check before
  | activate reason activatedBy =>
    apply cacheOfCall_append_self
    · rw [hdb]
      rfl
    · exact hcheck
  | deactivate =>
    apply cacheOfCall_append_self
    · rw [hdb]
      rfl
    · exact hcheck

theorem cacheOfCall_after {calls : List (Turn ι Call)} (horder : InOrder calls) (i : ι) :
    CacheOfCall checkInterval stored calls ((after checkInterval stored calls).processes i) := by
  induction calls using List.reverseRecOn with
  | nil => exact Or.inl rfl
  | append_singleton calls turn ih =>
    have hbefore := ih (List.pairwise_append.mp horder).1
    rw [after_append_singleton]
    by_cases hi : i = turn.process
    · subst hi
      rw [processes_step_self]
      exact hbefore.called horder
    · -- a call changes no other instance's cache
      rw [processes_step_of_ne _ _ hi]
      exact hbefore.append _

/-! ### How old a reported value can be -/

/-- A reported value is read at the call, or was set by a call within the interval. -/
theorem reported_eq_flag (stored : Option SwitchData) {calls : List (Turn ι Call)} {i : ι} {now : ℚ}
    (horder : InOrder calls) (hnow : checkInterval i ≤ now) :
    reported checkInterval stored calls i now =
        storedFlag (after checkInterval stored calls).db ∨
      ∃ earlier turn later, calls = earlier ++ [turn] ++ later ∧
        storedFlag (after checkInterval stored (earlier ++ [turn])).db =
          reported checkInterval stored calls i now ∧
        now - checkInterval i < turn.input.time := by
  have hcache : CacheOfCall checkInterval stored calls _ := cacheOfCall_after horder i
  simp only [reported, KillSwitch.isActive]
  split
  next hrecent =>
    right
    rcases hcache with hnew | ⟨earlier, turn, later, hcalls, hflag, htime⟩
    · -- an instance that never checked does so now
      rw [hnew] at hrecent
      linarith
    · exact ⟨earlier, turn, later, hcalls, hflag, by linarith⟩
  next => exact Or.inl rfl

theorem flagAt_of_last {earlier later : List (Turn ι Call)} {turn : Turn ι Call}
    (horder : InOrder (earlier ++ [turn] ++ later)) :
    FlagAt checkInterval stored (earlier ++ [turn] ++ later) turn.input.time
      (storedFlag (after checkInterval stored (earlier ++ [turn])).db) := by
  obtain ⟨hearlier, -, hlater⟩ := List.pairwise_append.mp horder
  refine ⟨earlier ++ [turn], later, rfl, ?_, hlater turn (by simp), rfl⟩
  intro call hcall
  rcases List.mem_append.mp hcall with hcall | hcall
  · exact (List.pairwise_append.mp hearlier).2.2 call hcall turn (by simp)
  · rw [List.mem_singleton.mp hcall]

/-- The flag stays up after an activation until something takes it down. -/
theorem storedFlag_after_activate {earlier later : List (Turn ι Call)} {turn : Turn ι Call}
    {reason activatedBy : String} (hturn : turn.input.method = .activate reason activatedBy)
    (hlater : ∀ next ∈ later, next.input.method ≠ .deactivate) :
    storedFlag (after checkInterval stored (earlier ++ turn :: later)).db = true := by
  induction later using List.reverseRecOn with
  | nil =>
    rw [after_append_singleton, db_step]
    simp [execute, hturn, KillSwitch.activate, storedFlag]
  | append_singleton later next ih =>
    have hbefore := ih fun call hcall => hlater call (by simp [hcall])
    have hnext := hlater next (by simp)
    rw [← List.cons_append, ← List.append_assoc, after_append_singleton, db_step]
    unfold execute
    -- a check leaves the key as it is, and another activation writes the same flag
    cases hmethod : next.input.method with
    | isActive => exact hbefore
    | activate reason activatedBy => rfl
    | deactivate => exact absurd hmethod hnext

theorem reported_after_activate {earlier later : List (Turn ι Call)} {turn : Turn ι Call}
    {reason activatedBy : String} (hturn : turn.input.method = .activate reason activatedBy)
    (hlater : ∀ next ∈ later, next.input.method ≠ .deactivate)
    (horder : InOrder (earlier ++ turn :: later)) {i : ι} {now : ℚ} (hnow : checkInterval i ≤ now)
    (hpassed : turn.input.time + checkInterval i ≤ now) :
    reported checkInterval stored (earlier ++ turn :: later) i now = true := by
  rcases reported_eq_flag stored horder hnow with
    hread | ⟨before, cached, rest, hcalls, hflag, htime⟩
  · rw [hread]
    exact storedFlag_after_activate hturn hlater
  · -- the call that the value comes from is later than the activation
    have hsplit := hcalls
    rw [List.append_eq_append_iff] at hsplit
    rw [← hflag]
    rcases hsplit with ⟨between, hbefore, hrest⟩ | ⟨between, hbefore, -⟩
    · cases between with
      | nil =>
        have hle := (List.pairwise_append.mp horder).2.2 cached
          (by rw [← List.append_nil earlier, ← hbefore]; simp) turn (by simp)
        linarith
      | cons first between =>
        obtain ⟨rfl, rfl⟩ := List.cons.inj hrest
        rw [hbefore]
        exact storedFlag_after_activate hturn fun next hnext => hlater next (by simp [hnext])
    · have hle := (List.pairwise_append.mp horder).2.2 cached (by simp [hbefore]) turn (by simp)
      linarith

variable (checkInterval stored) in
/-- What the instances report in a run. A value that `is_active` reports is one that the
flag has at the call, or had within the check interval; an interval after an activation
that nothing undid, every instance reports active. -/
structure BoundedStaleness (calls : List (Turn ι Call)) : Prop where
  held : ∀ (earlier : List (Turn ι Call)) (turn : Turn ι Call), earlier ++ [turn] <+: calls →
    turn.input.method = .isActive →
    ∃ s, (s = turn.input.time ∨
        s ∈ Set.Ioc (turn.input.time - checkInterval turn.process) turn.input.time) ∧
      FlagAt checkInterval stored earlier s
        (reported checkInterval stored earlier turn.process turn.input.time)
  halted : ∀ (earlier : List (Turn ι Call)) (activation : Turn ι Call) (later : List (Turn ι Call))
    (turn : Turn ι Call), earlier ++ activation :: later ++ [turn] <+: calls →
    turn.input.method = .isActive →
    (∃ reason activatedBy, activation.input.method = .activate reason activatedBy) →
    (∀ next ∈ later, next.input.method ≠ .deactivate) →
    activation.input.time + checkInterval turn.process ≤ turn.input.time →
    reported checkInterval stored (earlier ++ activation :: later) turn.process
      turn.input.time = true

theorem boundedStaleness {calls : List (Turn ι Call)} (horder : InOrder calls)
    (hpast : PastFirstInterval checkInterval calls) :
    BoundedStaleness checkInterval stored calls := by
  have hlast : ∀ (earlier : List (Turn ι Call)) (turn : Turn ι Call), earlier ++ [turn] <+: calls →
      InOrder (earlier ++ [turn]) ∧ checkInterval turn.process ≤ turn.input.time := by
    intro earlier turn hpre
    exact ⟨horder.sublist hpre.sublist, hpast turn (hpre.subset (by simp))⟩
  constructor
  case held =>
    intro earlier turn hpre hmethod
    obtain ⟨hturns, hnow⟩ := hlast earlier turn hpre
    obtain ⟨hearlier, -, hle⟩ := List.pairwise_append.mp hturns
    rcases reported_eq_flag stored hearlier hnow with
      hread | ⟨before, cached, rest, rfl, hflag, htime⟩
    · refine ⟨turn.input.time, Or.inl rfl, earlier, [], by simp, ?_, by simp, hread.symm⟩
      exact fun call hcall => hle call hcall turn (by simp)
    · refine ⟨cached.input.time, Or.inr ⟨by linarith, hle cached (by simp) turn (by simp)⟩, ?_⟩
      rw [← hflag]
      exact flagAt_of_last hearlier
  case halted =>
    rintro earlier activation later turn hpre - ⟨reason, activatedBy, hactivate⟩ hlater hpassed
    obtain ⟨hturns, hnow⟩ := hlast _ turn hpre
    exact reported_after_activate hactivate hlater (List.pairwise_append.mp hturns).1 hnow hpassed

end

/-- With an interval of no length a value is read at every call, and no instant is within
the interval that ends there. -/
theorem no_instant_within_no_interval :
    InOrder [(⟨true, .isActive, 7⟩ : Turn Bool Call)] ∧
      PastFirstInterval (fun _ => 0) [(⟨true, .isActive, 7⟩ : Turn Bool Call)] ∧
      ¬ ∃ s ∈ Set.Ioc ((7 : ℚ) - 0) 7,
        FlagAt (fun _ : Bool => 0) none [] s (reported (fun _ : Bool => 0) none [] true 7) := by
  refine ⟨by simp [InOrder], by norm_num [PastFirstInterval], ?_⟩
  rintro ⟨s, ⟨hlower, hupper⟩, -⟩
  linarith

/-- One instance activates at 10, the other checks before that, at 11 and at 15. -/
theorem boundedStaleness_of_activation_at_ten :
    BoundedStaleness (fun _ : Bool => 5) none
      [⟨true, .isActive, 9⟩, ⟨false, .activate "halt" "system", 10⟩, ⟨true, .isActive, 11⟩,
        ⟨true, .isActive, 15⟩] :=
  boundedStaleness (by norm_num [InOrder]) (by norm_num [PastFirstInterval])

end TradeStream.AutonomousRunner
