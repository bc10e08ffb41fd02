import TradeStream.ModelRouter

/-! What one `call_with_fallback` invokes: every attempt on a model, with its breaker at that
time. -/
namespace TradeStream.ModelRouter
open TradeStream.CircuitBreaker

structure Invocation where
  modelId : String
  breaker : Breaker

/-- The breaker before each of the attempts that are made. -/
def breakersInvoked : List Attempt → Breaker → List Breaker
  | [], _ => []
  | .succeeds :: _, breaker => [breaker]
  | .cancelled :: _, breaker => [breaker]
  | .failsThenCancelled _ :: _, breaker => [breaker]
  | .fails now :: rest, breaker =>
    breaker :: breakersInvoked rest (breaker.recordFailure modelBreaker now)

variable (router : Router) (request : Request)

/-- The invocations of a model by `_call_with_retry_and_fallback`, up to its fallback. -/
def callInvocations (modelId : String) (progress : Progress) : List Invocation :=
  let (allowed, progress) := progress.allowRequest modelId (request.askedAt modelId)
  if allowed then
    (breakersInvoked (attempts router request modelId) (progress.breakers modelId)).map
      (Invocation.mk modelId)
  else []

/-- The invocations of `_call_with_retry_and_fallback`. -/
def invocations (modelId : String) (progress : Progress) : List Invocation :=
  callInvocations router request modelId progress ++
    match _hcall : callWithRetry router request modelId progress with
    | (some _, _) => []
    | (none, called) =>
      match _hnext : nextCandidate request router.fallbackChain called with
      | (none, _) => []
      | (some candidate, checked) => invocations candidate checked
  termination_by
    (router.fallbackChain.filter (· ∉ insert modelId progress.tried)).length
  decreasing_by
    obtain ⟨hmem, huntried, hsub⟩ := nextCandidate_some _hnext
    have htried := tried_callWithRetry router request modelId progress
    rw [_hcall] at htried
    rw [htried] at hsub
    exact untried_lt hsub hmem huntried

/-- Where a call begins that comes to `first` first. -/
def startAt (first : String) (breakers : String → Breaker) : Progress where
  breakers := breakers
  reached := [(first, request.askedAt first)]

/-- The invocations of `call_with_fallback`. -/
def invoked (routing : Routing) : List Invocation :=
  let modelId := selected router request routing
  invocations router request modelId (startAt request modelId routing.breakers)

instance decidableAllFail : (attempts : List Attempt) → Decidable (AllFail attempts)
  | [] => isTrue trivial
  | .fails _ :: rest => decidableAllFail rest
  | .failsThenCancelled _ :: rest => inferInstanceAs (Decidable (rest = []))
  | .succeeds :: _ => isFalse id
  | .cancelled :: _ => isFalse id

/-- The models of the chain that have a turn, read off the breakers and the outcomes: they are
not tried yet, their breakers are closed, and all such models before them fail. -/
def turns (breakers : String → Breaker) : Finset String → List String → List String
  | _, [] => []
  | tried, candidate :: rest =>
    if candidate ∈ tried then turns breakers tried rest
    else if (breakers candidate).state = .closed then
      candidate :: if AllFail (attempts router request candidate) then
        turns breakers (insert candidate tried) rest else []
    else turns breakers (insert candidate tried) rest

/-- The invocations in a model's turn, with its breaker as it is. -/
def turnInvocations (breakers : String → Breaker) (modelId : String) : List Invocation :=
  (breakersInvoked (attempts router request modelId) (breakers modelId)).map
    (Invocation.mk modelId)

/-- The failures up to the one that opens the breaker. -/
def failuresLeft (breaker : Breaker) : ℕ :=
  match breaker.state with
  | .closed => max 1 (5 - breaker.failureCount)
  | .halfOpen => 1
  | .opened => 0

/-- There is an attempt to make after the failures that open the breaker. -/
def Overruns (breaker : Breaker) (attempts : List Attempt) : Prop :=
  failuresLeft breaker < attempts.length ∧
    ∀ attempt ∈ attempts.take (failuresLeft breaker), ∃ now, attempt = .fails now

/-! ### The attempts on one model -/

theorem length_breakersInvoked_le (attempts : List Attempt) (breaker : Breaker) :
    (breakersInvoked attempts breaker).length ≤ attempts.length := by
  induction attempts generalizing breaker with
  | nil => exact le_rfl
  | cons attempt rest ih =>
    cases attempt with
    | fails now => exact Nat.succ_le_succ (ih _)
    | succeeds | failsThenCancelled _ | cancelled =>
      exact Nat.succ_le_succ (Nat.zero_le _)

theorem breakersInvoked_head {attempts : List Attempt} (h : attempts ≠ []) (breaker : Breaker) :
    breaker ∈ breakersInvoked attempts breaker := by
  obtain ⟨attempt, rest, rfl⟩ := List.exists_cons_of_ne_nil h
  cases attempt <;> exact List.mem_cons_self

/-- A failure is one less to go, and the last of them opens the breaker. -/
theorem recordFailure_cases {breaker : Breaker} (h : breaker.state ≠ .opened) (now : ℚ) :
    (failuresLeft breaker = 1 ∧ (breaker.recordFailure modelBreaker now).state = .opened) ∨
      (failuresLeft breaker = failuresLeft (breaker.recordFailure modelBreaker now) + 1 ∧
        (breaker.recordFailure modelBreaker now).state ≠ .opened) := by
  cases hstate : breaker.state with
  | opened => exact absurd hstate h
  | halfOpen =>
    left
    simp [failuresLeft, Breaker.recordFailure, hstate]
  | closed =>
    by_cases hlast : 5 ≤ breaker.failureCount + 1
    · left
      have hopens : (5 : ℤ) ≤ breaker.failureCount + 1 := by exact_mod_cast hlast
      simp only [failuresLeft, Breaker.recordFailure, hstate, modelBreaker]
      refine ⟨by omega, ?_⟩
      simp [hopens]
    · right
      have hstays : ¬ (5 : ℤ) ≤ breaker.failureCount + 1 := by exact_mod_cast hlast
      simp only [failuresLeft, Breaker.recordFailure, hstate, modelBreaker]
      simp [hstays]
      omega

/-- No attempt is made on an open breaker, unless one remains after the failures that open it. -/
theorem breakersInvoked_opened_iff (attempts : List Attempt) {breaker : Breaker}
    (h : breaker.state ≠ .opened) :
    (∀ b ∈ breakersInvoked attempts breaker, b.state ≠ .opened) ↔ ¬ Overruns breaker attempts := by
  induction attempts generalizing breaker with
  | nil => simp [breakersInvoked, Overruns]
  | cons attempt rest ih =>
    have hleft : 0 < failuresLeft breaker := by
      cases hstate : breaker.state with
      | opened => exact absurd hstate h
      | halfOpen | closed => simp [failuresLeft, hstate]
    obtain ⟨left, hsucc⟩ := Nat.exists_eq_succ_of_ne_zero hleft.ne'
    cases attempt with
    | succeeds | failsThenCancelled _ | cancelled =>
      refine iff_of_true (by simpa [breakersInvoked] using h) ?_
      rintro ⟨-, hfails⟩
      rw [hsucc] at hfails
      simpa using hfails _ List.mem_cons_self
    | fails now =>
      have hall : Overruns breaker (.fails now :: rest) ↔ left < rest.length ∧
          ∀ attempt ∈ rest.take left, ∃ now, attempt = .fails now := by
        simp [Overruns, hsucc]
      rw [breakersInvoked, List.forall_mem_cons, and_iff_right h, hall]
      rcases recordFailure_cases h now with ⟨hone, hopened⟩ | ⟨hmore, hstays⟩
      · obtain rfl : left = 0 := by omega
        cases rest with
        | nil => simp [breakersInvoked]
        | cons next rest =>
          refine iff_of_false ?_ (by simp)
          intro hnone
          exact hnone _ (breakersInvoked_head (List.cons_ne_nil _ _) _) hopened
      · obtain rfl : left = failuresLeft (breaker.recordFailure modelBreaker now) := by omega
        exact ih hstays

/-! ### The walk, by turns -/

section
variable {router request}

/-- The invocations of the rest of the chain. -/
abbrev walkInvocations (router : Router) (request : Request) :
    List String → Progress → List Invocation :=
  walkWith router request (fun _ => []) (fun modelId progress _ _ =>
    callInvocations router request modelId progress) fun modelId progress rest =>
      callInvocations router request modelId progress ++ rest

theorem invocations_eq (modelId : String) (progress : Progress) :
    invocations router request modelId progress =
      callInvocations router request modelId progress ++
        match callWithRetry router request modelId progress with
        | (some _, _) => []
        | (none, called) => walkInvocations router request router.fallbackChain called := by
  have hunfold : ∀ modelId progress, invocations router request modelId progress =
      match callWithRetry router request modelId progress with
      | (some _, _) => callInvocations router request modelId progress
      | (none, called) => callInvocations router request modelId progress ++
          tryWith router request (fun _ => []) (invocations router request) called := by
    intro modelId progress
    rw [invocations]
    split
    · rename_i hcall
      rw [hcall, List.append_nil]
    · rename_i called hcall
      rw [hcall]
      simp only [tryWith]
      split
      · rename_i hnext
        rw [hnext]
      · rename_i hnext
        rw [hnext]
  rw [hunfold]
  rcases callWithRetry router request modelId progress with ⟨_ | outcome, called⟩
  · have hnone : ∀ candidate ∈ ([] : List String), candidate ∈ called.tried := by simp
    have hwalk := tryWith_eq_walkWith _ _ _ (invocations router request) hunfold
      (List.nil_append router.fallbackChain).symm hnone
    simp only [hwalk]
  · simp

/-- A breaker that is not closed has no probe left after it has allowed a request. -/
theorem stuck_of_allowRequest {breaker : Breaker} (h : breaker.state ≠ .closed) {now : ℚ}
    (hallowed : (breaker.allowRequest modelBreaker now).1 = true) :
    Stuck (breaker.allowRequest modelBreaker now).2 := by
  by_cases hstuck : Stuck breaker
  · simp [allowRequest_of_stuck hstuck] at hallowed
  · rcases allowRequest_cases hstuck now with ⟨hclosed, -⟩ | ⟨-, -, hrefused⟩ | ⟨-, -, hprobed⟩
    · exact absurd hclosed h
    · simp [hrefused] at hallowed
    · exact hprobed

variable (request) in
/-- The progress after a candidate that has no turn. -/
def Progress.pass (progress : Progress) (candidate : String) : Progress :=
  { (progress.check request candidate).2 with tried := insert candidate progress.tried }

variable (request) in
/-- The progress after a candidate whose breaker is closed was checked. -/
def Progress.reach (progress : Progress) (candidate : String) : Progress :=
  { progress with reached := progress.reached ++ [(candidate, request.checkedAt candidate)] }

variable {candidate : String} {rest : List String} {progress : Progress}

/-- Refused, or asked for the probe, which the call to it then does not get. -/
theorem walkWith_of_not_closed {R : Type} {give : Progress → R}
    {stop : String → Progress → Outcome → Progress → R} {go : String → Progress → R → R}
    (htried : candidate ∉ progress.tried)
    (hstate : (progress.breakers candidate).state ≠ .closed) :
    walkWith router request give stop go (candidate :: rest) progress =
        walkWith router request give stop go rest (progress.pass request candidate) ∨
      ∃ checked : Progress, Stuck (checked.breakers candidate) ∧
        walkWith router request give stop go (candidate :: rest) progress =
          go candidate checked
            (walkWith router request give stop go rest (progress.pass request candidate)) := by
  simp only [walkWith, if_neg htried]
  split_ifs with hallowed
  · have hstuck : Stuck ((progress.check request candidate).2.breakers candidate) := by
      simpa [Progress.check, Progress.allowRequest] using stuck_of_allowRequest hstate hallowed
    refine Or.inr ⟨_, hstuck, ?_⟩
    simp only [callWithRetry_of_stuck _ hstuck]
    rfl
  · exact Or.inl rfl

theorem walkWith_of_closed {R : Type} {give : Progress → R}
    {stop : String → Progress → Outcome → Progress → R} {go : String → Progress → R → R}
    (htried : candidate ∉ progress.tried) (hstate : (progress.breakers candidate).state = .closed) :
    walkWith router request give stop go (candidate :: rest) progress =
      match callWithRetry router request candidate (progress.reach request candidate) with
      | (some outcome, called) => stop candidate (progress.reach request candidate) outcome called
      | (none, called) => go candidate (progress.reach request candidate)
          (walkWith router request give stop go rest called) := by
  have hcheck : progress.check request candidate = (true, progress.reach request candidate) := by
    simp [Progress.check, Progress.allowRequest, allowRequest_closed hstate, Progress.reach]
  rcases hcall : callWithRetry router request candidate (progress.reach request candidate) with
    ⟨_ | outcome, called⟩
  · simp only [walkWith, if_neg htried, hcheck, if_true, hcall]
  · simp only [walkWith, if_neg htried, hcheck, if_true, hcall]

variable (router request) in
theorem callInvocations_of_closed (hstate : (progress.breakers candidate).state = .closed) :
    callInvocations router request candidate progress =
      turnInvocations router request progress.breakers candidate := by
  simp [callInvocations, Progress.allowRequest, allowRequest_closed hstate, turnInvocations]

theorem callInvocations_of_stuck (hstuck : Stuck (progress.breakers candidate)) :
    callInvocations router request candidate progress = [] := by
  simp [callInvocations, Progress.allowRequest, allowRequest_of_stuck hstuck]

variable (router request) in
/-- What a turn leaves: the other breakers, and a model more that was tried. -/
theorem callWithRetry_closed (hstate : (progress.breakers candidate).state = .closed) :
    ((callWithRetry router request candidate progress).1 = none ↔
        AllFail (attempts router request candidate)) ∧
      (callWithRetry router request candidate progress).2.tried =
        insert candidate progress.tried ∧
      ∀ other ≠ candidate, (callWithRetry router request candidate progress).2.breakers other =
        progress.breakers other :=
  ⟨(callWithRetry_none_iff router request candidate progress).trans
      (givesUp_of_closed hstate candidate _),
    tried_callWithRetry router request candidate progress,
    fun _ hne => callWithRetry_breakers_of_ne router request candidate progress hne⟩

theorem pass_breakers_of_ne {other : String} (hne : other ≠ candidate) :
    (progress.pass request candidate).breakers other = progress.breakers other := by
  simp [Progress.pass, Progress.check, Progress.allowRequest, hne]

theorem mem_turns {breakers : String → Breaker} {tried : Finset String} {modelId : String}
    (h : modelId ∈ turns router request breakers tried rest) :
    modelId ∈ rest ∧ modelId ∉ tried ∧ (breakers modelId).state = .closed := by
  induction rest generalizing tried with
  | nil => cases h
  | cons first rest ih =>
    have hlater : ∀ {tried'}, tried ⊆ tried' → modelId ∈ turns router request breakers tried' rest →
        modelId ∈ first :: rest ∧ modelId ∉ tried ∧ (breakers modelId).state = .closed := by
      intro tried' hsub hmem
      obtain ⟨hrest, htried, hclosed⟩ := ih hmem
      exact ⟨List.mem_cons_of_mem _ hrest, fun hmem => htried (hsub hmem), hclosed⟩
    rw [turns] at h
    split_ifs at h with htried hclosed hfails
    · exact hlater subset_rfl h
    · rcases List.mem_cons.mp h with rfl | hrest
      · exact ⟨List.mem_cons_self, htried, hclosed⟩
      · exact hlater (Finset.subset_insert _ _) hrest
    · obtain rfl := List.mem_singleton.mp h
      exact ⟨List.mem_cons_self, htried, hclosed⟩
    · exact hlater (Finset.subset_insert _ _) h

/-- A closed model has its turn if all that have one fail. -/
theorem mem_turns_of_fail {breakers : String → Breaker} {tried : Finset String} {modelId : String}
    (hmem : modelId ∈ rest) (huntried : modelId ∉ tried)
    (hclosed : (breakers modelId).state = .closed)
    (hfail : ∀ other ∈ turns router request breakers tried rest,
      AllFail (attempts router request other)) :
    modelId ∈ turns router request breakers tried rest := by
  induction rest generalizing tried with
  | nil => cases hmem
  | cons candidate rest ih =>
    rw [turns] at hfail ⊢
    by_cases hsame : modelId = candidate
    · subst hsame
      rw [if_neg huntried, if_pos hclosed]
      exact List.mem_cons_self
    have hrest : modelId ∈ rest := List.mem_of_ne_of_mem hsame hmem
    have hinsert : modelId ∉ insert candidate tried := by simp [hsame, huntried]
    split_ifs at hfail ⊢ with htried hstate hall
    · exact ih hrest huntried hfail
    · exact List.mem_cons_of_mem _ (ih hrest hinsert (List.forall_mem_cons.mp hfail).2)
    · exact absurd (hfail candidate (List.mem_singleton_self _)) hall
    · exact ih hrest hinsert hfail

theorem forall_turns_iff {breakers : String → Breaker} {tried : Finset String} :
    (∀ modelId ∈ turns router request breakers tried rest,
        AllFail (attempts router request modelId)) ↔
      ∀ modelId ∈ rest, modelId ∉ tried → (breakers modelId).state = .closed →
        AllFail (attempts router request modelId) := by
  constructor
  · intro hall modelId hmem huntried hclosed
    exact hall modelId (mem_turns_of_fail hmem huntried hclosed hall)
  · intro hall modelId hturn
    obtain ⟨hmem, huntried, hclosed⟩ := mem_turns hturn
    exact hall modelId hmem huntried hclosed

/-- The rule of the walk: what each turn adds to the turns after it, and a probe that the call
does not get leaves alone, holds of all turns. -/
theorem walkWith_turns {R : Type} {give : Progress → R}
    {stop : String → Progress → Outcome → Progress → R} {go : String → Progress → R → R}
    {breakers : String → Breaker} {motive : List String → R → Prop}
    (hgive : ∀ progress, motive [] (give progress))
    (hstop : ∀ {candidate progress outcome called},
      progress.breakers candidate = breakers candidate →
      (progress.breakers candidate).state = .closed →
      callWithRetry router request candidate progress = (some outcome, called) →
        motive [candidate] (stop candidate progress outcome called))
    (hfail : ∀ {candidate progress models result},
      progress.breakers candidate = breakers candidate →
      (progress.breakers candidate).state = .closed →
      AllFail (attempts router request candidate) → motive models result →
        motive (candidate :: models) (go candidate progress result))
    (hprobe : ∀ {candidate progress models result}, Stuck (progress.breakers candidate) →
      motive models result → motive models (go candidate progress result))
    (rest : List String) (progress : Progress)
    (hsame : ∀ modelId ∉ progress.tried, progress.breakers modelId = breakers modelId) :
    motive (turns router request breakers progress.tried rest)
      (walkWith router request give stop go rest progress) := by
  induction rest generalizing progress with
  | nil => exact hgive progress
  | cons candidate rest ih =>
    -- the turns after this candidate, with the breakers that it leaves
    have hrest : ∀ progress' : Progress, progress'.tried = insert candidate progress.tried →
        (∀ other ≠ candidate, progress'.breakers other = progress.breakers other) →
        motive (turns router request breakers (insert candidate progress.tried) rest)
          (walkWith router request give stop go rest progress') := by
      intro progress' htried hother
      rw [← htried]
      apply ih
      intro modelId hmodelId
      obtain ⟨hne, huntried⟩ := not_or.mp (Finset.mem_insert.not.mp (htried ▸ hmodelId))
      rw [hother modelId hne, hsame modelId huntried]
    by_cases htried : candidate ∈ progress.tried
    · simp only [turns, walkWith, if_pos htried]
      exact ih progress hsame
    have hcandidate := hsame candidate htried
    rw [turns, if_neg htried, ← hcandidate]
    by_cases hstate : (progress.breakers candidate).state = .closed
    · have hreach : ((progress.reach request candidate).breakers candidate).state = .closed :=
        hstate
      obtain ⟨hnone, hinsert, hother⟩ := callWithRetry_closed router request hreach
      rw [if_pos hstate, walkWith_of_closed htried hstate]
      rcases hcall : callWithRetry router request candidate (progress.reach request candidate) with
        ⟨_ | outcome, called⟩
      · rw [hcall] at hnone hinsert hother
        have hall : AllFail (attempts router request candidate) := hnone.mp rfl
        rw [if_pos hall]
        exact hfail hcandidate hstate hall (hrest called hinsert hother)
      · rw [hcall] at hnone
        rw [if_neg (by simpa using hnone)]
        exact hstop hcandidate hstate hcall
    · have hpass := hrest (progress.pass request candidate) rfl fun _ hne =>
        pass_breakers_of_ne hne
      rw [if_neg hstate]
      rcases walkWith_of_not_closed htried hstate with heq | ⟨checked, hstuck, heq⟩
      · rw [heq]
        exact hpass
      · rw [heq]
        exact hprobe hstuck hpass

/-- What is invoked in the rest of the chain, turn by turn. -/
theorem walkInvocations_eq {breakers : String → Breaker} (rest : List String) (progress : Progress)
    (hsame : ∀ modelId ∉ progress.tried, progress.breakers modelId = breakers modelId) :
    walkInvocations router request rest progress =
      (turns router request breakers progress.tried rest).flatMap
        (turnInvocations router request breakers) := by
  have hturn : ∀ {candidate : String} {progress : Progress},
      progress.breakers candidate = breakers candidate →
      (progress.breakers candidate).state = .closed →
        callInvocations router request candidate progress =
          turnInvocations router request breakers candidate := by
    intro candidate progress hcandidate hstate
    rw [callInvocations_of_closed router request hstate, turnInvocations, turnInvocations,
      hcandidate]
  refine walkWith_turns (motive := fun models result =>
    result = models.flatMap (turnInvocations router request breakers)) ?_ ?_ ?_ ?_ rest progress
      hsame
  · intro progress
    rfl
  · intro candidate progress outcome called hcandidate hstate _
    rw [hturn hcandidate hstate, List.flatMap_singleton]
  · intro candidate progress models result hcandidate hstate _ hresult
    rw [hturn hcandidate hstate, hresult, List.flatMap_cons]
  · intro candidate progress models result hstuck hresult
    rw [callInvocations_of_stuck hstuck, List.nil_append, hresult]

theorem runAttempts_ne (modelId : String) (attempts : List Attempt) (breaker : Breaker) :
    (runAttempts modelId attempts breaker).1 ≠ some .allModelsFailed := by
  induction attempts generalizing breaker with
  | nil => simp [runAttempts]
  | cons attempt rest ih =>
    cases attempt with
    | fails now => exact ih _
    | failsThenCancelled now =>
      rw [runAttempts]
      split_ifs <;> simp
    | succeeds | cancelled => simp [runAttempts]

theorem callWithRetry_ne (modelId : String) (progress : Progress) :
    (callWithRetry router request modelId progress).1 ≠ some .allModelsFailed := by
  simp only [callWithRetry]
  split_ifs
  · exact runAttempts_ne _ _ _
  · exact runAttempts_ne _ _ _
  · intro heq
    cases heq

/-- The chain is exhausted when all models that have a turn fail. -/
theorem exhausted_walk_iff {breakers : String → Breaker} (rest : List String) (progress : Progress)
    (hsame : ∀ modelId ∉ progress.tried, progress.breakers modelId = breakers modelId) :
    (walk router request rest progress).1 = .allModelsFailed ↔
      ∀ modelId ∈ turns router request breakers progress.tried rest,
        AllFail (attempts router request modelId) := by
  rw [walk_eq_walkWith]
  refine walkWith_turns (motive := fun models (result : Outcome × Progress) =>
    result.1 = .allModelsFailed ↔ ∀ modelId ∈ models, AllFail (attempts router request modelId))
      ?_ ?_ ?_ ?_ rest progress hsame
  · intro progress
    simp
  · intro candidate progress outcome called _ hstate hcall
    have hne := @callWithRetry_ne router request candidate progress
    obtain ⟨hnone, -⟩ := callWithRetry_closed router request hstate
    rw [hcall] at hne hnone
    refine iff_of_false (fun heq => hne (congrArg some heq)) fun hall => ?_
    simpa using hnone.mpr (hall candidate List.mem_cons_self)
  · intro candidate progress models result _ _ hall hresult
    rw [List.forall_mem_cons, and_iff_right hall, hresult]
  · intro candidate progress models result _ hresult
    exact hresult

end

/-! ### The call -/

instance decidableGivesUp (breaker : Breaker) (modelId : String) (now : ℚ) :
    Decidable (GivesUp router request breaker modelId now) :=
  inferInstanceAs (Decidable (_ → _))

/-- The answer of the breaker of the model that comes first. -/
def firstAnswer (first : String) (breakers : String → Breaker) : Bool × Breaker :=
  (breakers first).allowRequest modelBreaker (request.askedAt first)

/-- The model that comes first passes the call on to the chain. -/
def FirstGivesUp (first : String) (breakers : String → Breaker) : Prop :=
  GivesUp router request (breakers first) first (request.askedAt first)

instance (first : String) (breakers : String → Breaker) :
    Decidable (FirstGivesUp router request first breakers) :=
  decidableGivesUp router request _ _ _

/-- What the first model's turn leaves to the walk. -/
theorem first_turn (first : String) (breakers : String → Breaker) :
    ∃ outcome called, callWithRetry router request first (startAt request first breakers) =
        (outcome, called) ∧
      (outcome = none ↔ FirstGivesUp router request first breakers) ∧
      outcome ≠ some .allModelsFailed ∧ called.tried = {first} ∧
      ∀ other ∉ called.tried, called.breakers other = breakers other := by
  have htried : (callWithRetry router request first (startAt request first breakers)).2.tried =
      {first} := tried_callWithRetry router request first _
  have hgives := callWithRetry_none_iff router request first (startAt request first breakers)
  have hne := @callWithRetry_ne router request first (startAt request first breakers)
  have hsame : ∀ other ≠ first, (callWithRetry router request first
      (startAt request first breakers)).2.breakers other = breakers other :=
    fun _ hne => callWithRetry_breakers_of_ne router request first _ hne
  rcases hcall : callWithRetry router request first (startAt request first breakers) with
    ⟨outcome, called⟩
  rw [hcall] at htried hgives hne hsame
  refine ⟨outcome, called, rfl, hgives, hne, htried, ?_⟩
  intro other huntried
  apply hsame
  rintro rfl
  rw [htried] at huntried
  exact huntried (Finset.mem_singleton_self _)

/-- What a call invokes, read off the breakers and the outcomes. -/
theorem invocations_startAt (first : String) (breakers : String → Breaker) :
    invocations router request first (startAt request first breakers) =
      (if (firstAnswer request first breakers).1 then
        (breakersInvoked (attempts router request first) (firstAnswer request first breakers).2).map
          (Invocation.mk first)
      else []) ++
      if FirstGivesUp router request first breakers then
        (turns router request breakers {first} router.fallbackChain).flatMap
          (turnInvocations router request breakers)
      else [] := by
  obtain ⟨outcome, called, hcall, hgives, -, htried, hsame⟩ :=
    first_turn router request first breakers
  have hfirst : callInvocations router request first (startAt request first breakers) =
      if (firstAnswer request first breakers).1 then
        (breakersInvoked (attempts router request first) (firstAnswer request first breakers).2).map
          (Invocation.mk first)
      else [] := by
    simp only [callInvocations, Progress.allowRequest, Function.update_self]
    rfl
  rw [invocations_eq, hfirst, hcall]
  congr 1
  cases outcome with
  | none =>
    rw [if_pos (hgives.mp rfl), ← htried]
    exact walkInvocations_eq _ _ hsame
  | some outcome =>
    rw [if_neg fun h => Option.some_ne_none _ (hgives.mpr h)]

/-- All models failed when the selected one and all closed ones of the chain did. -/
theorem exhausted_iff (routing : Routing) :
    (callWithFallback router request routing).1 = .allModelsFailed ↔
      FirstGivesUp router request (selected router request routing) routing.breakers ∧
        ∀ modelId ∈ router.fallbackChain, modelId ≠ selected router request routing →
          (routing.breakers modelId).state = .closed →
            AllFail (attempts router request modelId) := by
  obtain ⟨outcome, called, hcall, hgives, hne, htried, hsame⟩ :=
    first_turn router request (selected router request routing) routing.breakers
  have hstart : callWithRetry router request (selected router request routing)
      (start router request routing) = (outcome, called) := hcall
  rw [callWithFallback_eq, hstart]
  cases outcome with
  | none =>
    rw [and_iff_right (hgives.mp rfl)]
    dsimp only
    rw [exhausted_walk_iff _ _ hsame, forall_turns_iff, htried]
    simp only [Finset.mem_singleton]
  | some outcome =>
    refine iff_of_false (fun heq => hne (congrArg some heq)) fun hall => ?_
    exact Option.some_ne_none _ (hgives.mpr hall.1)

/-! ### What the caller may rely on -/

/-- The breaker admits a request when the call comes to the model. -/
def Admits (routing : Routing) (modelId : String) : Prop :=
  ((routing.breakers modelId).allowRequest modelBreaker
    (if modelId = selected router request routing then request.askedAt modelId
      else request.checkedAt modelId)).1 = true

/-- No model is attempted too often, or on an open breaker, and all models failed only if each
that a breaker admits was invoked and failed. -/
structure Dependable (routing : Routing) : Prop where
  atMost : ∀ modelId, (invoked router request routing).countP (·.modelId = modelId) ≤
    (router.maxRetries + 1).toNat
  notOpen : ∀ i ∈ invoked router request routing, i.breaker.state ≠ .opened
  failures : (callWithFallback router request routing).1 = .allModelsFailed →
    ∀ modelId ∈ selected router request routing :: router.fallbackChain,
      Admits router request routing modelId →
        (∃ i ∈ invoked router request routing, i.modelId = modelId) ∧
          AllFail (attempts router request modelId)

/-- No model that has a turn fails as often as opens its breaker before its last attempt. If all
give up, there are attempts, and no model of the chain but the selected one may still be probed. -/
structure StopsInTime (routing : Routing) : Prop where
  first : (firstAnswer request (selected router request routing) routing.breakers).1 = true →
    ¬ Overruns (firstAnswer request (selected router request routing) routing.breakers).2
      (attempts router request (selected router request routing))
  chain : FirstGivesUp router request (selected router request routing) routing.breakers →
    ∀ modelId ∈ turns router request routing.breakers {selected router request routing}
        router.fallbackChain,
      ¬ Overruns (routing.breakers modelId) (attempts router request modelId)
  exhausted : FirstGivesUp router request (selected router request routing) routing.breakers →
    (∀ modelId ∈ router.fallbackChain, modelId ≠ selected router request routing →
      (routing.breakers modelId).state = .closed → AllFail (attempts router request modelId)) →
    ∀ modelId ∈ selected router request routing :: router.fallbackChain,
      Admits router request routing modelId → 0 ≤ router.maxRetries ∧
        (modelId ≠ selected router request routing → (routing.breakers modelId).state = .closed)

section
variable {router request} {first : String} {breakers : String → Breaker}

theorem length_attempts (modelId : String) :
    (attempts router request modelId).length = (router.maxRetries + 1).toNat := by
  rw [attempts, List.length_map, List.length_range]

variable (router request) in
theorem attempts_ne_nil_iff (modelId : String) :
    attempts router request modelId ≠ [] ↔ 0 ≤ router.maxRetries := by
  rw [← List.length_pos_iff, length_attempts]
  omega

theorem not_opened_of_allowRequest {breaker : Breaker} {now : ℚ}
    (hallowed : (breaker.allowRequest modelBreaker now).1 = true) :
    (breaker.allowRequest modelBreaker now).2.state ≠ .opened := by
  by_cases hstate : breaker.state = .closed
  · rw [allowRequest_closed hstate, hstate]
    exact nofun
  · rw [(stuck_of_allowRequest hstate hallowed).1]
    exact nofun

variable (router request) in
theorem nodup_turns (breakers : String → Breaker) (tried : Finset String) (chain : List String) :
    (turns router request breakers tried chain).Nodup := by
  induction chain generalizing tried with
  | nil => exact List.nodup_nil
  | cons candidate rest ih =>
    rw [turns]
    split_ifs
    · exact ih tried
    · rw [List.nodup_cons]
      refine ⟨fun hmem => ?_, ih _⟩
      exact (mem_turns hmem).2.1 (Finset.mem_insert_self _ _)
    · exact List.nodup_singleton _
    · exact ih _

variable (router request) in
/-- A model's turn is at most all attempts on it. -/
theorem countP_turn_le (modelId other : String) (breaker : Breaker) :
    (((breakersInvoked (attempts router request other) breaker).map (Invocation.mk other)).countP
        (·.modelId = modelId)) ≤ if other = modelId then (router.maxRetries + 1).toNat else 0 := by
  rw [List.countP_map]
  split_ifs with hsame
  · refine (List.countP_le_length).trans ?_
    have hlength := length_breakersInvoked_le (attempts router request other) breaker
    rwa [length_attempts] at hlength
  · simp [Function.comp_def, hsame]

variable (router request) in
theorem countP_turns_le (breakers : String → Breaker) (modelId : String) {models : List String}
    (hnodup : models.Nodup) :
    (models.flatMap (turnInvocations router request breakers)).countP (·.modelId = modelId) ≤
      if modelId ∈ models then (router.maxRetries + 1).toNat else 0 := by
  induction models with
  | nil => simp
  | cons other rest ih =>
    rw [List.flatMap_cons, List.countP_append, turnInvocations]
    obtain ⟨hother, hrest⟩ := List.nodup_cons.mp hnodup
    have hturn := countP_turn_le router request modelId other (breakers other)
    have hlater := ih hrest
    by_cases hsame : other = modelId
    · subst hsame
      rw [if_neg hother] at hlater
      rw [if_pos rfl] at hturn
      rw [if_pos List.mem_cons_self]
      omega
    · rw [if_neg hsame] at hturn
      have hne : modelId ≠ other := fun h => hsame h.symm
      have hiff : modelId ∈ other :: rest ↔ modelId ∈ rest := by
        rw [List.mem_cons, or_iff_right hne]
      simp only [hiff]
      omega

theorem countP_ite_le {α : Type} (p : Prop) [Decidable p] (q : α → Bool) (l : List α) :
    (if p then l else []).countP q ≤ l.countP q := by
  split_ifs
  · exact le_rfl
  · exact Nat.zero_le _

/-- Every model is attempted at most as often as it may be retried, and once more. -/
theorem countP_invoked_le (modelId : String) :
    (invocations router request first (startAt request first breakers)).countP
        (·.modelId = modelId) ≤ (router.maxRetries + 1).toNat := by
  let chain := turns router request breakers {first} router.fallbackChain
  have hfirst := countP_turn_le router request modelId first (firstAnswer request first breakers).2
  have hnodup : chain.Nodup := nodup_turns router request _ _ _
  have hchain := countP_turns_le router request breakers modelId hnodup
  -- the selected model has no second turn in the chain
  have hsum : (if first = modelId then (router.maxRetries + 1).toNat else 0) +
      (if modelId ∈ chain then (router.maxRetries + 1).toNat else 0) ≤
        (router.maxRetries + 1).toNat := by
    by_cases hsame : first = modelId
    · have hnot : modelId ∉ chain := by
        intro hmem
        apply (mem_turns hmem).2.1
        rw [hsame]
        exact Finset.mem_singleton_self _
      rw [if_pos hsame, if_neg hnot, add_zero]
    · rw [if_neg hsame, zero_add]
      split_ifs
      · exact le_rfl
      · exact Nat.zero_le _
  rw [invocations_startAt, List.countP_append]
  exact (Nat.add_le_add ((countP_ite_le _ _ _).trans hfirst)
    ((countP_ite_le _ _ _).trans hchain)).trans hsum

/-- No attempt is made on an open breaker unless a model that has a turn overruns. -/
theorem invoked_not_opened_iff :
    (∀ i ∈ invocations router request first (startAt request first breakers),
        i.breaker.state ≠ .opened) ↔
      ((firstAnswer request first breakers).1 = true →
        ¬ Overruns (firstAnswer request first breakers).2 (attempts router request first)) ∧
      (FirstGivesUp router request first breakers →
        ∀ modelId ∈ turns router request breakers {first} router.fallbackChain,
          ¬ Overruns (breakers modelId) (attempts router request modelId)) := by
  rw [invocations_startAt, List.forall_mem_append]
  apply and_congr
  · split_ifs with hallowed
    · have hopen : (firstAnswer request first breakers).2.state ≠ .opened :=
        not_opened_of_allowRequest hallowed
      rw [List.forall_mem_map, ← breakersInvoked_opened_iff _ hopen]
      simp [hallowed]
    · simp [hallowed]
  · split_ifs with hgives
    · rw [List.forall_mem_flatMap]
      simp only [hgives, true_implies]
      apply forall₂_congr
      intro modelId hmem
      have hclosed : (breakers modelId).state ≠ .opened := by
        rw [(mem_turns hmem).2.2]
        exact nofun
      rw [turnInvocations, List.forall_mem_map, breakersInvoked_opened_iff _ hclosed]
    · simp [hgives]

/-- A model is invoked if it is the selected one and admitted, or has a turn in the chain. -/
theorem invokes_iff (modelId : String) :
    (∃ i ∈ invocations router request first (startAt request first breakers), i.modelId = modelId) ↔
      0 ≤ router.maxRetries ∧
        (modelId = first ∧ (firstAnswer request first breakers).1 = true ∨
          FirstGivesUp router request first breakers ∧
            modelId ∈ turns router request breakers {first} router.fallbackChain) := by
  have hturn : ∀ other breaker, (∃ i ∈ (breakersInvoked (attempts router request other) breaker).map
      (Invocation.mk other), i.modelId = modelId) ↔ 0 ≤ router.maxRetries ∧ modelId = other := by
    intro other breaker
    rw [← attempts_ne_nil_iff router request other]
    constructor
    · rintro ⟨i, hi, rfl⟩
      obtain ⟨b, hb, rfl⟩ := List.mem_map.mp hi
      refine ⟨fun hnil => ?_, rfl⟩
      rw [hnil] at hb
      cases hb
    · rintro ⟨hne, rfl⟩
      exact ⟨_, List.mem_map_of_mem (breakersInvoked_head hne breaker), rfl⟩
  rw [invocations_startAt]
  simp only [List.mem_append, or_and_right, exists_or, and_or_left]
  apply or_congr
  · split_ifs with hallowed
    · rw [hturn]
      simp [hallowed]
    · simp [hallowed]
  · split_ifs with hgives
    · simp only [List.mem_flatMap, hgives, true_and]
      constructor
      · rintro ⟨i, ⟨other, hother, hi⟩, hsame⟩
        obtain ⟨hretries, rfl⟩ := (hturn other _).mp ⟨i, hi, hsame⟩
        exact ⟨hretries, hother⟩
      · rintro ⟨hretries, hmem⟩
        obtain ⟨i, hi, hsame⟩ := (hturn modelId (breakers modelId)).mpr ⟨hretries, rfl⟩
        exact ⟨i, ⟨modelId, hmem, hi⟩, hsame⟩
    · simp [hgives]

end

/-- The caller may rely on the call exactly if it stops in time. -/
theorem dependable_iff (routing : Routing) :
    Dependable router request routing ↔ StopsInTime router request routing := by
  constructor
  · intro h
    obtain ⟨hfirst, hchain⟩ := invoked_not_opened_iff.mp h.notOpen
    refine ⟨hfirst, hchain, fun hgives hfail modelId hmem hadmits => ?_⟩
    have hall := (exhausted_iff router request routing).mpr ⟨hgives, hfail⟩
    obtain ⟨hinvoked, -⟩ := h.failures hall modelId hmem hadmits
    obtain ⟨hretries, ⟨hsame, -⟩ | ⟨-, hturn⟩⟩ := (invokes_iff modelId).mp hinvoked
    · exact ⟨hretries, fun hne => absurd hsame hne⟩
    · exact ⟨hretries, fun _ => (mem_turns hturn).2.2⟩
  · intro h
    refine ⟨countP_invoked_le, invoked_not_opened_iff.mpr ⟨h.first, h.chain⟩, ?_⟩
    intro hall modelId hmem hadmits
    obtain ⟨hgives, hfail⟩ := (exhausted_iff router request routing).mp hall
    obtain ⟨hretries, hclosed⟩ := h.exhausted hgives hfail modelId hmem hadmits
    by_cases hsame : modelId = selected router request routing
    · have hanswer :
          (firstAnswer request (selected router request routing) routing.breakers).1 = true := by
        rw [Admits, if_pos hsame, hsame] at hadmits
        exact hadmits
      refine ⟨(invokes_iff modelId).mpr ⟨hretries, Or.inl ⟨hsame, hanswer⟩⟩, ?_⟩
      rw [hsame]
      exact hgives hanswer
    · have hchain : modelId ∈ router.fallbackChain := (List.mem_cons.mp hmem).resolve_left hsame
      have huntried : modelId ∉ ({selected router request routing} : Finset String) := by
        simpa using hsame
      have hturn := mem_turns_of_fail hchain huntried (hclosed hsame) <|
        forall_turns_iff.mpr fun other hother hne => hfail other hother (by simpa using hne)
      exact ⟨(invokes_iff modelId).mpr ⟨hretries, Or.inr ⟨hgives, hturn⟩⟩,
        hfail modelId hchain hsame (hclosed hsame)⟩

/-- Gemini Flash fails whenever it is called. -/
def flashDown : Request where
  agentType := "signal-generator"
  checkedAt := fun _ => 0
  askedAt := fun _ => 0
  attempt := fun modelId _ => if modelId = "google/gemini-3.0-flash" then .fails 0 else .succeeds

/-- The fifth failure comes at the second of three attempts, the third is made all the same. -/
theorem secondCall_not_dependable :
    ¬ Dependable {} flashDown (Routing.step {} {} (.callWithFallback flashDown)) := by
  intro h
  have hnotOpen := h.notOpen
  rw [invoked, invocations_startAt] at hnotOpen
  revert hnotOpen
  simp only [Routing.step, callWithFallback_eq]
  decide +kernel

end TradeStream.ModelRouter
