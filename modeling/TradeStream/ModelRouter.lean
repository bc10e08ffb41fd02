import TradeStream.CircuitBreaker

/-! `ModelRouter.call_with_fallback`: the model that is selected, retried, and then the
models of the fallback chain, each behind its circuit breaker. -/
namespace TradeStream.ModelRouter
open TradeStream.RunSteps TradeStream.CircuitBreaker
open scoped List

structure EscalationRule where
  scoreThreshold : ℚ
  model : String

structure AgentRoutingConfig where
  defaultModel : String
  escalationRules : List EscalationRule := []

def defaultRouting : String → Option AgentRoutingConfig
  | "signal-generator" => some { defaultModel := "google/gemini-3.0-flash" }
  | "opportunity-scorer" => some { defaultModel := "google/gemini-3.0-pro" }
  | "portfolio-advisor" =>
    some
      { defaultModel := "openai/gpt-5.2"
        escalationRules :=
          [⟨70, "anthropic/claude-sonnet-4.5"⟩, ⟨85, "anthropic/claude-opus-4.5"⟩] }
  | "report-generator" => some { defaultModel := "google/gemini-3.0-flash" }
  | "learning" => some { defaultModel := "anthropic/claude-sonnet-4.5" }
  | "janitor" => some { defaultModel := "google/gemini-3.0-pro" }
  | _ => none

structure ModelPricing where
  inputPerMillion : ℚ
  outputPerMillion : ℚ

def ModelPricing.costPer1kTokens (pricing : ModelPricing) : ℚ :=
  pricing.inputPerMillion / 1000000 * 600 + pricing.outputPerMillion / 1000000 * 400

/-- `get_model`, of which the router uses the pricing. -/
def getModel : String → Option ModelPricing
  | "google/gemini-3.0-flash" => some ⟨0.10, 0.40⟩
  | "google/gemini-3.0-pro" => some ⟨1.25, 5.00⟩
  | "openai/gpt-5.2" => some ⟨1.75, 14.00⟩
  | "anthropic/claude-sonnet-4.5" => some ⟨3.00, 15.00⟩
  | "anthropic/claude-opus-4.5" => some ⟨15.00, 75.00⟩
  | _ => none

structure Router where
  routingTable : String → Option AgentRoutingConfig := defaultRouting
  fallbackChain : List String :=
    ["google/gemini-3.0-flash", "google/gemini-3.0-pro", "openai/gpt-5.2",
      "anthropic/claude-sonnet-4.5"]
  maxRetries : ℤ := 2

/-- An empty cap is no cap. -/
def applyBudgetCap (maxModel : Option String) (modelId : String) : String :=
  match maxModel with
  | none | some "" => modelId
  | some maxModel =>
    -- a model without a price is neither cap nor capped
    match getModel maxModel, getModel modelId with
    | some cap, some model =>
      if cap.costPer1kTokens < model.costPer1kTokens then maxModel else modelId
    | _, _ => modelId

def escalate (config : AgentRoutingConfig) (opportunityScore : Option ℚ) : String :=
  match opportunityScore with
  | none => config.defaultModel
  | some score =>
    let rules := config.escalationRules.insertionSort fun r s => s.scoreThreshold ≤ r.scoreThreshold
    match rules.find? fun rule => rule.scoreThreshold ≤ score with
    | some rule => rule.model
    | none => config.defaultModel

/-- `select_model`. The cap does not concern an unknown agent. -/
def selectModel (router : Router) (maxModel : Option String) (agentType : String)
    (opportunityScore : Option ℚ) : String :=
  match router.routingTable agentType with
  | none => "google/gemini-3.0-flash"
  | some config => applyBudgetCap maxModel (escalate config opportunityScore)

/-- What an attempt comes to. A cancellation is not caught; it may also come in the sleep
after a failure. -/
inductive Attempt where
  | succeeds
  | fails (now : ℚ)
  | failsThenCancelled (now : ℚ)
  | cancelled
  deriving DecidableEq

/-- A call, with the times at which a breaker is asked for a fallback candidate
(`checkedAt`) and for a call to a model (`askedAt`). In one call neither happens twice for
a model. -/
structure Request where
  agentType : String
  opportunityScore : Option ℚ := none
  checkedAt : String → ℚ
  askedAt : String → ℚ
  attempt : String → ℕ → Attempt

inductive Outcome where
  | returned (modelId : String)
  | raised
  | allModelsFailed
  deriving DecidableEq

/-- Where a call stands. `called` and `reached` observe the models that it called, and
those that it came to, with the time. -/
structure Progress where
  breakers : String → Breaker
  tried : Finset String := ∅
  called : List String := []
  reached : List (String × ℚ) := []

/-- `ModelCircuitBreaker` with its defaults, a `CircuitBreaker` with one probe. Its users
do not see the successes counted. -/
def modelBreaker : CircuitBreaker.Config where
  failureThreshold := 5
  recoveryTimeout := 60
  halfOpenMaxCalls := 1

/-- `allow_request` of a model's breaker. -/
def Progress.allowRequest (progress : Progress) (modelId : String) (now : ℚ) :
    Bool × Progress :=
  let (allowed, breaker) := (progress.breakers modelId).allowRequest modelBreaker now
  (allowed, { progress with breakers := Function.update progress.breakers modelId breaker })

/-- The attempts on one model, and how they end the call, unless all fail. -/
def runAttempts (modelId : String) : List Attempt → Breaker → Option Outcome × Breaker
  | [], breaker => (none, breaker)
  | .succeeds :: _, breaker => (some (.returned modelId), breaker.recordSuccess)
  | .cancelled :: _, breaker => (some .raised, breaker)
  | .fails now :: rest, breaker =>
    runAttempts modelId rest (breaker.recordFailure modelBreaker now)
  | .failsThenCancelled now :: rest, breaker =>
    -- there is no sleep after the last attempt
    (if rest.isEmpty then none else some .raised, breaker.recordFailure modelBreaker now)

variable (router : Router) (request : Request)

def attempts (modelId : String) : List Attempt :=
  (List.range (router.maxRetries + 1).toNat).map (request.attempt modelId)

/-- `_call_with_retry_and_fallback` up to its fallback. -/
def callWithRetry (modelId : String) (progress : Progress) : Option Outcome × Progress :=
  let progress := { progress with tried := insert modelId progress.tried }
  let (allowed, progress) := progress.allowRequest modelId (request.askedAt modelId)
  if allowed then
    let attempts := attempts router request modelId
    let (outcome, breaker) := runAttempts modelId attempts (progress.breakers modelId)
    (outcome, { progress with
      breakers := Function.update progress.breakers modelId breaker
      called := if attempts.isEmpty then progress.called else progress.called ++ [modelId] })
  else (none, progress)

/-- A candidate's breaker is asked. -/
def Progress.check (progress : Progress) (candidate : String) : Bool × Progress :=
  let now := request.checkedAt candidate
  let (allowed, progress) := progress.allowRequest candidate now
  (allowed, { progress with reached := progress.reached ++ [(candidate, now)] })

/-- The walk of `_try_fallback` along the chain, to a candidate whose breaker allows it. -/
def nextCandidate : List String → Progress → Option String × Progress
  | [], progress => (none, progress)
  | candidate :: rest, progress =>
    if candidate ∈ progress.tried then nextCandidate rest progress
    else
      let (allowed, progress) := progress.check request candidate
      if allowed then (some candidate, progress)
      else nextCandidate rest { progress with tried := insert candidate progress.tried }

variable {router request}

@[simp] theorem tried_allowRequest (progress : Progress) (modelId : String) (now : ℚ) :
    (progress.allowRequest modelId now).2.tried = progress.tried := rfl

variable (router request) in
theorem tried_callWithRetry (modelId : String) (progress : Progress) :
    (callWithRetry router request modelId progress).2.tried = insert modelId progress.tried := by
  simp only [callWithRetry]
  split_ifs <;> rfl

theorem nextCandidate_some {chain : List String} {progress progress' : Progress}
    {candidate : String}
    (h : nextCandidate request chain progress = (some candidate, progress')) :
    candidate ∈ chain ∧ candidate ∉ progress'.tried ∧ progress.tried ⊆ progress'.tried := by
  induction chain generalizing progress with
  | nil => cases h
  | cons first rest ih =>
    simp only [nextCandidate] at h
    split_ifs at h with htried
    · obtain ⟨hmem, hrest⟩ := ih h
      exact ⟨List.mem_cons_of_mem _ hmem, hrest⟩
    · obtain ⟨hfirst, rfl⟩ := Prod.mk.inj h
      obtain rfl := Option.some.inj hfirst
      exact ⟨List.mem_cons_self, htried, subset_rfl⟩
    · obtain ⟨hmem, huntried, hsub⟩ := ih h
      exact ⟨List.mem_cons_of_mem _ hmem, huntried, (Finset.subset_insert _ _).trans hsub⟩

theorem untried_lt {chain : List String} {tried tried' : Finset String} {candidate : String}
    (hsub : tried ⊆ tried') (hmem : candidate ∈ chain) (huntried : candidate ∉ tried') :
    (chain.filter (· ∉ insert candidate tried')).length <
      (chain.filter (· ∉ tried)).length := by
  have hfewer : chain.filter (· ∉ insert candidate tried') <+ chain.filter (· ∉ tried) := by
    apply List.monotone_filter_right
    intro modelId huntried
    simp only [Finset.mem_insert, not_or, decide_eq_true_eq] at huntried ⊢
    exact fun htried => huntried.2 (hsub htried)
  by_contra hle
  have hsame := hfewer.eq_of_length_le (not_lt.mp hle)
  have hcandidate : candidate ∈ chain.filter (· ∉ tried) := by
    simpa [hmem] using fun htried => huntried (hsub htried)
  rw [← hsame] at hcandidate
  simp at hcandidate

variable (router request)

/-- `_call_with_retry_and_fallback`. -/
def callWithRetryAndFallback (modelId : String) (progress : Progress) : Outcome × Progress :=
  match _hcall : callWithRetry router request modelId progress with
  | (some outcome, called) => (outcome, called)
  | (none, called) =>
    match _hnext : nextCandidate request router.fallbackChain called with
    | (none, checked) => (.allModelsFailed, checked)
    | (some candidate, checked) => callWithRetryAndFallback candidate checked
  termination_by
    (router.fallbackChain.filter (· ∉ insert modelId progress.tried)).length
  decreasing_by
    -- the candidate was not tried before, and is now
    obtain ⟨hmem, huntried, hsub⟩ := nextCandidate_some _hnext
    have htried := tried_callWithRetry router request modelId progress
    rw [_hcall] at htried
    rw [htried] at hsub
    exact untried_lt hsub hmem huntried

/-- `_try_fallback`. -/
def tryFallback (progress : Progress) : Outcome × Progress :=
  match nextCandidate request router.fallbackChain progress with
  | (none, checked) => (.allModelsFailed, checked)
  | (some candidate, checked) => callWithRetryAndFallback router request candidate checked

theorem callWithRetryAndFallback_eq (modelId : String) (progress : Progress) :
    callWithRetryAndFallback router request modelId progress =
      match callWithRetry router request modelId progress with
      | (some outcome, called) => (outcome, called)
      | (none, called) => tryFallback router request called := by
  rw [callWithRetryAndFallback]
  split
  · rename_i hcall
    rw [hcall]
  · rename_i called hcall
    rw [hcall]
    simp only [tryFallback]
    split
    · rename_i hnext
      rw [hnext]
    · rename_i hnext
      rw [hnext]

/-- The router between its calls. -/
structure Routing where
  breakers : String → Breaker := fun _ => {}
  maxModel : Option String := none

def selected (routing : Routing) : String :=
  selectModel router routing.maxModel request.agentType request.opportunityScore

def callWithFallback (routing : Routing) : Outcome × Progress :=
  let modelId := selected router request routing
  callWithRetryAndFallback router request modelId
    { breakers := routing.breakers, reached := [(modelId, request.askedAt modelId)] }

inductive Op where
  | setMaxModel (modelId : Option String)
  | callWithFallback (request : Request)

def Routing.step (routing : Routing) : Op → Routing
  | .setMaxModel modelId => { routing with maxModel := modelId }
  | .callWithFallback request =>
    { routing with breakers := (callWithFallback router request routing).2.breakers }

/-- Half-open, with the probe used up. -/
def Stuck (breaker : Breaker) : Prop :=
  breaker.state = .halfOpen ∧ 1 ≤ breaker.halfOpenCalls

def Elapsed (breaker : Breaker) (now : ℚ) : Prop :=
  breaker.state = .opened ∧ modelBreaker.recoveryTimeout ≤ now - breaker.lastFailureTime

/-- A model whose timeout has elapsed when the call comes to it is called. -/
def CalledAgain (routing : Routing) : Op → Prop
  | .setMaxModel _ => True
  | .callWithFallback request => ∀ place ∈ (callWithFallback router request routing).2.reached,
    Elapsed (routing.breakers place.1) place.2 →
      place.1 ∈ (callWithFallback router request routing).2.called

/-- The breaker is asked for its probe. -/
def Probes (breaker : Breaker) (now : ℚ) : Prop :=
  (breaker.evaluateState modelBreaker now).state = .halfOpen

/-- There is a first attempt, and its result is recorded. -/
def FirstRecorded : List Attempt → Prop
  | [] => False
  | .cancelled :: _ => False
  | _ :: _ => True

def AllFail : List Attempt → Prop
  | [] => True
  | .fails _ :: rest => AllFail rest
  | .failsThenCancelled _ :: rest => rest = []
  | .succeeds :: _ => False
  | .cancelled :: _ => False

/-- The call goes on from this model to the next, as it is refused or all attempts fail. -/
def GivesUp (breaker : Breaker) (modelId : String) (now : ℚ) : Prop :=
  (breaker.allowRequest modelBreaker now).1 = true → AllFail (attempts router request modelId)

/-- No candidate that the walk comes to is asked for its probe. -/
def ProbeFree (breakers : String → Breaker) : Finset String → List String → Prop
  | _, [] => True
  | tried, candidate :: rest =>
    if candidate ∈ tried then ProbeFree breakers tried rest
    else
      ¬ Probes (breakers candidate) (request.checkedAt candidate) ∧
        (GivesUp router request (breakers candidate) candidate (request.checkedAt candidate) →
          ProbeFree breakers (insert candidate tried) rest)

/-- The selected model may be asked for its probe if the first attempt on it is recorded.
The candidates after it may not be asked for theirs. -/
def ProbesRecorded (routing : Routing) : Op → Prop
  | .setMaxModel _ => True
  | .callWithFallback request =>
    let modelId := selected router request routing
    let now := request.askedAt modelId
    (Probes (routing.breakers modelId) now → FirstRecorded (attempts router request modelId)) ∧
      (GivesUp router request (routing.breakers modelId) modelId now →
        ProbeFree router request routing.breakers {modelId} router.fallbackChain)

/-- The rest of the chain, from a place before which all was tried. -/
def walk : List String → Progress → Outcome × Progress
  | [], progress => (.allModelsFailed, progress)
  | candidate :: rest, progress =>
    if candidate ∈ progress.tried then walk rest progress
    else
      let (allowed, checked) := progress.check request candidate
      if allowed then
        match callWithRetry router request candidate checked with
        | (some outcome, called) => (outcome, called)
        | (none, called) => walk rest called
      else walk rest { checked with tried := insert candidate checked.tried }

variable {router request}

theorem nextCandidate_append {before rest : List String} {progress : Progress}
    (htried : ∀ candidate ∈ before, candidate ∈ progress.tried) :
    nextCandidate request (before ++ rest) progress = nextCandidate request rest progress := by
  induction before with
  | nil => rfl
  | cons candidate before ih =>
    rw [List.cons_append, nextCandidate, if_pos (htried candidate List.mem_cons_self)]
    exact ih fun candidate hmem => htried candidate (List.mem_cons_of_mem _ hmem)

/-! ### The walk along the chain -/

section
variable {R : Type} (give : Progress → R) (stop : String → Progress → Outcome → Progress → R)
  (go : String → Progress → R → R)

variable (router request) in
/-- What is made of the rest of the chain, whatever that is. -/
def walkWith : List String → Progress → R
  | [], progress => give progress
  | candidate :: rest, progress =>
    if candidate ∈ progress.tried then walkWith rest progress
    else
      let (allowed, checked) := progress.check request candidate
      if allowed then
        match callWithRetry router request candidate checked with
        | (some outcome, called) => stop candidate checked outcome called
        | (none, called) => go candidate checked (walkWith rest called)
      else walkWith rest { checked with tried := insert candidate checked.tried }

variable (router request) in
/-- The same from the head of the chain, a call being `call`. -/
def tryWith (call : String → Progress → R) (progress : Progress) : R :=
  match nextCandidate request router.fallbackChain progress with
  | (none, checked) => give checked
  | (some candidate, checked) => call candidate checked

/-- To start again at the head of the chain is to go on where one was. -/
theorem tryWith_eq_walkWith (call : String → Progress → R)
    (hcall : ∀ modelId progress, call modelId progress =
      match callWithRetry router request modelId progress with
      | (some outcome, called) => stop modelId progress outcome called
      | (none, called) => go modelId progress (tryWith router request give call called))
    {before rest : List String} {progress : Progress}
    (hchain : router.fallbackChain = before ++ rest)
    (htried : ∀ candidate ∈ before, candidate ∈ progress.tried) :
    tryWith router request give call progress =
      walkWith router request give stop go rest progress := by
  induction rest generalizing before progress with
  | nil =>
    rw [tryWith, hchain, nextCandidate_append htried]
    rfl
  | cons candidate rest ih =>
    have hchain' : router.fallbackChain = (before ++ [candidate]) ++ rest := by simpa using hchain
    have hbefore : ∀ progress' : Progress, progress.tried ⊆ progress'.tried →
        candidate ∈ progress'.tried → ∀ other ∈ before ++ [candidate],
          other ∈ progress'.tried := by
      intro progress' hsub hcandidate other hmem
      rcases List.mem_append.mp hmem with hbefore | hlast
      · exact hsub (htried other hbefore)
      · rwa [List.mem_singleton.mp hlast]
    -- once the candidate is tried, the walk comes to the rest
    have hgo : ∀ progress' : Progress, progress.tried ⊆ progress'.tried →
        candidate ∈ progress'.tried →
          tryWith router request give call progress' =
            walkWith router request give stop go rest progress' :=
      fun progress' hsub hcandidate => ih hchain' (hbefore progress' hsub hcandidate)
    have hnext : nextCandidate request router.fallbackChain progress =
        nextCandidate request (candidate :: rest) progress := by
      rw [hchain, nextCandidate_append htried]
    simp only [walkWith]
    split_ifs with hcandidate hallowed
    · exact hgo progress subset_rfl hcandidate
    · rw [tryWith, hnext]
      simp only [nextCandidate, if_neg hcandidate, hallowed, ↓reduceIte]
      rw [hcall]
      cases hturn : callWithRetry router request candidate (progress.check request candidate).2 with
      | mk outcome called =>
        cases outcome with
        | some outcome => rfl
        | none =>
          have hcalled : called.tried = insert candidate progress.tried := by
            have h := tried_callWithRetry router request candidate
              (progress.check request candidate).2
            rwa [hturn] at h
          have hrest := hgo called (by rw [hcalled]; exact Finset.subset_insert _ _)
            (by rw [hcalled]; exact Finset.mem_insert_self _ _)
          simp only [hrest]
    · rw [tryWith, hnext]
      simp only [nextCandidate, if_neg hcandidate, hallowed, ↓reduceIte, Bool.false_eq_true]
      let refused : Progress :=
        { (progress.check request candidate).2 with
          tried := insert candidate (progress.check request candidate).2.tried }
      have hsub : progress.tried ⊆ refused.tried := Finset.subset_insert _ _
      have hmem : candidate ∈ refused.tried := Finset.mem_insert_self _ _
      have h := hgo refused hsub hmem
      rwa [tryWith, hchain', nextCandidate_append (hbefore refused hsub hmem)] at h

end

theorem walk_eq_walkWith (rest : List String) (progress : Progress) :
    walk router request rest progress =
      walkWith router request (fun progress => (.allModelsFailed, progress))
        (fun _ _ outcome called => (outcome, called)) (fun _ _ result => result) rest progress := by
  induction rest generalizing progress with
  | nil => rfl
  | cons candidate rest ih => simp only [walk, walkWith, ih]

theorem tryFallback_eq_walk (progress : Progress) :
    tryFallback router request progress =
      walk router request router.fallbackChain progress := by
  rw [walk_eq_walkWith]
  exact tryWith_eq_walkWith _ _ _ (callWithRetryAndFallback router request)
    (callWithRetryAndFallback_eq router request) (List.nil_append _).symm (by simp)

/-- The three answers of a breaker that is not stuck. -/
theorem allowRequest_cases {breaker : Breaker} (h : ¬ Stuck breaker) (now : ℚ) :
    (breaker.state = .closed ∧ ¬ Probes breaker now ∧
        breaker.allowRequest modelBreaker now = (true, breaker)) ∨
      (breaker.state = .opened ∧ ¬ Probes breaker now ∧
        breaker.allowRequest modelBreaker now = (false, breaker)) ∨
      (Probes breaker now ∧ (breaker.allowRequest modelBreaker now).1 = true ∧
        Stuck (breaker.allowRequest modelBreaker now).2) := by
  have hhalfOpen : ∀ half : Breaker, half.state = .halfOpen → half.halfOpenCalls = 0 →
      (half.allowRequest modelBreaker now).1 = true ∧
        Stuck (half.allowRequest modelBreaker now).2 := by
    intro half hstate hcalls
    rw [allowRequest_halfOpen hstate, if_pos (by simp [hcalls, modelBreaker])]
    exact ⟨rfl, hstate, Nat.le_add_left 1 _⟩
  -- a breaker that is not stuck and half-open has its probe to give
  cases hstate : breaker.state with
  | closed =>
    refine .inl ⟨rfl, ?_, allowRequest_closed hstate now⟩
    simp [Probes, Breaker.evaluateState, hstate]
  | opened =>
    by_cases helapsed : modelBreaker.recoveryTimeout ≤ now - breaker.lastFailureTime
    · refine .inr (.inr ⟨by simp [Probes, Breaker.evaluateState, hstate, helapsed], ?_⟩)
      rw [allowRequest_opened_of_elapsed hstate helapsed]
      exact hhalfOpen _ rfl rfl
    · refine .inr (.inl ⟨rfl, ?_, allowRequest_opened_of_not_elapsed hstate helapsed⟩)
      simp [Probes, Breaker.evaluateState, hstate, helapsed]
  | halfOpen =>
    refine .inr (.inr ⟨by simp [Probes, Breaker.evaluateState, hstate], ?_⟩)
    apply hhalfOpen breaker hstate
    simpa [Stuck, hstate] using h

theorem allowRequest_of_stuck {breaker : Breaker} (h : Stuck breaker) (now : ℚ) :
    breaker.allowRequest modelBreaker now = (false, breaker) := by
  rw [allowRequest_halfOpen h.1, if_neg]
  have hcalls := h.2
  simp only [modelBreaker]
  omega

theorem state_recordFailure (breaker : Breaker) (now : ℚ) :
    (breaker.recordFailure modelBreaker now).state ≠ .halfOpen := by
  simp only [Breaker.recordFailure]
  split_ifs with hhalf hclosed
  · simp
  · simp
  · exact hhalf

theorem state_recordSuccess (breaker : Breaker) : breaker.recordSuccess.state ≠ .halfOpen := by
  simp only [Breaker.recordSuccess]
  split_ifs with hhalf
  · simp
  · exact hhalf

theorem runAttempts_of_not_halfOpen (modelId : String) (attempts : List Attempt)
    {breaker : Breaker} (h : breaker.state ≠ .halfOpen) :
    (runAttempts modelId attempts breaker).2.state ≠ .halfOpen := by
  induction attempts generalizing breaker with
  | nil => exact h
  | cons attempt rest ih =>
    cases attempt with
    | succeeds => exact state_recordSuccess breaker
    | fails now => exact ih (state_recordFailure breaker now)
    | failsThenCancelled now => exact state_recordFailure breaker now
    | cancelled => exact h

/-- The attempts leave a breaker half-open only if none is recorded. -/
theorem runAttempts_halfOpen (modelId : String) (attempts : List Attempt) (breaker : Breaker) :
    (FirstRecorded attempts →
        (runAttempts modelId attempts breaker).2.state ≠ .halfOpen) ∧
      (¬ FirstRecorded attempts → (runAttempts modelId attempts breaker).2 = breaker) := by
  match attempts with
  | [] => exact ⟨False.elim, fun _ => rfl⟩
  | .cancelled :: _ => exact ⟨False.elim, fun _ => rfl⟩
  | .succeeds :: _ => exact ⟨fun _ => state_recordSuccess breaker, fun h => absurd trivial h⟩
  | .fails now :: rest =>
    refine ⟨fun _ => ?_, fun h => absurd trivial h⟩
    exact runAttempts_of_not_halfOpen modelId rest (state_recordFailure breaker now)
  | .failsThenCancelled now :: _ =>
    exact ⟨fun _ => state_recordFailure breaker now, fun h => absurd trivial h⟩

theorem runAttempts_none_iff (modelId : String) (attempts : List Attempt) (breaker : Breaker) :
    (runAttempts modelId attempts breaker).1 = none ↔ AllFail attempts := by
  induction attempts generalizing breaker with
  | nil => simp [runAttempts, AllFail]
  | cons attempt rest ih =>
    cases attempt with
    | succeeds => simp [runAttempts, AllFail]
    | fails now => exact ih _
    | failsThenCancelled now => simp [runAttempts, AllFail]
    | cancelled => simp [runAttempts, AllFail]

variable (router request) in
theorem callWithRetry_none_iff (modelId : String) (progress : Progress) :
    (callWithRetry router request modelId progress).1 = none ↔
      GivesUp router request (progress.breakers modelId) modelId (request.askedAt modelId) := by
  simp only [callWithRetry, Progress.allowRequest, GivesUp]
  by_cases hallowed : ((progress.breakers modelId).allowRequest modelBreaker
      (request.askedAt modelId)).1 = true
  · simp only [hallowed, ↓reduceIte, true_implies]
    exact runAttempts_none_iff modelId _ _
  · simp [hallowed]

variable (router request) in
theorem callWithRetry_breakers_of_ne (modelId : String) (progress : Progress) {other : String}
    (hne : other ≠ modelId) :
    (callWithRetry router request modelId progress).2.breakers other =
      progress.breakers other := by
  simp only [callWithRetry, Progress.allowRequest]
  split_ifs with hallowed <;> simp [hallowed, hne]

variable (router request) in
/-- What a model's turn leaves of its breaker. -/
theorem stuck_callWithRetry_iff (modelId : String) {progress : Progress}
    (h : ¬ Stuck (progress.breakers modelId)) :
    Stuck ((callWithRetry router request modelId progress).2.breakers modelId) ↔
      Probes (progress.breakers modelId) (request.askedAt modelId) ∧
        ¬ FirstRecorded (attempts router request modelId) := by
  simp only [callWithRetry, Progress.allowRequest]
  rcases allowRequest_cases h (request.askedAt modelId) with
    ⟨hclosed, hprobe, hallow⟩ | ⟨hopened, hprobe, hallow⟩ | ⟨hprobe, hallowed, hstuck⟩
  · have hne : (progress.breakers modelId).state ≠ .halfOpen := by simp [hclosed]
    have hstate := runAttempts_of_not_halfOpen modelId (attempts router request modelId) hne
    simp only [hallow, ↓reduceIte, Function.update_self, hprobe, false_and, iff_false]
    exact fun hstuck => hstate hstuck.1
  · simpa [hallow, hprobe] using h
  · obtain ⟨hrecorded, hnot⟩ := runAttempts_halfOpen modelId (attempts router request modelId)
      ((progress.breakers modelId).allowRequest modelBreaker (request.askedAt modelId)).2
    simp only [hallowed, ↓reduceIte, Function.update_self, hprobe, true_and]
    constructor
    · exact fun hstuck' hfirst => hrecorded hfirst hstuck'.1
    · intro hfirst
      rw [hnot hfirst]
      exact hstuck

/-- A stuck model is refused, and stays stuck. -/
theorem callWithRetry_of_stuck (modelId : String) {progress : Progress}
    (h : Stuck (progress.breakers modelId)) :
    callWithRetry router request modelId progress =
      (none, { progress with tried := insert modelId progress.tried }) := by
  simp only [callWithRetry, Progress.allowRequest, allowRequest_of_stuck h, Bool.false_eq_true,
    ↓reduceIte, Function.update_eq_self]

variable (router request) in
theorem callWithRetry_observed (modelId : String) (progress : Progress) :
    (callWithRetry router request modelId progress).2.reached = progress.reached ∧
      progress.called ⊆ (callWithRetry router request modelId progress).2.called := by
  simp only [callWithRetry, Progress.allowRequest]
  split_ifs with hallowed
  · by_cases hnone : attempts router request modelId = [] <;> simp [hallowed, hnone]
  · simp [hallowed]

theorem not_stuck_of_same {breakers breakers' : String → Breaker} {modelId : String}
    (h : ∀ other, ¬ Stuck (breakers other)) (hfree : ¬ Stuck (breakers' modelId))
    (hsame : ∀ other ≠ modelId, breakers' other = breakers other) (other : String) :
    ¬ Stuck (breakers' other) := by
  by_cases hne : other = modelId
  · rwa [hne]
  · rw [hsame other hne]
    exact h other

/-- The walk leaves alone what was tried before. -/
theorem walk_breakers_of_tried {rest : List String} {progress : Progress} {modelId : String}
    (htried : modelId ∈ progress.tried) :
    (walk router request rest progress).2.breakers modelId = progress.breakers modelId := by
  induction rest generalizing progress with
  | nil => rfl
  | cons candidate rest ih =>
    simp only [walk]
    split_ifs with hcandidate hallowed
    · exact ih htried
    · -- the candidate is called, and is another model
      have hne : modelId ≠ candidate := by
        rintro rfl
        exact hcandidate htried
      have hsame : (callWithRetry router request candidate
          (progress.check request candidate).2).2.breakers modelId =
            progress.breakers modelId := by
        rw [callWithRetry_breakers_of_ne router request _ _ hne]
        simp [Progress.check, Progress.allowRequest, hne]
      have hcalled := tried_callWithRetry router request candidate
        (progress.check request candidate).2
      cases hcall : callWithRetry router request candidate
          (progress.check request candidate).2 with
      | mk outcome called =>
        rw [hcall] at hsame hcalled
        cases outcome with
        | some outcome => exact hsame
        | none =>
          refine (ih ?_).trans hsame
          rw [hcalled]
          exact Finset.mem_insert_of_mem htried
    · -- the candidate is refused
      have hne : modelId ≠ candidate := by
        rintro rfl
        exact hcandidate htried
      rw [ih (Finset.mem_insert_of_mem htried)]
      simp [Progress.check, Progress.allowRequest, hne]

theorem probeFree_congr {breakers breakers' : String → Breaker} {tried : Finset String}
    (h : ∀ modelId ∉ tried, breakers modelId = breakers' modelId) (chain : List String) :
    ProbeFree router request breakers tried chain ↔
      ProbeFree router request breakers' tried chain := by
  induction chain generalizing tried with
  | nil => exact Iff.rfl
  | cons candidate rest ih =>
    simp only [ProbeFree]
    split_ifs with hcandidate
    · exact ih h
    · rw [h candidate hcandidate]
      apply and_congr_right
      intro _
      apply imp_congr_right
      intro _
      apply ih
      intro modelId hmodelId
      exact h modelId fun htried => hmodelId (Finset.mem_insert_of_mem htried)

theorem not_probes_of_closed {breaker : Breaker} (h : breaker.state = .closed) (now : ℚ) :
    ¬ Probes breaker now := by
  simp [Probes, Breaker.evaluateState, h]

theorem givesUp_of_closed {breaker : Breaker} (h : breaker.state = .closed) (modelId : String)
    (now : ℚ) :
    GivesUp router request breaker modelId now ↔ AllFail (attempts router request modelId) := by
  simp [GivesUp, allowRequest_closed h]

theorem probes_of_elapsed {breaker : Breaker} {now : ℚ} (h : Elapsed breaker now) :
    Probes breaker now := by
  simp [Probes, Breaker.evaluateState, h.1, h.2]

variable (router request) in
/-- What the walk does at a candidate that was not tried: it calls it or passes it over, or
asks for its probe, which the call to it then does not get. -/
inductive Visit (candidate : String) (rest : List String) (progress : Progress) : Prop where
  | passed (progress' : Progress) (outcome : Option Outcome)
      (walks : walk router request (candidate :: rest) progress =
        match outcome with
        | some outcome => (outcome, progress')
        | none => walk router request rest progress')
      (probe : ¬ Probes (progress.breakers candidate) (request.checkedAt candidate))
      (gives : outcome = none ↔ GivesUp router request (progress.breakers candidate) candidate
        (request.checkedAt candidate))
      (free : ¬ Stuck (progress'.breakers candidate))
      (same : ∀ other ≠ candidate, progress'.breakers other = progress.breakers other)
      (tried : progress'.tried = insert candidate progress.tried)
      (reached : progress'.reached =
        progress.reached ++ [(candidate, request.checkedAt candidate)])
  | probed (progress' : Progress)
      (walks : walk router request (candidate :: rest) progress =
        walk router request rest progress')
      (probe : Probes (progress.breakers candidate) (request.checkedAt candidate))
      (stuck : Stuck (progress'.breakers candidate))
      (tried : progress'.tried = insert candidate progress.tried)

variable (router request) in
theorem visit {candidate : String} {progress : Progress} (rest : List String)
    (hcandidate : candidate ∉ progress.tried)
    (h : ¬ Stuck (progress.breakers candidate)) :
    Visit router request candidate rest progress := by
  -- the progress after a check that leaves the breaker as it is
  let checked : Progress :=
    { progress with reached := progress.reached ++ [(candidate, request.checkedAt candidate)] }
  rcases allowRequest_cases h (request.checkedAt candidate) with
    ⟨hclosed, hprobe, hallow⟩ | ⟨-, hprobe, hallow⟩ | ⟨hprobe, hallowed, hstuck⟩
  · have hcheck : progress.check request candidate = (true, checked) := by
      simp [Progress.check, Progress.allowRequest, hallow, checked]
    have hgives := callWithRetry_none_iff router request candidate checked
    have hfree : ¬ Stuck (checked.breakers candidate) := h
    have hstuck := stuck_callWithRetry_iff router request candidate hfree
    have hother : ∀ other ≠ candidate,
        (callWithRetry router request candidate checked).2.breakers other =
          checked.breakers other := fun other hne =>
      callWithRetry_breakers_of_ne router request candidate checked hne
    have htried := tried_callWithRetry router request candidate checked
    have hreached := (callWithRetry_observed router request candidate checked).1
    rw [givesUp_of_closed hclosed, ← givesUp_of_closed hclosed candidate
      (request.checkedAt candidate)] at hgives
    cases hcall : callWithRetry router request candidate checked with
    | mk outcome called =>
      rw [hcall] at hgives hstuck hother htried hreached
      refine .passed called outcome ?_ hprobe hgives ?_ hother htried hreached
      · simp only [walk, if_neg hcandidate, hcheck, ↓reduceIte, hcall]
        cases outcome <;> rfl
      · rw [hstuck]
        exact fun hprobed => not_probes_of_closed hclosed _ hprobed.1
  · have hcheck : progress.check request candidate = (false, checked) := by
      simp [Progress.check, Progress.allowRequest, hallow, checked]
    refine .passed { checked with tried := insert candidate checked.tried } none ?_ hprobe ?_ h
      (fun _ _ => rfl) rfl rfl
    · simp only [walk, if_neg hcandidate, hcheck, Bool.false_eq_true, ↓reduceIte]
    · simp [GivesUp, hallow]
  · -- the probe is taken by the check, so that the call is refused
    have hcheck : (progress.check request candidate).1 = true := hallowed
    have hstuck' : Stuck ((progress.check request candidate).2.breakers candidate) := by
      simpa [Progress.check, Progress.allowRequest] using hstuck
    refine .probed { (progress.check request candidate).2 with
      tried := insert candidate progress.tried } ?_ hprobe hstuck' rfl
    simp only [walk, if_neg hcandidate, hcheck, ↓reduceIte, callWithRetry_of_stuck _ hstuck']
    rfl

theorem probeFree_of_same {breakers breakers' : String → Breaker} {candidate : String}
    (hsame : ∀ other ≠ candidate, breakers' other = breakers other) (tried : Finset String)
    (rest : List String) :
    ProbeFree router request breakers' (insert candidate tried) rest ↔
      ProbeFree router request breakers (insert candidate tried) rest := by
  apply probeFree_congr
  intro modelId hmodelId
  apply hsame
  rintro rfl
  exact hmodelId (Finset.mem_insert_self _ _)

/-- The walk leaves no breaker stuck exactly if it asks for no probe. -/
theorem walk_stuck_iff {rest : List String} {progress : Progress}
    (h : ∀ modelId, ¬ Stuck (progress.breakers modelId)) :
    (∀ modelId, ¬ Stuck ((walk router request rest progress).2.breakers modelId)) ↔
      ProbeFree router request progress.breakers progress.tried rest := by
  induction rest generalizing progress with
  | nil => exact iff_of_true h trivial
  | cons candidate rest ih =>
    by_cases hcandidate : candidate ∈ progress.tried
    · simp only [walk, ProbeFree, if_pos hcandidate]
      exact ih h
    simp only [ProbeFree, if_neg hcandidate]
    cases visit router request rest hcandidate (h candidate) with
    | passed progress' outcome walks probe gives free same tried reached =>
      have h' := not_stuck_of_same h free same
      rw [walks, ← gives, and_iff_right probe]
      cases outcome with
      | some outcome => simp [h']
      | none =>
        rw [ih h', tried, probeFree_of_same same]
        simp
    | probed progress' walks probe stuck tried =>
      refine iff_of_false (fun hnone => hnone candidate ?_) fun hfree => hfree.1 probe
      rw [walks, walk_breakers_of_tried (by simp [tried])]
      exact stuck

/-- The places that the walk comes to, if it asks for no probe. -/
theorem walk_reached {rest : List String} {progress : Progress}
    (h : ∀ modelId, ¬ Stuck (progress.breakers modelId))
    (hfree : ProbeFree router request progress.breakers progress.tried rest) :
    ∀ place ∈ (walk router request rest progress).2.reached, place ∈ progress.reached ∨
      place.1 ∉ progress.tried ∧ ¬ Probes (progress.breakers place.1) place.2 := by
  induction rest generalizing progress with
  | nil => exact fun place hmem => .inl hmem
  | cons candidate rest ih =>
    by_cases hcandidate : candidate ∈ progress.tried
    · simp only [walk, ProbeFree, if_pos hcandidate] at hfree ⊢
      exact ih h hfree
    simp only [ProbeFree, if_neg hcandidate] at hfree
    cases visit router request rest hcandidate (h candidate) with
    | passed progress' outcome walks probe gives free same tried reached =>
      -- the places up to this candidate
      have hhere : ∀ place ∈ progress'.reached, place ∈ progress.reached ∨
          place.1 ∉ progress.tried ∧ ¬ Probes (progress.breakers place.1) place.2 := by
        intro place hmem
        rw [reached, List.mem_append, List.mem_singleton] at hmem
        rcases hmem with hold | rfl
        · exact .inl hold
        · exact .inr ⟨hcandidate, probe⟩
      rw [walks]
      cases outcome with
      | some outcome => exact hhere
      | none =>
        have hrest := hfree.2 (gives.mp rfl)
        rw [← probeFree_of_same same, ← tried] at hrest
        intro place hmem
        rcases ih (not_stuck_of_same h free same) hrest place hmem with hold | ⟨huntried, hprobe⟩
        · exact hhere place hold
        · rw [tried, Finset.mem_insert, not_or] at huntried
          rw [same place.1 huntried.1] at hprobe
          exact .inr ⟨huntried.2, hprobe⟩
    | probed progress' walks probe stuck tried => exact absurd probe hfree.1

theorem walk_called (rest : List String) (progress : Progress) :
    progress.called ⊆ (walk router request rest progress).2.called := by
  induction rest generalizing progress with
  | nil => exact List.Subset.refl _
  | cons candidate rest ih =>
    simp only [walk]
    split_ifs with hcandidate hallowed
    · exact ih progress
    · have hcall := (callWithRetry_observed router request candidate
        (progress.check request candidate).2).2
      cases hcalled : callWithRetry router request candidate
          (progress.check request candidate).2 with
      | mk outcome called =>
        rw [hcalled] at hcall
        cases outcome with
        | some outcome => exact hcall
        | none => exact List.Subset.trans hcall (ih called)
    · exact ih { (progress.check request candidate).2 with tried := _ }

/-- A model that is asked for its probe, and has its first attempt recorded, is called. -/
theorem called_of_probes (modelId : String) {progress : Progress}
    (h : ¬ Stuck (progress.breakers modelId))
    (hprobe : Probes (progress.breakers modelId) (request.askedAt modelId))
    (hfirst : FirstRecorded (attempts router request modelId)) :
    modelId ∈ (callWithRetry router request modelId progress).2.called := by
  have hallowed : ((progress.breakers modelId).allowRequest modelBreaker
      (request.askedAt modelId)).1 = true := by
    rcases allowRequest_cases h (request.askedAt modelId) with
      ⟨-, hnot, -⟩ | ⟨-, hnot, -⟩ | ⟨-, hallowed, -⟩
    · exact absurd hprobe hnot
    · exact absurd hprobe hnot
    · exact hallowed
  have hattempts : attempts router request modelId ≠ [] := by
    intro hnil
    rw [hnil] at hfirst
    exact hfirst
  simp [callWithRetry, Progress.allowRequest, hallowed, hattempts]

variable (router request) in
/-- Where a call begins. -/
def start (routing : Routing) : Progress where
  breakers := routing.breakers
  reached := [(selected router request routing, request.askedAt (selected router request routing))]

variable (router request) in
theorem callWithFallback_eq (routing : Routing) :
    callWithFallback router request routing =
      match callWithRetry router request (selected router request routing)
        (start router request routing) with
      | (some outcome, called) => (outcome, called)
      | (none, called) => walk router request router.fallbackChain called := by
  rw [callWithFallback, callWithRetryAndFallback_eq]
  simp only [tryFallback_eq_walk]
  rfl

variable (router) in
/-- The turn of the selected model, before the walk. -/
theorem selected_turn (routing : Routing) {request : Request}
    (h : ∀ modelId, ¬ Stuck (routing.breakers modelId)) {modelId : String}
    (hmodel : selected router request routing = modelId) :
    ∃ outcome called,
      (callWithFallback router request routing =
        match outcome with
        | some outcome => (outcome, called)
        | none => walk router request router.fallbackChain called) ∧
      (outcome = none ↔ GivesUp router request (routing.breakers modelId) modelId
        (request.askedAt modelId)) ∧
      (Stuck (called.breakers modelId) ↔
        Probes (routing.breakers modelId) (request.askedAt modelId) ∧
          ¬ FirstRecorded (attempts router request modelId)) ∧
      (∀ other ≠ modelId, called.breakers other = routing.breakers other) ∧
      called.tried = {modelId} ∧ called.reached = [(modelId, request.askedAt modelId)] ∧
      (Probes (routing.breakers modelId) (request.askedAt modelId) →
        FirstRecorded (attempts router request modelId) → modelId ∈ called.called) := by
  subst hmodel
  let first := start router request routing
  have hfree : ¬ Stuck (first.breakers (selected router request routing)) := h _
  -- the selected model is not asked for as a candidate: its turn is one call
  refine ⟨(callWithRetry router request (selected router request routing) first).1,
    (callWithRetry router request (selected router request routing) first).2, ?_,
    callWithRetry_none_iff router request _ first,
    stuck_callWithRetry_iff router request _ hfree,
    fun other hne => callWithRetry_breakers_of_ne router request _ first hne,
    tried_callWithRetry router request _ first,
    (callWithRetry_observed router request _ first).1, called_of_probes _ hfree⟩
  rw [callWithFallback_eq]
  rcases callWithRetry router request (selected router request routing)
    (start router request routing) with
    ⟨_ | outcome, called⟩ <;> rfl

variable (router) in
/-- The step lemma. -/
theorem probesRecorded_iff {routing : Routing}
    (h : ∀ modelId, ¬ Stuck (routing.breakers modelId)) (op : Op) :
    (∀ modelId, ¬ Stuck ((routing.step router op).breakers modelId)) ∧
        CalledAgain router routing op ↔ ProbesRecorded router routing op := by
  cases op with
  | setMaxModel modelId => exact iff_of_true ⟨h, trivial⟩ trivial
  | callWithFallback request =>
    simp only [Routing.step, CalledAgain, ProbesRecorded]
    generalize hmodel : selected router request routing = modelId
    obtain ⟨outcome, called, heq, hgives, hstuck, hsame, htried, hreached, hcalled⟩ :=
      selected_turn router routing h hmodel
    rw [heq, ← hgives]
    by_cases hfirst : Stuck (called.breakers modelId)
    · -- the walk does not come back to the selected model
      obtain ⟨hprobe, hnot⟩ := hstuck.mp hfirst
      refine iff_of_false (fun hright => hright.1 modelId ?_) fun hcond => hnot (hcond.1 hprobe)
      cases outcome with
      | some outcome => exact hfirst
      | none => rwa [walk_breakers_of_tried (by simp [htried])]
    · have hrecorded : Probes (routing.breakers modelId) (request.askedAt modelId) →
          FirstRecorded (attempts router request modelId) := by
        intro hprobe
        by_contra hnot
        exact hfirst (hstuck.mpr ⟨hprobe, hnot⟩)
      have hfree := not_stuck_of_same h hfirst hsame
      have hselected : Elapsed (routing.breakers modelId) (request.askedAt modelId) →
          modelId ∈ called.called := fun helapsed =>
        hcalled (probes_of_elapsed helapsed) (hrecorded (probes_of_elapsed helapsed))
      rw [and_iff_right hrecorded]
      cases outcome with
      | some outcome =>
        -- no candidate is reached
        refine iff_of_true ⟨hfree, ?_⟩ nofun
        simpa [hreached] using hselected
      | none =>
        have hcongr : ProbeFree router request called.breakers {modelId} router.fallbackChain ↔
            ProbeFree router request routing.breakers {modelId} router.fallbackChain :=
          probeFree_of_same hsame ∅ router.fallbackChain
        rw [walk_stuck_iff hfree, htried, hcongr]
        simp only [true_implies]
        refine and_iff_left_of_imp fun hwalk place hmem helapsed => ?_
        rw [← hcongr, ← htried] at hwalk
        rcases walk_reached hfree hwalk place hmem with hold | ⟨huntried, hprobe⟩
        · rw [hreached, List.mem_singleton] at hold
          subst hold
          exact walk_called _ _ (hselected helapsed)
        · rw [htried, Finset.mem_singleton] at huntried
          rw [hsame _ huntried] at hprobe
          exact absurd (probes_of_elapsed helapsed) hprobe

variable (router) in
/-- No breaker is stuck after any call of a run, and every model whose timeout has elapsed
is called when a call comes to it, exactly if the probes asked for are recorded. -/
theorem recovers_iff (ops : List Op) :
    (∀ earlier op, earlier ++ [op] <+: ops →
        (∀ modelId, ¬ Stuck
          (((earlier.foldl (Routing.step router) {}).step router op).breakers modelId)) ∧
          CalledAgain router (earlier.foldl (Routing.step router) {}) op) ↔
      ∀ earlier op, earlier ++ [op] <+: ops →
        ProbesRecorded router (earlier.foldl (Routing.step router) {}) op := by
  apply forall_prefix_iff (Routing.step router) (I := fun _ => True)
    (P := fun routing => ∀ modelId, ¬ Stuck (routing.breakers modelId))
    (Q := fun routing op =>
      (∀ modelId, ¬ Stuck ((routing.step router op).breakers modelId)) ∧
        CalledAgain router routing op)
  · exact fun _ _ _ => trivial
  · intro routing op _ h
    exact probesRecorded_iff router h op
  · exact fun routing op _ _ hright => hright.1
  · trivial
  · simp [Stuck]

/-- Gemini Pro fails whenever it is called. -/
def proFails (agentType : String) : Op :=
  .callWithFallback
    { agentType := agentType
      checkedAt := fun _ => 0
      askedAt := fun _ => 0
      attempt := fun modelId _ => if modelId = "google/gemini-3.0-pro" then .fails 0 else .succeeds }

/-- A minute later Gemini Flash fails. -/
def flashFails (agentType : String) : Op :=
  .callWithFallback
    { agentType := agentType
      checkedAt := fun _ => 60
      askedAt := fun _ => 60
      attempt := fun modelId _ =>
        if modelId = "google/gemini-3.0-flash" then .fails 60 else .succeeds }

/-- Two calls open the breaker of Gemini Pro. In the third it is the first fallback after
its timeout, is asked for its probe, and is then refused. -/
theorem fallbackProbe_stuck :
    ¬ ∀ earlier op, earlier ++ [op] <+: [proFails "janitor", proFails "janitor",
        flashFails "signal-generator"] →
      (∀ modelId, ¬ Stuck
        (((earlier.foldl (Routing.step {}) {}).step {} op).breakers modelId)) ∧
        CalledAgain {} (earlier.foldl (Routing.step {}) {}) op := by
  intro h
  have hlast := (h [proFails "janitor", proFails "janitor"] (flashFails "signal-generator")
    List.prefix_rfl).1 "google/gemini-3.0-pro"
  revert hlast
  simp only [Stuck, List.foldl_cons, List.foldl_nil, proFails, flashFails, Routing.step,
    callWithFallback_eq]
  decide +kernel

end TradeStream.ModelRouter
