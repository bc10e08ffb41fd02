import TradeStream.RouterFallback

/-! The budget cap of the router, with any registry of models. -/
namespace TradeStream.ModelRouter
open TradeStream.CircuitBreaker

/-- `MODELS`, by what the router uses of a model. -/
abbrev Registry := String → Option ModelPricing

namespace Registry
variable (registry : Registry)

/-- The cost of a selection: a model that is not registered costs nothing. -/
def cost (modelId : String) : ℚ :=
  match registry modelId with
  | some profile => profile.costPer1kTokens
  | none => 0

/-- `_apply_budget_cap`, as far as a cap is set. -/
def applyBudgetCap (maxModel : Option String) (modelId : String) : String :=
  match maxModel with
  | none | some "" => modelId
  | some maxModel =>
    match registry maxModel, registry modelId with
    | some cap, some model =>
      if cap.costPer1kTokens < model.costPer1kTokens then maxModel else modelId
    | _, _ => modelId

/-- `select_model`. -/
def selectModel (router : Router) (maxModel : Option String) (agentType : String)
    (opportunityScore : Option ℚ) : String :=
  match router.routingTable agentType with
  | none => "google/gemini-3.0-flash"
  | some config => registry.applyBudgetCap maxModel (escalate config opportunityScore)

/-- The invocations of `call_with_fallback`. -/
def invoked (router : Router) (request : Request) (routing : Routing) : List Invocation :=
  let modelId := registry.selectModel router routing.maxModel request.agentType
    request.opportunityScore
  invocations router request modelId (startAt request modelId routing.breakers)

/-- Whatever the breakers and the outcomes, no model is invoked that costs more than the cap. -/
def Capped (router : Router) (agentType : String) (opportunityScore : Option ℚ)
    (maxModel : String) : Prop :=
  ∀ (request : Request) (breakers : String → Breaker), request.agentType = agentType →
    request.opportunityScore = opportunityScore →
      ∀ i ∈ registry.invoked router request { breakers := breakers, maxModel := some maxModel },
        registry.cost i.modelId ≤ registry.cost maxModel

/-- The model for an unknown agent costs no more than the cap. For a known one, both the model
and the cap are registered, or the model costs no more as it is. -/
def SelectsWithin (router : Router) (agentType : String) (opportunityScore : Option ℚ)
    (maxModel : String) : Prop :=
  match router.routingTable agentType with
  | none => registry.cost "google/gemini-3.0-flash" ≤ registry.cost maxModel
  | some config =>
    ((registry maxModel).isSome ∧ (registry (escalate config opportunityScore)).isSome) ∨
      registry.cost (escalate config opportunityScore) ≤ registry.cost maxModel

end Registry

/-- The registry of the source. -/
theorem invoked_getModel (router : Router) (request : Request) (routing : Routing) :
    Registry.invoked getModel router request routing = invoked router request routing := rfl

section
variable {registry : Registry} {router : Router} {agentType : String}
  {opportunityScore : Option ℚ} {maxModel : String}

/-- Registered models are compared, others are let through. -/
theorem cost_applyBudgetCap_le_iff (hset : maxModel ≠ "") (modelId : String) :
    registry.cost (registry.applyBudgetCap (some maxModel) modelId) ≤ registry.cost maxModel ↔
      ((registry maxModel).isSome ∧ (registry modelId).isSome) ∨
        registry.cost modelId ≤ registry.cost maxModel := by
  have happly : registry.applyBudgetCap (some maxModel) modelId =
      match registry maxModel, registry modelId with
      | some cap, some model =>
        if cap.costPer1kTokens < model.costPer1kTokens then maxModel else modelId
      | _, _ => modelId := by
    rw [Registry.applyBudgetCap]
    exact hset
  rw [happly]
  cases hcap : registry maxModel with
  | none => simp
  | some cap =>
    cases hmodel : registry modelId with
    | none => simp
    | some model =>
      refine iff_of_true ?_ (Or.inl ⟨rfl, rfl⟩)
      dsimp only
      split_ifs with hover
      · exact le_rfl
      · simpa [Registry.cost, hcap, hmodel] using hover

theorem cost_selectModel_le_iff (hset : maxModel ≠ "") :
    registry.cost (registry.selectModel router (some maxModel) agentType opportunityScore) ≤
        registry.cost maxModel ↔
      registry.SelectsWithin router agentType opportunityScore maxModel := by
  rw [Registry.selectModel, Registry.SelectsWithin]
  cases router.routingTable agentType with
  | none => exact Iff.rfl
  | some config => exact cost_applyBudgetCap_le_iff hset _

theorem allFail_replicate (n : ℕ) (now : ℚ) : AllFail (List.replicate n (.fails now)) := by
  induction n with
  | zero => trivial
  | succ n ih => exact ih

/-- A request on which every attempt fails. -/
def hopeless (agentType : String) (opportunityScore : Option ℚ) : Request where
  agentType := agentType
  opportunityScore := opportunityScore
  checkedAt := fun _ => 0
  askedAt := fun _ => 0
  attempt := fun _ _ => .fails 0

theorem allFail_hopeless (modelId : String) :
    AllFail (attempts router (hopeless agentType opportunityScore) modelId) := by
  have hreplicate : attempts router (hopeless agentType opportunityScore) modelId =
      List.replicate (router.maxRetries + 1).toNat (.fails 0) := by
    rw [attempts, hopeless, List.map_const', List.length_range]
  rw [hreplicate]
  exact allFail_replicate _ _

/-- If all fails, and all breakers are closed, every model is invoked. -/
theorem invokes_hopeless (hretries : 0 ≤ router.maxRetries) (first : String) {modelId : String}
    (hmem : modelId ∈ first :: router.fallbackChain) :
    ∃ i ∈ invocations router (hopeless agentType opportunityScore) first
        (startAt (hopeless agentType opportunityScore) first fun _ => {}),
      i.modelId = modelId := by
  apply (invokes_iff modelId).mpr
  refine ⟨hretries, ?_⟩
  by_cases hsame : modelId = first
  · exact Or.inl ⟨hsame, rfl⟩
  · right
    refine ⟨fun _ => allFail_hopeless first, ?_⟩
    have hchain : modelId ∈ router.fallbackChain := (List.mem_cons.mp hmem).resolve_left hsame
    have huntried : modelId ∉ ({first} : Finset String) := by simpa using hsame
    exact mem_turns_of_fail hchain huntried rfl fun other _ => allFail_hopeless other

/-- The cap holds exactly if no attempt is made at all, or the selection is within it and the
chain has nothing that costs more. -/
theorem capped_iff (registry : Registry) (router : Router) (agentType : String)
    (opportunityScore : Option ℚ) (maxModel : String) (hset : maxModel ≠ "") :
    registry.Capped router agentType opportunityScore maxModel ↔
      router.maxRetries < 0 ∨
        registry.SelectsWithin router agentType opportunityScore maxModel ∧
          ∀ modelId ∈ router.fallbackChain, registry.cost modelId ≤ registry.cost maxModel := by
  rw [← cost_selectModel_le_iff hset]
  constructor
  · intro hcapped
    rcases lt_or_ge router.maxRetries 0 with hnone | hretries
    · exact Or.inl hnone
    right
    have hall : ∀ modelId ∈ registry.selectModel router (some maxModel) agentType
        opportunityScore :: router.fallbackChain,
        registry.cost modelId ≤ registry.cost maxModel := by
      intro modelId hmem
      obtain ⟨i, hi, rfl⟩ := invokes_hopeless hretries _ hmem
      exact hcapped (hopeless agentType opportunityScore) (fun _ => {}) rfl rfl i hi
    exact List.forall_mem_cons.mp hall
  · rintro hwithin request breakers rfl rfl i hi
    obtain ⟨hretries, hplace⟩ := (invokes_iff i.modelId).mp ⟨i, hi, rfl⟩
    obtain ⟨hselected, hchain⟩ := hwithin.resolve_left (not_lt.mpr hretries)
    rcases hplace with ⟨hfirst, -⟩ | ⟨-, hturn⟩
    · rw [hfirst]
      exact hselected
    · exact hchain _ (mem_turns hturn).1

end

/-- Gemini Flash is down, and the most that is allowed: the call goes on to Gemini Pro. -/
theorem flashDown_not_capped :
    ¬ Registry.Capped getModel {} "signal-generator" none "google/gemini-3.0-flash" := by
  intro h
  have hinvoked := h flashDown (fun _ => {}) rfl rfl
  rw [Registry.invoked, invocations_startAt] at hinvoked
  revert hinvoked
  decide +kernel

/-- The default chain costs no more than Claude Sonnet, to which Opus is downgraded. -/
theorem sonnet_capped :
    Registry.Capped getModel {} "portfolio-advisor" (some 90) "anthropic/claude-sonnet-4.5" :=
  (capped_iff getModel {} "portfolio-advisor" (some 90) "anthropic/claude-sonnet-4.5"
    (by decide)).mpr (Or.inr ⟨Or.inl (by decide +kernel), by decide +kernel⟩)

end TradeStream.ModelRouter
