import Mathlib

/-! When an implementation of a strategy is to be retired, and how many are in one run. -/
namespace TradeStream.RetirementCriteria

inductive SharpeTrend where
  | DECLINING
  | STABLE
  | IMPROVING
  | INSUFFICIENT_DATA
  deriving DecidableEq

def SharpeTrend.text : SharpeTrend → String
  | .DECLINING => "DECLINING"
  | .STABLE => "STABLE"
  | .IMPROVING => "IMPROVING"
  | .INSUFFICIENT_DATA => "INSUFFICIENT_DATA"

structure RetirementConfig where
  minSignals : ℤ
  minAgeDays : ℤ
  maxSharpe : ℚ
  maxAccuracy : ℚ
  requiredTrend : String
  requireBetterAlternative : Bool
  minAlternativeSharpe : ℚ
  maxRetirementsPerRun : ℤ
  maxRetirementPercentage : ℚ
  modificationGraceDays : ℤ

def defaultConfig : RetirementConfig where
  minSignals := 100
  minAgeDays := 180
  maxSharpe := 1 / 2
  maxAccuracy := 45 / 100
  requiredTrend := "DECLINING"
  requireBetterAlternative := true
  minAlternativeSharpe := 1
  maxRetirementsPerRun := 50
  maxRetirementPercentage := 10
  modificationGraceDays := 30

/-- Times are in microseconds. -/
def day : ℤ := 86400000000

structure Implementation where
  implId : String
  specId : String
  symbol : String
  forwardSharpe : ℚ
  forwardAccuracy : ℚ
  forwardTrades : ℤ
  createdAt : ℤ
  updatedAt : Option ℤ
  sharpeTrend : SharpeTrend
  specSource : String
  preferredRegime : Option String

def Implementation.ageDays (now : ℤ) (impl : Implementation) : ℤ := (now - impl.createdAt) / day

def Implementation.daysSinceModification (now : ℤ) (impl : Implementation) : Option ℤ :=
  impl.updatedAt.map fun updated => (now - updated) / day

inductive DecisionType where
  | implementation
  | spec
  deriving DecidableEq

structure RetirementDecision where
  shouldRetire : Bool
  reason : String
  implId : String
  specId : String
  decisionType : DecisionType
  finalSharpe : Option ℚ
  finalAccuracy : Option ℚ
  ageDays : Option ℤ
  signalCount : Option ℤ

/-- Python's formats of a float: `.2f`, `.0%` and none. -/
structure Formats where
  fixed : ℚ → String
  percent : ℚ → String
  plain : ℚ → String

section
variable (formats : Formats) (now : ℤ) (impl : Implementation) (config : RetirementConfig)

def decisionOn (shouldRetire : Bool) (reason : String) : RetirementDecision where
  shouldRetire := shouldRetire
  reason := reason
  implId := impl.implId
  specId := impl.specId
  decisionType := .implementation
  finalSharpe := some impl.forwardSharpe
  finalAccuracy := some impl.forwardAccuracy
  ageDays := some (impl.ageDays now)
  signalCount := some impl.forwardTrades

/-- Changed more recently than the grace period allows. -/
def recentlyModified : Bool :=
  (impl.daysSinceModification now).any (· < config.modificationGraceDays)

/-- The implementation prefers another regime than the current one. -/
def prefersOther (currentRegime : String) : Bool :=
  impl.preferredRegime.any fun preferred =>
    preferred ≠ "" && currentRegime ≠ "" && preferred ≠ currentRegime

def evaluateImplementation (betterAlternativeExists : Bool) (currentRegime : String) :
    RetirementDecision :=
  if impl.specSource = "CANONICAL" then
    decisionOn now impl false "CANONICAL spec protected from retirement"
  else if impl.forwardTrades < config.minSignals then
    decisionOn now impl false ("Insufficient signals (" ++ toString impl.forwardTrades ++ " < " ++
      toString config.minSignals ++ ")")
  else if impl.ageDays now < config.minAgeDays then
    decisionOn now impl false ("Too young (" ++ toString (impl.ageDays now) ++ "d < " ++
      toString config.minAgeDays ++ "d)")
  else if recentlyModified now impl config then
    decisionOn now impl false ("Recently modified (" ++
      toString ((impl.daysSinceModification now).getD 0) ++ "d ago, grace: " ++
      toString config.modificationGraceDays ++ "d)")
  else if config.maxSharpe ≤ impl.forwardSharpe then
    decisionOn now impl false ("Sharpe acceptable (" ++ formats.fixed impl.forwardSharpe ++ " >= " ++
      formats.plain config.maxSharpe ++ ")")
  else if config.maxAccuracy ≤ impl.forwardAccuracy then
    decisionOn now impl false ("Accuracy acceptable (" ++ formats.percent impl.forwardAccuracy ++
      " >= " ++ formats.percent config.maxAccuracy ++ ")")
  else if impl.sharpeTrend.text ≠ config.requiredTrend then
    decisionOn now impl false ("Performance not " ++ config.requiredTrend ++ " (" ++
      impl.sharpeTrend.text ++ ")")
  else if prefersOther impl currentRegime then
    decisionOn now impl false ("Deferring: strategy prefers " ++ impl.preferredRegime.getD "" ++
      ", current regime is " ++ currentRegime)
  else if config.requireBetterAlternative && !betterAlternativeExists then
    decisionOn now impl false "No better alternatives available"
  else
    decisionOn now impl true ("Retired: Sharpe=" ++ formats.fixed impl.forwardSharpe ++
      ", Accuracy=" ++ formats.percent impl.forwardAccuracy ++ ", Trend=" ++
      impl.sharpeTrend.text ++ ", Age=" ++ toString (impl.ageDays now) ++ "d, Signals=" ++
      toString impl.forwardTrades)

/-- The criteria, all of which have to be met. -/
structure Due (betterAlternativeExists : Bool) (currentRegime : String) : Prop where
  source : impl.specSource ≠ "CANONICAL"
  signals : config.minSignals ≤ impl.forwardTrades
  age : config.minAgeDays ≤ impl.ageDays now
  modification : recentlyModified now impl config = false
  sharpe : impl.forwardSharpe < config.maxSharpe
  accuracy : impl.forwardAccuracy < config.maxAccuracy
  trend : impl.sharpeTrend.text = config.requiredTrend
  regime : prefersOther impl currentRegime = false
  alternative : config.requireBetterAlternative = true → betterAlternativeExists = true

/-- Either a criterion is not met, or the implementation is retired. -/
theorem evaluateImplementation_cases (betterAlternativeExists : Bool) (currentRegime : String) :
    (¬ Due now impl config betterAlternativeExists currentRegime ∧
      ∃ reason, evaluateImplementation formats now impl config betterAlternativeExists
        currentRegime = decisionOn now impl false reason) ∨
    (Due now impl config betterAlternativeExists currentRegime ∧
      ∃ details, evaluateImplementation formats now impl config betterAlternativeExists
        currentRegime = decisionOn now impl true ("Retired: Sharpe=" ++ details)) := by
  -- one check after the other, each the negation of a field of `Due`
  unfold evaluateImplementation
  by_cases hsource : impl.specSource = "CANONICAL"
  · rw [if_pos hsource]
    exact .inl ⟨fun h => h.source hsource, _, rfl⟩
  rw [if_neg hsource]
  by_cases hsignals : impl.forwardTrades < config.minSignals
  · rw [if_pos hsignals]
    exact .inl ⟨fun h => h.signals.not_gt hsignals, _, rfl⟩
  rw [if_neg hsignals]
  by_cases hage : impl.ageDays now < config.minAgeDays
  · rw [if_pos hage]
    exact .inl ⟨fun h => h.age.not_gt hage, _, rfl⟩
  rw [if_neg hage]
  by_cases hmodification : recentlyModified now impl config = true
  · rw [if_pos hmodification]
    exact .inl ⟨fun h => Bool.eq_false_iff.mp h.modification hmodification, _, rfl⟩
  rw [if_neg hmodification]
  by_cases hsharpe : config.maxSharpe ≤ impl.forwardSharpe
  · rw [if_pos hsharpe]
    exact .inl ⟨fun h => h.sharpe.not_ge hsharpe, _, rfl⟩
  rw [if_neg hsharpe]
  by_cases haccuracy : config.maxAccuracy ≤ impl.forwardAccuracy
  · rw [if_pos haccuracy]
    exact .inl ⟨fun h => h.accuracy.not_ge haccuracy, _, rfl⟩
  rw [if_neg haccuracy]
  by_cases htrend : impl.sharpeTrend.text = config.requiredTrend
  swap
  · rw [if_pos htrend]
    exact .inl ⟨fun h => htrend h.trend, _, rfl⟩
  rw [if_neg (not_not.mpr htrend)]
  by_cases hregime : prefersOther impl currentRegime = true
  · rw [if_pos hregime]
    exact .inl ⟨fun h => Bool.eq_false_iff.mp h.regime hregime, _, rfl⟩
  rw [if_neg hregime]
  by_cases halternative : config.requireBetterAlternative = true → betterAlternativeExists = true
  · have hmet : ¬ (config.requireBetterAlternative && !betterAlternativeExists) = true := by
      simpa using halternative
    rw [if_neg hmet]
    -- no check is left: all the criteria are met
    refine .inr ⟨⟨hsource, not_lt.mp hsignals, not_lt.mp hage, Bool.eq_false_iff.mpr hmodification,
      not_le.mp hsharpe, not_le.mp haccuracy, htrend, Bool.eq_false_iff.mpr hregime,
      halternative⟩, ?_⟩
    simp only [String.append_assoc]
    exact ⟨_, rfl⟩
  · have hunmet : (config.requireBetterAlternative && !betterAlternativeExists) = true := by
      simpa using halternative
    rw [if_pos hunmet]
    exact .inl ⟨fun h => halternative h.alternative, _, rfl⟩

theorem shouldRetire_iff (betterAlternativeExists : Bool) (currentRegime : String) :
    (evaluateImplementation formats now impl config betterAlternativeExists
        currentRegime).shouldRetire = true ↔
      Due now impl config betterAlternativeExists currentRegime := by
  obtain ⟨hnot, reason, hdecision⟩ | ⟨hdue, details, hdecision⟩ :=
    evaluateImplementation_cases formats now impl config betterAlternativeExists currentRegime
  · rw [hdecision]
    exact iff_of_false Bool.false_ne_true hnot
  · rw [hdecision]
    exact iff_of_true rfl hdue

theorem implId_evaluateImplementation (betterAlternativeExists : Bool) (currentRegime : String) :
    (evaluateImplementation formats now impl config betterAlternativeExists
      currentRegime).implId = impl.implId := by
  obtain ⟨-, reason, hdecision⟩ | ⟨-, details, hdecision⟩ :=
    evaluateImplementation_cases formats now impl config betterAlternativeExists currentRegime
  · rw [hdecision]
    rfl
  · rw [hdecision]
    rfl

variable {formats now impl config} in
/-- The reason of a retirement says so. -/
theorem reason_of_shouldRetire {betterAlternativeExists : Bool} {currentRegime : String}
    (h : (evaluateImplementation formats now impl config betterAlternativeExists
      currentRegime).shouldRetire = true) :
    ∃ details, (evaluateImplementation formats now impl config betterAlternativeExists
      currentRegime).reason = "Retired: Sharpe=" ++ details := by
  obtain ⟨hnot, -⟩ | ⟨-, details, hdecision⟩ :=
    evaluateImplementation_cases formats now impl config betterAlternativeExists currentRegime
  · exact absurd ((shouldRetire_iff ..).mp h) hnot
  · rw [hdecision]
    exact ⟨details, rfl⟩

end

/-- `int` of a float. -/
def truncate (q : ℚ) : ℤ := q.num.tdiv q.den

def effectiveLimit (totalActive : ℤ) (config : RetirementConfig) : ℤ :=
  max (min config.maxRetirementsPerRun
    (truncate (totalActive * config.maxRetirementPercentage / 100))) 1

def skip (limit : ℤ) (candidate : RetirementDecision) : RetirementDecision where
  shouldRetire := false
  reason := "Batch limit reached (" ++ toString limit ++ ")"
  implId := candidate.implId
  specId := candidate.specId
  decisionType := candidate.decisionType
  finalSharpe := none
  finalAccuracy := none
  ageDays := none
  signalCount := none

/-- One candidate after the approved and the skipped ones. -/
def limitStep (limit : ℤ) (lists : List RetirementDecision × List RetirementDecision)
    (candidate : RetirementDecision) : List RetirementDecision × List RetirementDecision :=
  if !candidate.shouldRetire then lists
  else if limit ≤ lists.1.length then (lists.1, lists.2 ++ [skip limit candidate])
  else (lists.1 ++ [candidate], lists.2)

def applyBatchLimits (candidates : List RetirementDecision) (totalActive : ℤ)
    (config : RetirementConfig) : List RetirementDecision × List RetirementDecision :=
  candidates.foldl (limitStep (effectiveLimit totalActive config)) ([], [])

def evaluateSpec (specId source : String) (activeImplCount totalImplCount : ℕ) :
    RetirementDecision :=
  let result (shouldRetire : Bool) (reason : String) : RetirementDecision :=
    ⟨shouldRetire, reason, "", specId, .spec, none, none, none, none⟩
  if source = "CANONICAL" then result false "CANONICAL specs protected from retirement"
  else if totalImplCount = 0 then result false "No implementations to evaluate"
  else if 0 < activeImplCount then
    result false (toString activeImplCount ++ " active implementations remain")
  else result true ("All " ++ toString totalImplCount ++ " implementations retired")

section
variable (candidates : List RetirementDecision) (totalActive : ℤ) (config : RetirementConfig)

theorem applyBatchLimits_singleton {decision : RetirementDecision}
    (h : decision.shouldRetire = true) :
    applyBatchLimits [decision] totalActive config = ([decision], []) := by
  have hlimit : ¬ effectiveLimit totalActive config ≤ 0 :=
    not_le.mpr (zero_lt_one.trans_le (le_max_right _ _))
  simp [applyBatchLimits, limitStep, h, hlimit]

theorem one_le_effectiveLimit : 1 ≤ effectiveLimit totalActive config := le_max_right _ _

/-- Only candidates that should retire are approved, in number no more than the limit. -/
theorem approved_of_applyBatchLimits :
    (∀ decision ∈ (applyBatchLimits candidates totalActive config).1,
        decision ∈ candidates ∧ decision.shouldRetire = true) ∧
      ((applyBatchLimits candidates totalActive config).1.length : ℤ) ≤
        effectiveLimit totalActive config := by
  have hlimit := one_le_effectiveLimit totalActive config
  apply List.foldlRecOn (motive := fun lists : List RetirementDecision × List RetirementDecision =>
    (∀ decision ∈ lists.1, decision ∈ candidates ∧ decision.shouldRetire = true) ∧
      (lists.1.length : ℤ) ≤ effectiveLimit totalActive config)
  · refine ⟨by simp, ?_⟩
    simpa using zero_le_one.trans hlimit
  -- only a candidate that should retire is appended, and only below the limit
  · intro lists hlists candidate hcandidate
    unfold limitStep
    split_ifs with hretire hfull
    · exact hlists
    · exact hlists
    · constructor
      · intro decision hdecision
        rcases List.mem_append.mp hdecision with hearlier | hlast
        · exact hlists.1 decision hearlier
        · rw [List.mem_singleton.mp hlast]
          exact ⟨hcandidate, by simpa using hretire⟩
      · rw [List.length_append, List.length_singleton]
        push_cast
        omega

end

end TradeStream.RetirementCriteria
