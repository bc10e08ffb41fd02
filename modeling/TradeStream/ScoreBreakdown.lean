import TradeStream.OpportunityScore

/-! One score per signal: the breakdown of the scorer agent rounds every contribution, the two
scores round their sum. -/
namespace TradeStream.OpportunityScore
open TradeStream.RoundDecimal

/-- The three functions have one score and one tier for the signal. -/
structure OneScore (x : Factors) : Prop where
  agent : (ScorerAgent.computeScoreBreakdown x).opportunityScore =
    ScorerAgent.calculateOpportunityScore none x
  agentTier : (ScorerAgent.computeScoreBreakdown x).opportunityTier =
    assignTier (ScorerAgent.calculateOpportunityScore none x)
  scoring : (ScorerAgent.computeScoreBreakdown x).opportunityScore =
    (Scoring.calculateOpportunityScore x).1
  scoringTier : (ScorerAgent.computeScoreBreakdown x).opportunityTier =
    assignTier (Scoring.calculateOpportunityScore x).1

/-- The sum of the contributions, each rounded to tenths. -/
def Contributions.tenths (c : Contributions) : ℤ :=
  roundHalfEven (c.confidence * 10) + roundHalfEven (c.expectedReturn * 10) +
    roundHalfEven (c.consensus * 10) + roundHalfEven (c.volatility * 10) +
      roundHalfEven (c.freshness * 10)

/-- What the five roundings lose or add is less than half a tenth in sum, or half a tenth where
the sum is even. -/
def RoundsAlike (c : Contributions) : Prop := NearestTenths c.total c.tenths

theorem total_map_roundTo (c : Contributions) : (c.map (roundTo 1)).total = c.tenths / 10 := by
  simp only [Contributions.total, Contributions.map, Contributions.tenths, roundTo, pow_one]
  push_cast
  ring

/-- The sum of the rounded contributions is not changed by another rounding. -/
theorem computeScoreBreakdown_score (x : Factors) :
    (ScorerAgent.computeScoreBreakdown x).opportunityScore =
      (Contributions.of defaultWeights x).tenths / 10 := by
  have hdecimal : IsDecimal 1 (((Contributions.of defaultWeights x).tenths : ℚ) / 10) :=
    ⟨(Contributions.of defaultWeights x).tenths, by norm_num⟩
  simp only [ScorerAgent.computeScoreBreakdown]
  rw [total_map_roundTo, hdecimal.roundTo_eq]

theorem scores_eq_iff (x : Factors) :
    (ScorerAgent.computeScoreBreakdown x).opportunityScore =
        (Scoring.calculateOpportunityScore x).1 ↔
      RoundsAlike (Contributions.of defaultWeights x) := by
  have hscore : (Scoring.calculateOpportunityScore x).1 =
      roundHalfEven ((Contributions.of defaultWeights x).total * 10) / 10 := by
    simp only [Scoring.calculateOpportunityScore, roundTo, pow_one]
  rw [computeScoreBreakdown_score, hscore, div_left_inj' (by norm_num), Int.cast_inj, eq_comm,
    roundHalfEven_eq_iff, RoundsAlike, NearestTenths]

theorem oneScore_iff (x : Factors) :
    OneScore x ↔ RoundsAlike (Contributions.of defaultWeights x) := by
  rw [← scores_eq_iff]
  constructor
  · exact OneScore.scoring
  · intro hscore
    have hagent := hscore.trans (calculateOpportunityScore_eq x).symm
    have htier : (ScorerAgent.computeScoreBreakdown x).opportunityTier =
        assignTier (ScorerAgent.computeScoreBreakdown x).opportunityScore := rfl
    refine ⟨hagent, ?_, hscore, ?_⟩
    · rw [htier, hagent]
    · rw [htier, hscore]

/-- A signal whose contributions are 24.94, 30, 15.04, 0.02 and 10. -/
def nearHot : Factors where
  confidence := 9976 / 10000
  expectedReturn := 5 / 100
  returnStddev := 0
  consensusPct := 752 / 1000
  volatility := 4 / 100000
  minutesAgo := 0
  marketRegime := "normal"
  volatilityPercentile := 1 / 2
  confidence_nonneg := by norm_num
  confidence_le_one := by norm_num
  returnStddev_nonneg := nothing_nonneg
  consensusPct_nonneg := by norm_num
  consensusPct_le_one := by norm_num
  volatility_nonneg := by norm_num
  minutesAgo_nonneg := nothing_nonneg

/-- It is hot with 80 points, and good with the 79.9 of the breakdown. -/
theorem nearHot_not_oneScore : ¬ OneScore nearHot := by
  intro h
  have hbreakdown : (ScorerAgent.computeScoreBreakdown nearHot).opportunityTier = "GOOD" := by
    decide +kernel
  have hscore : assignTier (ScorerAgent.calculateOpportunityScore none nearHot) = "HOT" := by
    decide +kernel
  have htier := h.agentTier
  rw [hbreakdown, hscore] at htier
  exact absurd htier (by decide)

end TradeStream.OpportunityScore
