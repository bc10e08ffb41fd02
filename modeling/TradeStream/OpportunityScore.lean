import TradeStream.RoundDecimal

/-! The opportunity score of a signal: the functions of `opportunity_scoring` and of the scorer
agent that compute it, in exact arithmetic. -/
namespace TradeStream.OpportunityScore
open TradeStream.RoundDecimal

structure RegimeCaps where
  maxReturn : ℚ
  maxVolatility : ℚ

structure Weights where
  confidence : ℚ
  expectedReturn : ℚ
  consensus : ℚ
  volatility : ℚ
  freshness : ℚ

/-- `WEIGHTS` of the one module and `DEFAULT_WEIGHTS` of the other. -/
def defaultWeights : Weights := ⟨25 / 100, 30 / 100, 20 / 100, 15 / 100, 10 / 100⟩

/-- `get_regime_caps` and `get_regime_adjusted_caps`. -/
def regimeCaps (regime : String) : RegimeCaps :=
  if regime = "extreme" then ⟨15 / 100, 10 / 100⟩
  else if regime = "high_volatility" then ⟨8 / 100, 5 / 100⟩
  else ⟨5 / 100, 3 / 100⟩

def maxSharpeFactor : ℚ := 2

def applySharpeAdjustment (expectedReturn returnStddev : ℚ) : ℚ :=
  if returnStddev ≤ 0 then expectedReturn
  else
    let sharpeFactor := expectedReturn / returnStddev
    let adjustmentMultiplier := min sharpeFactor maxSharpeFactor / maxSharpeFactor
    expectedReturn * (1 / 2 + 1 / 2 * adjustmentMultiplier)

def assignTier (score : ℚ) : String :=
  if 80 ≤ score then "HOT"
  else if 60 ≤ score then "GOOD"
  else if 40 ≤ score then "NEUTRAL"
  else "LOW"

/-- The arguments of the three functions, in their documented ranges. -/
structure Factors where
  confidence : ℚ
  expectedReturn : ℚ
  returnStddev : ℚ
  consensusPct : ℚ
  volatility : ℚ
  minutesAgo : ℚ
  marketRegime : String
  volatilityPercentile : ℚ
  confidence_nonneg : 0 ≤ confidence
  confidence_le_one : confidence ≤ 1
  returnStddev_nonneg : 0 ≤ returnStddev
  consensusPct_nonneg : 0 ≤ consensusPct
  consensusPct_le_one : consensusPct ≤ 1
  volatility_nonneg : 0 ≤ volatility
  minutesAgo_nonneg : 0 ≤ minutesAgo

/-- A value against its cap, at most one. -/
def normalized (value cap : ℚ) : ℚ := if 0 < cap then min (value / cap) 1 else 0

/-- `FRESHNESS_WINDOW_MIN`. -/
def freshnessWindowMin : ℚ := 60

namespace Factors
variable (x : Factors)

def riskAdjusted : ℚ := applySharpeAdjustment x.expectedReturn x.returnStddev

def returnScore : ℚ := normalized x.riskAdjusted (regimeCaps x.marketRegime).maxReturn

def volatilityScore : ℚ := normalized x.volatility (regimeCaps x.marketRegime).maxVolatility

/-- All of it at 0 minutes, half at 30 and nothing from 60 on. -/
def freshnessScore : ℚ := max 0 (1 - x.minutesAgo / freshnessWindowMin)

end Factors

/-- What each factor adds to the score. -/
structure Contributions where
  confidence : ℚ
  expectedReturn : ℚ
  consensus : ℚ
  volatility : ℚ
  freshness : ℚ
  deriving DecidableEq

namespace Contributions

def of (w : Weights) (x : Factors) : Contributions where
  confidence := w.confidence * x.confidence * 100
  expectedReturn := w.expectedReturn * x.returnScore * 100
  consensus := w.consensus * x.consensusPct * 100
  volatility := w.volatility * x.volatilityScore * 100
  freshness := w.freshness * x.freshnessScore * 100

def map (f : ℚ → ℚ) (c : Contributions) : Contributions :=
  ⟨f c.confidence, f c.expectedReturn, f c.consensus, f c.volatility, f c.freshness⟩

def total (c : Contributions) : ℚ :=
  c.confidence + c.expectedReturn + c.consensus + c.volatility + c.freshness

end Contributions

/-! ### `opportunity_scoring` -/

/-- `ScoreBreakdown`, the values being those of the arguments. -/
structure ScoreBreakdown where
  factors : Factors
  riskAdjustedReturn : ℚ
  contributions : Contributions

namespace Scoring

/-- The contributions are rounded for display only. -/
def calculateOpportunityScore (x : Factors) : ℚ × ScoreBreakdown :=
  let contributions := Contributions.of defaultWeights x
  (roundTo 1 contributions.total,
    { factors := x
      riskAdjustedReturn := roundTo 6 x.riskAdjusted
      contributions := contributions.map (roundTo 1) })

end Scoring

/-! ### The scorer agent -/

/-- What the scorer agent sends, the values being those of the arguments. -/
structure ScoredSignal where
  opportunityScore : ℚ
  opportunityTier : String
  factors : Factors
  riskAdjusted : ℚ
  contributions : Contributions

namespace ScorerAgent

def calculateOpportunityScore (weights : Option Weights) (x : Factors) : ℚ :=
  let w := weights.getD defaultWeights
  let score := (w.confidence * x.confidence + w.expectedReturn * x.returnScore +
    w.consensus * x.consensusPct + w.volatility * x.volatilityScore +
    w.freshness * x.freshnessScore) * 100
  roundTo 1 score

/-- The contributions are rounded before they are added up. -/
def computeScoreBreakdown (x : Factors) : ScoredSignal :=
  let contributions := (Contributions.of defaultWeights x).map (roundTo 1)
  let total := roundTo 1 contributions.total
  { opportunityScore := total
    opportunityTier := assignTier total
    factors := x
    riskAdjusted := roundTo 6 x.riskAdjusted
    contributions := contributions }

end ScorerAgent

/-- With the default weights the two modules have one score. -/
theorem calculateOpportunityScore_eq (x : Factors) :
    ScorerAgent.calculateOpportunityScore none x = (Scoring.calculateOpportunityScore x).1 := by
  simp only [ScorerAgent.calculateOpportunityScore, Scoring.calculateOpportunityScore,
    Contributions.of, Contributions.total, Option.getD_none]
  congr 1
  ring

/-! ### The adjusted return -/

section
variable {r r' s : ℚ}

theorem applySharpeAdjustment_zero : applySharpeAdjustment r 0 = r := if_pos le_rfl

/-- Up to twice the deviation the adjusted return is a parabola with its lowest point at minus
the deviation. -/
theorem applySharpeAdjustment_of_le (hs : 0 < s) (hr : r ≤ 2 * s) :
    applySharpeAdjustment r s = (r + s) ^ 2 / (4 * s) - s / 4 := by
  have hfactor : r / s ≤ 2 := (div_le_iff₀ hs).mpr hr
  simp only [applySharpeAdjustment, if_neg (not_le.mpr hs), min_eq_left hfactor, maxSharpeFactor]
  field_simp
  ring

theorem applySharpeAdjustment_of_ge (hs : 0 < s) (hr : 2 * s ≤ r) :
    applySharpeAdjustment r s = r := by
  have hfactor : 2 ≤ r / s := (le_div_iff₀ hs).mpr hr
  simp only [applySharpeAdjustment, if_neg (not_le.mpr hs), min_eq_right hfactor, maxSharpeFactor]
  ring

theorem applySharpeAdjustment_neg (hs : 0 < s) : applySharpeAdjustment (-s) s = -(s / 4) := by
  rw [applySharpeAdjustment_of_le hs (by linarith)]
  ring

theorem neg_le_applySharpeAdjustment (hs : 0 < s) (r : ℚ) :
    -(s / 4) ≤ applySharpeAdjustment r s := by
  rcases le_total r (2 * s) with hle | hge
  · have hsquare : 0 ≤ (r + s) ^ 2 / (4 * s) := by positivity
    rw [applySharpeAdjustment_of_le hs hle]
    linarith
  · rw [applySharpeAdjustment_of_ge hs hge]
    linarith

theorem applySharpeAdjustment_mono (hs : 0 < s) (hr : -s ≤ r) (hle : r ≤ r') :
    applySharpeAdjustment r s ≤ applySharpeAdjustment r' s := by
  -- to the left of twice the deviation, with both on the rising side of the parabola
  have hrising : ∀ q, r ≤ q → q ≤ 2 * s →
      applySharpeAdjustment r s ≤ applySharpeAdjustment q s := by
    intro q hq hq'
    have hsquare : (r + s) ^ 2 ≤ (q + s) ^ 2 := pow_le_pow_left₀ (by linarith) (by linarith) 2
    have hdiv := div_le_div_of_nonneg_right hsquare (by positivity : 0 ≤ 4 * s)
    rw [applySharpeAdjustment_of_le hs (hq.trans hq'), applySharpeAdjustment_of_le hs hq']
    linarith
  rcases le_total r' (2 * s) with hlow | hhigh
  · exact hrising r' hle hlow
  · rw [applySharpeAdjustment_of_ge hs hhigh]
    rcases le_total r (2 * s) with hr' | hr'
    · have htop := hrising (2 * s) hr' le_rfl
      rw [applySharpeAdjustment_of_ge hs le_rfl] at htop
      exact htop.trans hhigh
    · rwa [applySharpeAdjustment_of_ge hs hr']

end

/-! ### The score, by the expected return -/

/-- The points of the other four factors. -/
def Factors.otherPoints (x : Factors) : ℚ :=
  25 * x.confidence + 20 * x.consensusPct + 15 * x.volatilityScore + 10 * x.freshnessScore

/-- The points before they are rounded, for an adjusted return. -/
def Factors.pointsAt (x : Factors) (adjusted : ℚ) : ℚ :=
  x.otherPoints + 30 * min (adjusted / (regimeCaps x.marketRegime).maxReturn) 1

/-- The signal with another expected return, everything else fixed. -/
def Factors.returning (x : Factors) (r : ℚ) : Factors := { x with expectedReturn := r }

theorem maxReturn_pos (regime : String) : 0 < (regimeCaps regime).maxReturn := by
  unfold regimeCaps
  split_ifs <;> norm_num

theorem normalized_mem {value cap : ℚ} (hvalue : 0 ≤ value) :
    0 ≤ normalized value cap ∧ normalized value cap ≤ 1 := by
  unfold normalized
  split_ifs with hcap
  · exact ⟨le_min (div_nonneg hvalue hcap.le) zero_le_one, min_le_right _ _⟩
  · exact ⟨le_rfl, zero_le_one⟩

theorem freshnessScore_mem (x : Factors) : 0 ≤ x.freshnessScore ∧ x.freshnessScore ≤ 1 := by
  have hage : 0 ≤ x.minutesAgo / freshnessWindowMin :=
    div_nonneg x.minutesAgo_nonneg (by norm_num [freshnessWindowMin])
  exact ⟨le_max_left _ _, max_le zero_le_one (by linarith)⟩

theorem otherPoints_mem (x : Factors) : 0 ≤ x.otherPoints ∧ x.otherPoints ≤ 70 := by
  obtain ⟨hvol, hvol'⟩ : 0 ≤ x.volatilityScore ∧ x.volatilityScore ≤ 1 :=
    normalized_mem x.volatility_nonneg
  obtain ⟨hfresh, hfresh'⟩ := freshnessScore_mem x
  have hconf := x.confidence_nonneg
  have hconf' := x.confidence_le_one
  have hcons := x.consensusPct_nonneg
  have hcons' := x.consensusPct_le_one
  unfold Factors.otherPoints
  constructor <;> linarith

theorem pointsAt_mono (x : Factors) : Monotone x.pointsAt := by
  intro adjusted adjusted' hle
  have hdiv := div_le_div_of_nonneg_right hle (maxReturn_pos x.marketRegime).le
  have hmin := min_le_min_right 1 hdiv
  unfold Factors.pointsAt
  linarith

theorem pointsAt_le (x : Factors) (adjusted : ℚ) : x.pointsAt adjusted ≤ 100 := by
  have hmin := min_le_right (adjusted / (regimeCaps x.marketRegime).maxReturn) 1
  have hother := (otherPoints_mem x).2
  unfold Factors.pointsAt
  linarith

theorem score_eq (x : Factors) :
    (Scoring.calculateOpportunityScore x).1 = roundTo 1 (x.pointsAt x.riskAdjusted) := by
  simp only [Scoring.calculateOpportunityScore, Contributions.total, Contributions.of,
    defaultWeights, Factors.pointsAt, Factors.otherPoints, Factors.returnScore, normalized,
    if_pos (maxReturn_pos x.marketRegime)]
  congr 1
  ring

/-- The score of a signal is in its range, and no higher return has a lower one. -/
structure RangeAndMonotone (score : Factors → ℚ) (x : Factors) : Prop where
  nonneg : 0 ≤ score x
  le_hundred : score x ≤ 100
  mono : ∀ r, x.expectedReturn ≤ r → score x ≤ score (x.returning r)

/-- No other number of tenths is nearer, and of two as near it is the even one. -/
def NearestTenths (points : ℚ) (n : ℤ) : Prop :=
  |points * 10 - n| < 1 / 2 ∨ |points * 10 - n| = 1 / 2 ∧ Even n

/-- The adjusted return takes no more than the points of the other factors and half a tenth. A
return below minus the deviation is so little below that the points which its square puts on top
of the lowest ones do not reach another tenth. -/
structure BoundedLoss (x : Factors) : Prop where
  coverage : -(x.otherPoints + 1 / 20) * (regimeCaps x.marketRegime).maxReturn ≤
    30 * applySharpeAdjustment x.expectedReturn x.returnStddev
  rising : 0 < x.returnStddev → x.expectedReturn < -x.returnStddev →
    ∃ n, NearestTenths (x.pointsAt (-(x.returnStddev / 4))) n ∧
      NearestTenths (x.pointsAt
        ((x.expectedReturn + x.returnStddev) ^ 2 / (4 * x.returnStddev) - x.returnStddev / 4)) n

theorem roundTo_one_nonneg_iff (y : ℚ) : 0 ≤ roundTo 1 y ↔ -(1 / 20) ≤ y := by
  have hneg : roundTo 1 y < 0 ↔ 1 / 20 < -y := by
    have hpos := roundTo_pos_iff 1 (-y)
    rw [roundTo_neg, Left.neg_pos_iff] at hpos
    rw [hpos]
    norm_num
  rw [← not_lt, hneg, not_lt]
  constructor <;> intro h <;> linarith

theorem roundTo_one_eq_iff (y z : ℚ) :
    roundTo 1 y = roundTo 1 z ↔ ∃ n, NearestTenths y n ∧ NearestTenths z n := by
  simp only [NearestTenths, ← roundHalfEven_eq_iff]
  rw [roundTo, roundTo, pow_one, div_left_inj' (by norm_num), Int.cast_inj]
  constructor
  · intro h
    exact ⟨roundHalfEven (y * 10), rfl, h.symm⟩
  · rintro ⟨n, hy, hz⟩
    rw [hy, hz]

/-- The points are negative only with a return below its cap. -/
theorem neg_le_pointsAt_iff (x : Factors) (adjusted : ℚ) :
    -(1 / 20) ≤ x.pointsAt adjusted ↔
      -(x.otherPoints + 1 / 20) * (regimeCaps x.marketRegime).maxReturn ≤ 30 * adjusted := by
  have hother := (otherPoints_mem x).1
  have hcap := maxReturn_pos x.marketRegime
  have hscale : -(x.otherPoints + 1 / 20) * (regimeCaps x.marketRegime).maxReturn ≤ 30 * adjusted ↔
      -(x.otherPoints + 1 / 20) ≤ 30 * (adjusted / (regimeCaps x.marketRegime).maxReturn) := by
    rw [← le_div_iff₀ hcap, mul_div_assoc]
  rw [hscale, Factors.pointsAt]
  rcases le_total (adjusted / (regimeCaps x.marketRegime).maxReturn) 1 with hle | hge
  · rw [min_eq_left hle]
    constructor <;> intro h <;> linarith
  · rw [min_eq_right hge]
    exact iff_of_true (by linarith) (by linarith)

theorem score_returning (x : Factors) (r : ℚ) :
    (Scoring.calculateOpportunityScore (x.returning r)).1 =
      roundTo 1 (x.pointsAt (applySharpeAdjustment r x.returnStddev)) :=
  score_eq (x.returning r)

/-- From minus the deviation on the score rises with the return. Below, every return has to be
as good as minus the deviation itself. -/
theorem score_mono_iff (x : Factors) :
    (∀ r, x.expectedReturn ≤ r → (Scoring.calculateOpportunityScore x).1 ≤
        (Scoring.calculateOpportunityScore (x.returning r)).1) ↔
      (0 < x.returnStddev → x.expectedReturn < -x.returnStddev →
        roundTo 1 (x.pointsAt (-(x.returnStddev / 4))) =
          roundTo 1 (x.pointsAt (applySharpeAdjustment x.expectedReturn x.returnStddev))) := by
  simp only [score_returning]
  rw [score_eq, Factors.riskAdjusted]
  have hround : Monotone fun adjusted => roundTo 1 (x.pointsAt adjusted) :=
    fun _ _ hle => roundTo_mono 1 (pointsAt_mono x hle)
  constructor
  · -- minus the deviation is a higher return, and no adjusted return is below its own
    intro hmono hstddev hlow
    have hle := hmono (-x.returnStddev) hlow.le
    rw [applySharpeAdjustment_neg hstddev] at hle
    exact le_antisymm (hround (neg_le_applySharpeAdjustment hstddev _)) hle
  · intro hrising r hr
    rcases x.returnStddev_nonneg.eq_or_lt with hzero | hstddev
    · rw [← hzero, applySharpeAdjustment_zero, applySharpeAdjustment_zero]
      exact hround hr
    · rcases le_or_gt (-x.returnStddev) x.expectedReturn with hrange | hlow
      · exact hround (applySharpeAdjustment_mono hstddev hrange hr)
      · rw [← hrising hstddev hlow]
        exact hround (neg_le_applySharpeAdjustment hstddev r)

theorem score_nonneg_iff (x : Factors) :
    0 ≤ (Scoring.calculateOpportunityScore x).1 ↔
      -(x.otherPoints + 1 / 20) * (regimeCaps x.marketRegime).maxReturn ≤
        30 * applySharpeAdjustment x.expectedReturn x.returnStddev := by
  rw [score_eq, roundTo_one_nonneg_iff, neg_le_pointsAt_iff, Factors.riskAdjusted]

theorem score_le (x : Factors) : (Scoring.calculateOpportunityScore x).1 ≤ 100 := by
  have hle := roundTo_mono 1 (pointsAt_le x x.riskAdjusted)
  have hhundred : roundTo 1 (100 : ℚ) = 100 := by decide +kernel
  rw [hhundred] at hle
  rwa [score_eq]

theorem rangeAndMonotone_scoring_iff (x : Factors) :
    RangeAndMonotone (fun x => (Scoring.calculateOpportunityScore x).1) x ↔ BoundedLoss x := by
  have hmono : (∀ r, x.expectedReturn ≤ r → (Scoring.calculateOpportunityScore x).1 ≤
        (Scoring.calculateOpportunityScore (x.returning r)).1) ↔
      (0 < x.returnStddev → x.expectedReturn < -x.returnStddev →
        ∃ n, NearestTenths (x.pointsAt (-(x.returnStddev / 4))) n ∧
          NearestTenths (x.pointsAt ((x.expectedReturn + x.returnStddev) ^ 2 /
            (4 * x.returnStddev) - x.returnStddev / 4)) n) := by
    rw [score_mono_iff]
    apply forall₂_congr
    intro hstddev hlow
    rw [roundTo_one_eq_iff, applySharpeAdjustment_of_le hstddev (by linarith)]
  constructor
  · intro h
    exact ⟨(score_nonneg_iff x).mp h.nonneg, hmono.mp h.mono⟩
  · intro h
    exact ⟨(score_nonneg_iff x).mpr h.coverage, score_le x, hmono.mpr h.rising⟩

/-- Both functions are sound at the same signals. -/
theorem rangeAndMonotone_iff (x : Factors) :
    (RangeAndMonotone (fun x => (Scoring.calculateOpportunityScore x).1) x ↔ BoundedLoss x) ∧
      (RangeAndMonotone (ScorerAgent.calculateOpportunityScore none) x ↔ BoundedLoss x) := by
  have hsame : ScorerAgent.calculateOpportunityScore none =
      fun x => (Scoring.calculateOpportunityScore x).1 := funext calculateOpportunityScore_eq
  rw [hsame]
  exact ⟨rangeAndMonotone_scoring_iff x, rangeAndMonotone_scoring_iff x⟩

theorem nothing_nonneg : (0 : ℚ) ≤ 0 := le_rfl

theorem nothing_le_one : (0 : ℚ) ≤ 1 := zero_le_one

/-- A signal with no points of the other factors, with a return and its deviation. -/
def barely (expectedReturn : ℚ) (returnStddev : ℚ≥0) : Factors where
  confidence := 0
  expectedReturn := expectedReturn
  returnStddev := returnStddev
  consensusPct := 0
  volatility := 0
  minutesAgo := 60
  marketRegime := "normal"
  volatilityPercentile := 1 / 2
  confidence_nonneg := nothing_nonneg
  confidence_le_one := nothing_le_one
  returnStddev_nonneg := returnStddev.2
  consensusPct_nonneg := nothing_nonneg
  consensusPct_le_one := nothing_le_one
  volatility_nonneg := nothing_nonneg
  minutesAgo_nonneg := by norm_num

/-- A loss of five percent scores 30 below zero. With a deviation of one percent a loss of
everything scores 30, and no return at all scores nothing. -/
theorem barely_not_rangeAndMonotone :
    ¬ RangeAndMonotone (fun x => (Scoring.calculateOpportunityScore x).1) (barely (-1 / 20) 0) ∧
      ¬ RangeAndMonotone (ScorerAgent.calculateOpportunityScore none) (barely (-1) (1 / 100)) := by
  constructor
  · intro h
    have hscore : (Scoring.calculateOpportunityScore (barely (-1 / 20) 0)).1 = -30 := by
      decide +kernel
    have hnonneg := h.nonneg
    rw [hscore] at hnonneg
    norm_num at hnonneg
  · intro h
    have hscore : ScorerAgent.calculateOpportunityScore none (barely (-1) (1 / 100)) = 30 := by
      decide +kernel
    have hnone : ScorerAgent.calculateOpportunityScore none ((barely (-1) (1 / 100)).returning 0) =
        0 := by
      decide +kernel
    have hmono := h.mono 0 (by norm_num [barely])
    rw [hscore, hnone] at hmono
    norm_num at hmono

end TradeStream.OpportunityScore
