import TradeStream.Fallible

/-! The two position sizing functions, in exact arithmetic. A division by zero and a result that
its model refuses are exceptions. -/
namespace TradeStream.PositionSizing
open TradeStream.Fallible

inductive SizingMethod where
  | fixedFraction
  | kelly
  deriving DecidableEq

inductive SizingError where
  | zeroDivision
  | validation
  deriving DecidableEq

structure RiskParams where
  capital : ℚ
  riskPct : ℚ
  maxPositionPct : ℚ
  defaultStopLossPct : ℚ
  capital_pos : 0 < capital
  riskPct_pos : 0 < riskPct
  riskPct_le_one : riskPct ≤ 1
  maxPositionPct_pos : 0 < maxPositionPct
  maxPositionPct_le_one : maxPositionPct ≤ 1
  defaultStopLossPct_pos : 0 < defaultStopLossPct
  defaultStopLossPct_le_one : defaultStopLossPct ≤ 1

/-- The result, with what its model asks of the numbers. -/
structure Sizing where
  method : SizingMethod
  quantity : ℚ
  riskAmount : ℚ
  positionValue : ℚ
  quantity_nonneg : 0 ≤ quantity
  riskAmount_nonneg : 0 ≤ riskAmount
  positionValue_nonneg : 0 ≤ positionValue

/-- `PositionSizing(..)`. -/
def positionSizing (method : SizingMethod) (quantity riskAmount positionValue : ℚ) :
    Except SizingError Sizing :=
  if h : 0 ≤ quantity ∧ 0 ≤ riskAmount ∧ 0 ≤ positionValue then
    .ok ⟨method, quantity, riskAmount, positionValue, h.1, h.2.1, h.2.2⟩
  else .error .validation

def divide (x y : ℚ) : Except SizingError ℚ := if y = 0 then .error .zeroDivision else .ok (x / y)

def fixedFractionSize (price : ℚ) (params : RiskParams) (stopLossPct : Option ℚ) :
    Except SizingError Sizing :=
  if price ≤ 0 then positionSizing .fixedFraction 0 0 0
  else do
    let slPct := stopLossPct.getD params.defaultStopLossPct
    let riskAmount := params.capital * params.riskPct
    let maxPositionValue := params.capital * params.maxPositionPct
    let quantity ← (if slPct ≤ 0 then .ok 0 else divide riskAmount (price * slPct))
    let positionValue := quantity * price
    if maxPositionValue < positionValue then
      let quantity ← divide maxPositionValue price
      positionSizing .fixedFraction quantity (min riskAmount (maxPositionValue * slPct))
        (quantity * price)
    else
      positionSizing .fixedFraction quantity (min riskAmount (positionValue * slPct))
        (quantity * price)

def kellyCriterionSize (price winRate avgWin avgLoss : ℚ) (params : RiskParams)
    (kellyFraction : ℚ) : Except SizingError Sizing :=
  if price ≤ 0 ∨ avgLoss ≤ 0 ∨ ¬ (0 < winRate ∧ winRate < 1) then positionSizing .kelly 0 0 0
  else do
    let b ← divide avgWin avgLoss
    let fullKelly ← divide (b * winRate - (1 - winRate)) b
    let fraction := max 0 (min fullKelly 1) * kellyFraction
    let maxPositionValue := params.capital * params.maxPositionPct
    let positionValue :=
      if maxPositionValue < params.capital * fraction then maxPositionValue
      else params.capital * fraction
    let quantity ← (if 0 < price then divide positionValue price else .ok 0)
    positionSizing .kelly quantity (positionValue * params.defaultStopLossPct) (quantity * price)

/-- There is a result, with a position between zero and the cap. -/
def Sized (params : RiskParams) (result : Except SizingError Sizing) : Prop :=
  ∃ sizing, result = .ok sizing ∧ 0 ≤ sizing.positionValue ∧
    sizing.positionValue ≤ params.capital * params.maxPositionPct

theorem divide_of_ne {x y : ℚ} (hy : y ≠ 0) : divide x y = .ok (x / y) := if_neg hy

section
variable (params : RiskParams) {price : ℚ}

theorem cap_pos : 0 < params.capital * params.maxPositionPct :=
  mul_pos params.capital_pos params.maxPositionPct_pos

theorem sized_positionSizing_iff (method : SizingMethod) (quantity riskAmount positionValue : ℚ) :
    Sized params (positionSizing method quantity riskAmount positionValue) ↔
      0 ≤ quantity ∧ 0 ≤ riskAmount ∧ 0 ≤ positionValue ∧
        positionValue ≤ params.capital * params.maxPositionPct := by
  rw [positionSizing]
  split_ifs with hnonneg
  · constructor
    · rintro ⟨sizing, hsizing, -, hle⟩
      cases hsizing
      exact ⟨hnonneg.1, hnonneg.2.1, hnonneg.2.2, hle⟩
    · rintro ⟨-, -, hvalue, hle⟩
      exact ⟨_, rfl, hvalue, hle⟩
  · constructor
    · rintro ⟨sizing, hsizing, -⟩
      cases hsizing
    · rintro ⟨hquantity, hrisk, hvalue, -⟩
      exact absurd ⟨hquantity, hrisk, hvalue⟩ hnonneg

theorem sized_zero (method : SizingMethod) : Sized params (positionSizing method 0 0 0) :=
  (sized_positionSizing_iff params method 0 0 0).mpr ⟨le_rfl, le_rfl, le_rfl, (cap_pos params).le⟩

/-! ### The fixed fraction -/

/-- A quantity for a stop loss, if it is worth no less than nothing for one that is positive. -/
theorem min_risk_nonneg {slPct positionValue : ℚ} (hvalue : 0 ≤ positionValue)
    (hsl : slPct ≤ 0 → positionValue = 0) :
    0 ≤ min (params.capital * params.riskPct) (positionValue * slPct) := by
  apply le_min (mul_pos params.capital_pos params.riskPct_pos).le
  rcases le_or_gt slPct 0 with hle | hpos
  · rw [hsl hle, zero_mul]
  · exact mul_nonneg hvalue hpos.le

theorem sized_fixedFractionSize (price : ℚ) (stopLossPct : Option ℚ) :
    Sized params (fixedFractionSize price params stopLossPct) := by
  rw [fixedFractionSize]
  split_ifs with hprice
  · exact sized_zero params .fixedFraction
  rw [not_le] at hprice
  generalize stopLossPct.getD params.defaultStopLossPct = slPct
  obtain ⟨quantity, hquantity, hnonneg, hzero⟩ : ∃ quantity,
      (if slPct ≤ 0 then .ok 0 else divide (params.capital * params.riskPct) (price * slPct)) =
        .ok quantity ∧ 0 ≤ quantity ∧ (slPct ≤ 0 → quantity = 0) := by
    rcases le_or_gt slPct 0 with hle | hpos
    · exact ⟨0, if_pos hle, le_rfl, fun _ => rfl⟩
    · have hloss : 0 < price * slPct := mul_pos hprice hpos
      refine ⟨params.capital * params.riskPct / (price * slPct), ?_, ?_, ?_⟩
      · rw [if_neg (not_le.mpr hpos), divide_of_ne hloss.ne']
      · exact div_nonneg (mul_pos params.capital_pos params.riskPct_pos).le hloss.le
      · exact fun hle => absurd hle (not_le.mpr hpos)
  dsimp only
  rw [hquantity, ok_bind]
  split_ifs with hover
  · rw [divide_of_ne hprice.ne', ok_bind]
    refine (sized_positionSizing_iff params _ _ _ _).mpr ⟨?_, ?_, ?_, ?_⟩
    · exact div_nonneg (cap_pos params).le hprice.le
    · apply min_risk_nonneg params (cap_pos params).le
      intro hle
      rw [hzero hle, zero_mul] at hover
      exact absurd hover (not_lt.mpr (cap_pos params).le)
    · rw [div_mul_cancel₀ _ hprice.ne']
      exact (cap_pos params).le
    · rw [div_mul_cancel₀ _ hprice.ne']
  · have hvalue : 0 ≤ quantity * price := mul_nonneg hnonneg hprice.le
    refine (sized_positionSizing_iff params _ _ _ _).mpr ⟨hnonneg, ?_, hvalue, not_lt.mp hover⟩
    apply min_risk_nonneg params hvalue
    intro hle
    rw [hzero hle, zero_mul]

/-! ### The Kelly criterion -/

section
variable {winRate avgWin avgLoss kellyFraction : ℚ}

/-- What the sizes of wins and the fraction have to be: with a negative fraction of the Kelly
position there must be none to take. -/
structure KellyDefined (winRate avgWin avgLoss kellyFraction : ℚ) : Prop where
  win_ne_zero : avgWin ≠ 0
  noEdge : kellyFraction < 0 → 0 < avgWin ∧ avgWin * winRate ≤ avgLoss * (1 - winRate)

/-- No Kelly position is to be taken of wins without an edge. Losses on average are an edge. -/
theorem fullKelly_nonpos_iff (hloss : 0 < avgLoss) (hrate : 0 < winRate) (hrate' : winRate < 1)
    (hwin : avgWin ≠ 0) :
    (avgWin / avgLoss * winRate - (1 - winRate)) / (avgWin / avgLoss) ≤ 0 ↔
      0 < avgWin ∧ avgWin * winRate ≤ avgLoss * (1 - winRate) := by
  have hkelly : (avgWin / avgLoss * winRate - (1 - winRate)) / (avgWin / avgLoss) =
      (avgWin * winRate - avgLoss * (1 - winRate)) / avgWin := by
    field_simp
  rw [hkelly]
  rcases hwin.lt_or_gt with hneg | hpos
  · have hedge : avgWin * winRate - avgLoss * (1 - winRate) < 0 := by
      have hfirst := mul_neg_of_neg_of_pos hneg hrate
      have hsecond := mul_pos hloss (sub_pos.mpr hrate')
      linarith
    exact iff_of_false (not_le.mpr (div_pos_of_neg_of_neg hedge hneg))
      fun h => absurd h.1 (not_lt.mpr hneg.le)
  · rw [div_le_iff₀ hpos, zero_mul, sub_nonpos]
    exact (and_iff_right hpos).symm

/-- The value of a Kelly position is cut off at the cap, which is positive. -/
theorem exists_capped (fraction : ℚ) : ∃ value,
    (if params.capital * params.maxPositionPct < params.capital * fraction then
      params.capital * params.maxPositionPct else params.capital * fraction) = value ∧
      (0 ≤ value ↔ 0 ≤ fraction) ∧ value ≤ params.capital * params.maxPositionPct := by
  refine ⟨_, rfl, ?_⟩
  split_ifs with hover
  · have hfraction : params.maxPositionPct < fraction :=
      lt_of_mul_lt_mul_left hover params.capital_pos.le
    refine ⟨iff_of_true (cap_pos params).le ?_, le_rfl⟩
    exact (params.maxPositionPct_pos.trans hfraction).le
  · exact ⟨mul_nonneg_iff_of_pos_left params.capital_pos, not_lt.mp hover⟩

theorem clamped_mul_nonneg_iff {full : ℚ} :
    0 ≤ max 0 (min full 1) * kellyFraction ↔ (kellyFraction < 0 → full ≤ 0) := by
  rcases le_or_gt full 0 with hle | hpos
  · rw [max_eq_left ((min_le_left full 1).trans hle), zero_mul]
    exact iff_of_true le_rfl fun _ => hle
  · have hclamped : 0 < max 0 (min full 1) := lt_max_of_lt_right (lt_min hpos one_pos)
    rw [mul_nonneg_iff_of_pos_left hclamped, ← not_lt]
    exact ⟨fun hnot hneg => absurd hneg hnot, fun h hneg => absurd (h hneg) (not_le.mpr hpos)⟩

theorem sized_kellyCriterionSize_iff (hprice : 0 < price) (hloss : 0 < avgLoss)
    (hrate : 0 < winRate) (hrate' : winRate < 1) :
    Sized params (kellyCriterionSize price winRate avgWin avgLoss params kellyFraction) ↔
      KellyDefined winRate avgWin avgLoss kellyFraction := by
  have hguard : ¬ (price ≤ 0 ∨ avgLoss ≤ 0 ∨ ¬ (0 < winRate ∧ winRate < 1)) := by
    rintro (hle | hle | hnot)
    · exact absurd hprice (not_lt.mpr hle)
    · exact absurd hloss (not_lt.mpr hle)
    · exact hnot ⟨hrate, hrate'⟩
  rw [kellyCriterionSize, if_neg hguard, divide_of_ne hloss.ne', ok_bind]
  by_cases hwin : avgWin = 0
  · -- the second division is by zero
    subst hwin
    refine iff_of_false ?_ fun h => h.win_ne_zero rfl
    rw [zero_div, divide, if_pos rfl]
    rintro ⟨sizing, hsizing, -⟩
    cases hsizing
  have hedge := fullKelly_nonpos_iff hloss hrate hrate' hwin
  rw [divide_of_ne (div_ne_zero hwin hloss.ne'), ok_bind]
  generalize (avgWin / avgLoss * winRate - (1 - winRate)) / (avgWin / avgLoss) = full at hedge ⊢
  dsimp only
  obtain ⟨value, hvalue, hsign, hcap⟩ :=
    exists_capped params (max 0 (min full 1) * kellyFraction)
  rw [hvalue, if_pos hprice, divide_of_ne hprice.ne', ok_bind, sized_positionSizing_iff,
    div_mul_cancel₀ _ hprice.ne']
  have hdefined : KellyDefined winRate avgWin avgLoss kellyFraction ↔ 0 ≤ value := by
    rw [hsign, clamped_mul_nonneg_iff, hedge]
    exact ⟨fun h => h.noEdge, fun h => ⟨hwin, h⟩⟩
  rw [hdefined]
  constructor
  · exact fun h => h.2.2.1
  · exact fun h => ⟨div_nonneg h hprice.le, mul_nonneg h params.defaultStopLossPct_pos.le, h, hcap⟩

end

end

/-- Both functions size a position between zero and the cap, exactly when the Kelly criterion is
defined wherever it is not guarded. -/
theorem sized_iff (params : RiskParams) (price : ℚ) (stopLossPct : Option ℚ)
    (winRate avgWin avgLoss kellyFraction : ℚ) :
    (Sized params (fixedFractionSize price params stopLossPct) ∧
      Sized params (kellyCriterionSize price winRate avgWin avgLoss params kellyFraction)) ↔
      (0 < price → 0 < avgLoss → 0 < winRate → winRate < 1 →
        KellyDefined winRate avgWin avgLoss kellyFraction) := by
  rw [and_iff_right (sized_fixedFractionSize params price stopLossPct)]
  by_cases hguard : price ≤ 0 ∨ avgLoss ≤ 0 ∨ ¬ (0 < winRate ∧ winRate < 1)
  · refine iff_of_true ?_ fun hprice hloss hrate hrate' => ?_
    · rw [kellyCriterionSize, if_pos hguard]
      exact sized_zero params .kelly
    · rcases hguard with hle | hle | hnot
      · exact absurd hprice (not_lt.mpr hle)
      · exact absurd hloss (not_lt.mpr hle)
      · exact absurd ⟨hrate, hrate'⟩ hnot
  · rw [not_or, not_or, not_le, not_le, not_not] at hguard
    obtain ⟨hprice, hloss, hrate, hrate'⟩ := hguard
    rw [sized_kellyCriterionSize_iff params hprice hloss hrate hrate']
    exact ⟨fun h _ _ _ _ => h, fun h => h hprice hloss hrate hrate'⟩

/-- Half of the trades win nothing on average: the Kelly criterion divides by zero. -/
theorem not_sized_winless : ¬ ∀ (params : RiskParams) (price : ℚ) (stopLossPct : Option ℚ)
    (winRate avgWin avgLoss kellyFraction : ℚ),
    Sized params (fixedFractionSize price params stopLossPct) ∧
      Sized params (kellyCriterionSize price winRate avgWin avgLoss params kellyFraction) := by
  intro hsized
  let params : RiskParams :=
    { capital := 1000
      riskPct := 1 / 50
      maxPositionPct := 1 / 10
      defaultStopLossPct := 1 / 20
      capital_pos := by norm_num
      riskPct_pos := by norm_num
      riskPct_le_one := by norm_num
      maxPositionPct_pos := by norm_num
      maxPositionPct_le_one := by norm_num
      defaultStopLossPct_pos := by norm_num
      defaultStopLossPct_le_one := by norm_num }
  have hkelly : kellyCriterionSize 1 (1 / 2) 0 1 params (1 / 4) = .error .zeroDivision := by
    have hguard : ¬ ((1 : ℚ) ≤ 0 ∨ (1 : ℚ) ≤ 0 ∨ ¬ ((0 : ℚ) < 1 / 2 ∧ (1 / 2 : ℚ) < 1)) := by
      norm_num
    rw [kellyCriterionSize, if_neg hguard, divide_of_ne one_ne_zero, ok_bind, zero_div, divide,
      if_pos rfl]
    rfl
  obtain ⟨sizing, hsizing, -⟩ := (hsized params 1 none (1 / 2) 0 1 (1 / 4)).2
  rw [hkelly] at hsizing
  cases hsizing

end TradeStream.PositionSizing
