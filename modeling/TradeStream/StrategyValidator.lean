import TradeStream.BacktestScore
import TradeStream.RoundDecimal
import TradeStream.WalkForwardWindows

/-! The walk-forward runner's means over its windows, and the validator's decision on them:
which losses from the training data to the test data it rejects. -/
namespace TradeStream.StrategyValidator
open TradeStream.BacktestRunner TradeStream.RoundDecimal TradeStream.WalkForward
open TradeStream.WhileLoop (runLoop_of_le)
open scoped List

variable {α : Type*} [Field α] [LinearOrder α]

structure WindowResult (α : Type*) where
  windowIndex : ℕ
  inSampleResult : BacktestResult α
  outOfSampleResult : BacktestResult α
  bars : Window Int32

inductive ValidationStatus where
  | approved
  | rejected
  | insufficientData
  | pending
  deriving DecidableEq, Repr

structure WalkForwardResult (α : Type*) where
  status : ValidationStatus
  rejectionReason : String
  windowsCount : ℤ
  inSampleSharpe : α
  outOfSampleSharpe : α
  sharpeDegradation : α
  oosSharpeStdDev : α
  inSampleReturn : α
  outOfSampleReturn : α
  returnDegradation : α
  windowResults : List (WindowResult α)

/-- A result with nothing but its reason. -/
def insufficientData (rejectionReason : String) : WalkForwardResult α :=
  ⟨.insufficientData, rejectionReason, 0, 0, 0, 0, 0, 0, 0, 0, []⟩

/-- The share of the mean in sample that is lost out of sample. -/
def degradation (meanInSample meanOutOfSample : α) : α :=
  if meanInSample ≠ 0 then 1 - meanOutOfSample / meanInSample else 0

def inSampleSharpes (windowResults : List (WindowResult α)) : List α :=
  windowResults.map fun w => w.inSampleResult.sharpeRatio

def outOfSampleSharpes (windowResults : List (WindowResult α)) : List α :=
  windowResults.map fun w => w.outOfSampleResult.sharpeRatio

def inSampleReturns (windowResults : List (WindowResult α)) : List α :=
  windowResults.map fun w => w.inSampleResult.cumulativeReturn

def outOfSampleReturns (windowResults : List (WindowResult α)) : List α :=
  windowResults.map fun w => w.outOfSampleResult.cumulativeReturn

/-- The root of the mean square distance from the mean. -/
def stdDev (sqrt : α → α) (values : List α) : α :=
  sqrt (average (values.map fun x => (x - average values) ^ 2))

def aggregateResults (sqrt : α → α) (windowResults : List (WindowResult α)) :
    WalkForwardResult α :=
  if windowResults.isEmpty then insufficientData "No window results to aggregate"
  else
    let meanInSampleSharpe := average (inSampleSharpes windowResults)
    let meanOutOfSampleSharpe := average (outOfSampleSharpes windowResults)
    let meanInSampleReturn := average (inSampleReturns windowResults)
    let meanOutOfSampleReturn := average (outOfSampleReturns windowResults)
    { status := .pending
      rejectionReason := ""
      windowsCount := windowResults.length
      inSampleSharpe := meanInSampleSharpe
      outOfSampleSharpe := meanOutOfSampleSharpe
      sharpeDegradation := degradation meanInSampleSharpe meanOutOfSampleSharpe
      oosSharpeStdDev := stdDev sqrt (outOfSampleSharpes windowResults)
      inSampleReturn := meanInSampleReturn
      outOfSampleReturn := meanOutOfSampleReturn
      returnDegradation := degradation meanInSampleReturn meanOutOfSampleReturn
      windowResults }

/-- A backtest of each part of each window. -/
def runWindows {γ : Type} (runBacktest : List γ → BacktestResult α)
    (splits : List (TrainTestSplit γ)) : List (WindowResult α) :=
  splits.mapIdx fun windowIndex split =>
    ⟨windowIndex, runBacktest split.trainCandles, runBacktest split.testCandles, split.bars⟩

/-- `runWalkForwardValidation`, for as many rounds of each loop as `fuel` allows. -/
def runWalkForwardValidation {γ : Type} (fuel : ℕ) (sqrt : α → α)
    (runBacktest : List γ → BacktestResult α) (candles : JavaList γ)
    (config : WalkForwardConfig Int32) :
    Option (Except SubListException (WalkForwardResult α)) :=
  (validateConfig fuel candles config).bind fun (isValid, errorMessage) =>
    if !isValid then
      some (.ok (insufficientData (errorMessage.getD "Invalid configuration")))
    else
      (createSplits fuel candles config).map fun result =>
        result.map fun splits =>
          if (splits.length : ℤ) < config.minWindows.toInt then
            insufficientData
              s!"Insufficient windows: got {splits.length}, need {config.minWindows}"
          else aggregateResults sqrt (runWindows runBacktest splits)

section
variable {γ : Type} {candles : JavaList γ} {config : WalkForwardConfig Int32}

theorem validateConfig_of_le {fuel fuel' : ℕ} {result : Bool × Option String}
    (h : validateConfig fuel candles config = some result) (hle : fuel ≤ fuel') :
    validateConfig fuel' candles config = some result := by
  simp only [validateConfig] at h ⊢
  split_ifs at h ⊢
  · exact h
  · exact h
  · exact h
  · exact h
  · exact h
  · obtain ⟨windowCount, hcount, hresult⟩ := Option.map_eq_some_iff.mp h
    rw [runLoop_of_le hcount hle, Option.map_some, hresult]

theorem createSplits_of_le {fuel fuel' : ℕ}
    {result : Except SubListException (List (TrainTestSplit γ))}
    (h : createSplits fuel candles config = some result) (hle : fuel ≤ fuel') :
    createSplits fuel' candles config = some result := by
  simp only [createSplits] at h ⊢
  split_ifs at h ⊢
  · exact h
  · exact runLoop_of_le h hle

/-- Splits that are all the windows pass the runner's own check. -/
theorem runWalkForwardValidation_of_allWindows (sqrt : α → α)
    (runBacktest : List γ → BacktestResult α)
    (hvalid : ∃ fuel, validateConfig fuel candles config = some (true, none))
    {splits : List (TrainTestSplit γ)}
    (hsplits : ∃ fuel, createSplits fuel candles config = some (.ok splits))
    (hwindows : AllWindows candles config splits) :
    ∃ fuel, runWalkForwardValidation fuel sqrt runBacktest candles config =
      some (.ok (aggregateResults sqrt (runWindows runBacktest splits))) := by
  obtain ⟨fuel, hvalid⟩ := hvalid
  obtain ⟨fuel', hsplits⟩ := hsplits
  have hvalid' := validateConfig_of_le hvalid (Nat.le_max_left fuel fuel')
  have hsplits' := createSplits_of_le hsplits (Nat.le_max_right fuel fuel')
  refine ⟨max fuel fuel', ?_⟩
  simp only [runWalkForwardValidation, hvalid', hsplits', Option.bind_some, Option.map_some,
    Bool.not_true, Bool.false_eq_true, if_false, Except.map, if_neg hwindows.minWindows.not_gt]

end

/-! ### The validator -/

structure ValidationConfig (α : Type*) where
  minOosSharpe : α
  maxSharpeDegradation : α
  maxOosSharpeStdDev : α
  minWindows : ℤ

/-- The thresholds by default. -/
def ValidationConfig.default : ValidationConfig α := ⟨1 / 2, 1 / 2, 1 / 2, 3⟩

inductive Reason (α : Type*) where
  | insufficientWindows (windowsCount minWindows : ℤ)
  | oosSharpeTooLow (outOfSampleSharpe minOosSharpe : α)
  | sharpeDegradationTooHigh (sharpeDegradation maxSharpeDegradation : α)
  | oosSharpeInconsistent (oosSharpeStdDev maxOosSharpeStdDev : α)
  deriving DecidableEq, Repr

def rejectionReasons (config : ValidationConfig α) (result : WalkForwardResult α) :
    List (Reason α) :=
  (if result.windowsCount < config.minWindows then
    [Reason.insufficientWindows result.windowsCount config.minWindows] else []) ++
  (if result.outOfSampleSharpe < config.minOosSharpe then
    [Reason.oosSharpeTooLow result.outOfSampleSharpe config.minOosSharpe] else []) ++
  (if result.sharpeDegradation > config.maxSharpeDegradation then
    [Reason.sharpeDegradationTooHigh result.sharpeDegradation config.maxSharpeDegradation]
    else []) ++
  (if result.oosSharpeStdDev > config.maxOosSharpeStdDev then
    [Reason.oosSharpeInconsistent result.oosSharpeStdDev config.maxOosSharpeStdDev] else [])

section
variable [FloorRing α]

/-- `%.nf` of `String.format`, which rounds a half away from zero. -/
def decimalText (digits : ℕ) (x : α) : String := fixedText roundHalfAway digits x

def Reason.text : Reason α → String
  | .insufficientWindows windowsCount minWindows =>
    "Insufficient windows: " ++ toString windowsCount ++ " < " ++ toString minWindows
  | .oosSharpeTooLow outOfSampleSharpe minOosSharpe =>
    "OOS Sharpe too low: " ++ decimalText 4 outOfSampleSharpe ++ " < " ++
      decimalText 4 minOosSharpe
  | .sharpeDegradationTooHigh sharpeDegradation maxSharpeDegradation =>
    "Sharpe degradation too high: " ++ decimalText 1 (sharpeDegradation * 100) ++ "% > " ++
      decimalText 1 (maxSharpeDegradation * 100) ++ "%"
  | .oosSharpeInconsistent oosSharpeStdDev maxOosSharpeStdDev =>
    "OOS Sharpe inconsistent: std_dev=" ++ decimalText 4 oosSharpeStdDev ++ " > " ++
      decimalText 4 maxOosSharpeStdDev

structure ValidationDecision where
  status : ValidationStatus
  reasons : List String
  deriving DecidableEq, Repr

def validate (config : ValidationConfig α) (result : WalkForwardResult α) :
    ValidationDecision :=
  let reasons := rejectionReasons config result
  ⟨if reasons.isEmpty then .approved else .rejected, reasons.map Reason.text⟩

def applyValidation (config : ValidationConfig α) (result : WalkForwardResult α) :
    WalkForwardResult α :=
  let decision := validate config result
  { result with
    status := decision.status
    rejectionReason := "; ".intercalate decision.reasons }

/-- The validator rejects the result, and degradation is among its reasons. -/
def RejectedForDegradation (config : ValidationConfig α) (result : WalkForwardResult α) : Prop :=
  (validate config result).status = .rejected ∧
    ∃ reason ∈ (validate config result).reasons,
      "Sharpe degradation too high: ".toList <+: reason.toList

end

/-! ### `_evaluate` of the Python optimizer -/

/-- The lost share of a mean that is not taken for zero. -/
def degradationAbove (tolerance avgIs avgOos : α) : α :=
  if |avgIs| > tolerance then 1 - avgOos / avgIs else 0

def evaluateReason [FloorRing α] (avgOosSharpe sharpeDegradation oosSharpeStd : α) :
    Option String :=
  if avgOosSharpe < -1 / 2 then
    some ("Average OOS Sharpe (" ++ fixedText roundHalfEven 3 avgOosSharpe ++
      ") below minimum (-0.5)")
  else if sharpeDegradation > 1 / 2 then
    some ("Sharpe degradation (" ++ fixedText roundHalfEven 1 (sharpeDegradation * 100) ++
      "%) exceeds threshold (50%), likely overfit")
  else if oosSharpeStd > 3 / 2 then
    some ("OOS Sharpe std dev (" ++ fixedText roundHalfEven 3 oosSharpeStd ++
      ") exceeds threshold (1.5), inconsistent performance")
  else none

def evaluate [FloorRing α] (sqrt : α → α) (windowResults : List (WindowResult α)) :
    WalkForwardResult α :=
  let avgIsSharpe := average (inSampleSharpes windowResults)
  let avgOosSharpe := average (outOfSampleSharpes windowResults)
  let oosSharpeStd := stdDev sqrt (outOfSampleSharpes windowResults)
  let avgIsReturn := average (inSampleReturns windowResults)
  let avgOosReturn := average (outOfSampleReturns windowResults)
  let sharpeDegradation := degradationAbove (1 / 10 ^ 9) avgIsSharpe avgOosSharpe
  let rejectionReason := evaluateReason avgOosSharpe sharpeDegradation oosSharpeStd
  { status := if rejectionReason.isNone then .approved else .rejected
    rejectionReason := rejectionReason.getD ""
    windowsCount := windowResults.length
    inSampleSharpe := avgIsSharpe
    outOfSampleSharpe := avgOosSharpe
    sharpeDegradation
    oosSharpeStdDev := oosSharpeStd
    inSampleReturn := avgIsReturn
    outOfSampleReturn := avgOosReturn
    returnDegradation := degradationAbove (1 / 10 ^ 9) avgIsReturn avgOosReturn
    windowResults }

/-! ### The quotient of two means -/

section
variable [IsStrictOrderedRing α]

theorem lt_one_sub_div_iff_of_pos {inSample : α} (h : 0 < inSample) (outOfSample d : α) :
    d < 1 - outOfSample / inSample ↔ outOfSample < inSample - d * inSample := by
  have hdiv : 1 - outOfSample / inSample = (inSample - outOfSample) / inSample := by
    rw [sub_div, div_self h.ne']
  rw [hdiv, lt_div_iff₀ h]
  exact lt_sub_comm

/-- Below zero the quotient grows with the mean out of sample. -/
theorem lt_one_sub_div_iff_of_neg {inSample : α} (h : inSample < 0) (outOfSample d : α) :
    d < 1 - outOfSample / inSample ↔ inSample - d * inSample < outOfSample := by
  have hdiv : 1 - outOfSample / inSample = (inSample - outOfSample) / inSample := by
    rw [sub_div, div_self h.ne]
  rw [hdiv, lt_div_iff_of_neg h]
  exact sub_lt_comm

theorem degradation_eq_degradationAbove (inSample outOfSample : α) :
    degradation inSample outOfSample = degradationAbove 0 inSample outOfSample := by
  simp only [degradation, degradationAbove, gt_iff_lt, abs_pos]

/-- A loss beyond the share `d` of the mean in sample. -/
def WorseBy (d inSample outOfSample : α) : Prop := outOfSample < inSample - d * |inSample|

theorem lt_degradation_iff_worseBy_iff {d : α} (hd : 0 ≤ d) (inSample outOfSample : α) :
    (d < degradation inSample outOfSample ↔ WorseBy d inSample outOfSample) ↔
      0 < inSample ∨ inSample = 0 ∧ 0 ≤ outOfSample ∨
        inSample < 0 ∧ |outOfSample - inSample| ≤ d * |inSample| := by
  rcases lt_trichotomy inSample 0 with hneg | rfl | hpos
  · -- dividing by a negative mean turns the comparison round
    rw [degradation, if_pos hneg.ne, lt_one_sub_div_iff_of_neg hneg, WorseBy, abs_of_neg hneg,
      or_iff_right hneg.not_gt, or_iff_right (fun h => hneg.ne h.1), and_iff_right hneg, abs_le]
    have hshare : 0 ≤ d * -inSample := mul_nonneg hd (neg_nonneg.mpr hneg.le)
    constructor
    · -- a mean that is rejected is better, so none is
      intro hiff
      constructor
      · by_contra hlt
        have hworse : outOfSample < inSample - d * -inSample := by linarith only [hlt]
        have hbetter := hiff.mpr hworse
        linarith only [hworse, hbetter, hshare]
      · by_contra hlt
        have hbetter : inSample - d * inSample < outOfSample := by linarith only [hlt]
        have hworse := hiff.mp hbetter
        linarith only [hworse, hbetter, hshare]
    · rintro ⟨hlow, hhigh⟩
      apply iff_of_false <;> linarith only [hlow, hhigh]
  · -- a mean of zero is never degraded
    have hzero : ¬ d < degradation 0 outOfSample := by
      rw [degradation, if_neg (not_not.mpr rfl)]
      exact hd.not_gt
    rw [iff_false_left hzero, WorseBy, abs_zero, mul_zero, sub_zero, not_lt]
    simp only [lt_irrefl, false_and, or_false, true_and, false_or]
  · rw [degradation, if_pos hpos.ne', lt_one_sub_div_iff_of_pos hpos, WorseBy, abs_of_pos hpos]
    exact iff_of_true Iff.rfl (Or.inl hpos)

end

/-! ### The texts of the reasons -/

section
variable [FloorRing α]

/-- The reasons' texts begin with different letters. -/
def Reason.initial : Reason α → Char
  | .insufficientWindows _ _ => 'I'
  | .sharpeDegradationTooHigh _ _ => 'S'
  | .oosSharpeTooLow _ _ | .oosSharpeInconsistent _ _ => 'O'

omit [FloorRing α] in
theorem head?_append {c : Char} {heading : String} (h : heading.toList.head? = some c)
    (rest : String) : (heading ++ rest).toList.head? = some c := by
  have hne : heading.toList ≠ [] := by
    intro hnil
    rw [hnil] at h
    cases h
  rw [String.toList_append, List.head?_append_of_ne_nil _ hne]
  exact h

omit [FloorRing α] in
theorem not_prefix_of_head?_ne {p l : List Char} {c c' : Char} (hp : p.head? = some c)
    (hl : l.head? = some c') (hne : c ≠ c') : ¬ p <+: l := by
  rintro ⟨rest, rfl⟩
  rw [List.head?_append, hp, Option.some_or, Option.some.injEq] at hl
  exact hne hl

theorem Reason.head?_text (reason : Reason α) :
    reason.text.toList.head? = some reason.initial := by
  cases reason with
  | insufficientWindows windowsCount minWindows =>
    exact head?_append (head?_append (head?_append rfl _) _) _
  | oosSharpeTooLow outOfSampleSharpe minOosSharpe =>
    exact head?_append (head?_append (head?_append rfl _) _) _
  | sharpeDegradationTooHigh sharpeDegradation maxSharpeDegradation =>
    exact head?_append (head?_append (head?_append (head?_append rfl _) _) _) _
  | oosSharpeInconsistent oosSharpeStdDev maxOosSharpeStdDev =>
    exact head?_append (head?_append (head?_append rfl _) _) _

theorem Reason.degradation_prefix_text_iff (reason : Reason α) :
    "Sharpe degradation too high: ".toList <+: reason.text.toList ↔
      ∃ sharpeDegradation maxSharpeDegradation,
        reason = .sharpeDegradationTooHigh sharpeDegradation maxSharpeDegradation := by
  constructor
  · intro hprefix
    have hother (hne : 'S' ≠ reason.initial) : False :=
      not_prefix_of_head?_ne rfl reason.head?_text hne hprefix
    cases reason with
    | sharpeDegradationTooHigh sharpeDegradation maxSharpeDegradation => exact ⟨_, _, rfl⟩
    | insufficientWindows windowsCount minWindows => exact (hother (by simp [initial])).elim
    | oosSharpeTooLow outOfSampleSharpe minOosSharpe => exact (hother (by simp [initial])).elim
    | oosSharpeInconsistent oosSharpeStdDev maxOosSharpeStdDev =>
      exact (hother (by simp [initial])).elim
  · rintro ⟨sharpeDegradation, maxSharpeDegradation, rfl⟩
    have htext : (Reason.sharpeDegradationTooHigh sharpeDegradation maxSharpeDegradation).text =
        "Sharpe degradation too high: " ++ decimalText 1 (sharpeDegradation * 100) ++ "% > " ++
          decimalText 1 (maxSharpeDegradation * 100) ++ "%" := rfl
    rw [htext, String.append_assoc, String.append_assoc, String.append_assoc,
      String.toList_append]
    exact List.prefix_append _ _

omit [Field α] [FloorRing α] in
theorem sharpeDegradationTooHigh_mem_iff (config : ValidationConfig α)
    (result : WalkForwardResult α) :
    (∃ sharpeDegradation maxSharpeDegradation,
      .sharpeDegradationTooHigh sharpeDegradation maxSharpeDegradation ∈
        rejectionReasons config result) ↔
      config.maxSharpeDegradation < result.sharpeDegradation := by
  constructor
  · rintro ⟨sharpeDegradation, maxSharpeDegradation, hmem⟩
    simp only [rejectionReasons, List.mem_append] at hmem
    rcases hmem with ((hmem | hmem) | hmem) | hmem
    · split_ifs at hmem <;> simp at hmem
    · split_ifs at hmem <;> simp at hmem
    · split_ifs at hmem with hgt
      · exact hgt
      · simp at hmem
    · split_ifs at hmem <;> simp at hmem
  · intro hgt
    refine ⟨result.sharpeDegradation, config.maxSharpeDegradation, ?_⟩
    simp only [rejectionReasons, gt_iff_lt, if_pos hgt, List.mem_append, List.mem_singleton,
      or_true, true_or]

/-- A result is rejected just when it says why. -/
theorem applyValidation_rejected_iff (config : ValidationConfig α) (result : WalkForwardResult α) :
    (applyValidation config result).status = .rejected ↔
      (applyValidation config result).rejectionReason ≠ "" := by
  cases hreasons : rejectionReasons config result with
  | nil =>
    refine iff_of_false ?_ ?_
    · simp [applyValidation, validate, hreasons]
    · simp [applyValidation, validate, hreasons, String.intercalate]
  | cons reason rest =>
    refine iff_of_true ?_ ?_
    · simp [applyValidation, validate, hreasons]
    · have hhead : (applyValidation config result).rejectionReason.toList.head? =
          some reason.initial := by
        simp only [applyValidation, validate, hreasons, String.toList_intercalate, List.map_cons]
        cases rest with
        | nil =>
          rw [List.map_nil, List.map_nil, List.intercalate_singleton]
          exact reason.head?_text
        | cons next rest =>
          rw [List.map_cons, List.map_cons, List.intercalate_cons_cons, List.head?_append,
            List.head?_append, reason.head?_text]
          rfl
      intro hempty
      rw [hempty] at hhead
      cases hhead

theorem rejectedForDegradation_iff (config : ValidationConfig α) (result : WalkForwardResult α) :
    RejectedForDegradation config result ↔
      config.maxSharpeDegradation < result.sharpeDegradation := by
  rw [← sharpeDegradationTooHigh_mem_iff]
  constructor
  · rintro ⟨-, text, htext, hprefix⟩
    obtain ⟨reason, hreason, rfl⟩ := List.mem_map.mp htext
    obtain ⟨sharpeDegradation, maxSharpeDegradation, rfl⟩ :=
      reason.degradation_prefix_text_iff.mp hprefix
    exact ⟨_, _, hreason⟩
  · rintro ⟨sharpeDegradation, maxSharpeDegradation, hmem⟩
    refine ⟨?_, _, List.mem_map.mpr ⟨_, hmem, rfl⟩, ?_⟩
    · have hne : (rejectionReasons config result).isEmpty = false := by
        rw [List.isEmpty_eq_false_iff]
        exact List.ne_nil_of_mem hmem
      simp only [validate, hne, Bool.false_eq_true, if_false]
    · exact (Reason.degradation_prefix_text_iff _).mpr ⟨_, _, rfl⟩

/-! ### The gate -/

/-- The mean Sharpe ratios of the windows. -/
def meanInSample (windowResults : List (WindowResult α)) : α :=
  average (inSampleSharpes windowResults)

def meanOutOfSample (windowResults : List (WindowResult α)) : α :=
  average (outOfSampleSharpes windowResults)

/-- The validator rejects for degradation the results that are worse out of sample than in
sample by more than the allowed share, and no others. -/
def GatesDegradation (sqrt : α → α) (config : ValidationConfig α)
    (windowResults : List (WindowResult α)) : Prop :=
  RejectedForDegradation config (aggregateResults sqrt windowResults) ↔
    WorseBy config.maxSharpeDegradation (meanInSample windowResults)
      (meanOutOfSample windowResults)

omit [FloorRing α] in
theorem sharpeDegradation_aggregateResults (sqrt : α → α)
    {windowResults : List (WindowResult α)} (h : windowResults ≠ []) :
    (aggregateResults sqrt windowResults).sharpeDegradation =
      degradation (meanInSample windowResults) (meanOutOfSample windowResults) := by
  have hne : windowResults.isEmpty = false := List.isEmpty_eq_false_iff.mpr h
  simp only [aggregateResults, hne, Bool.false_eq_true, if_false]
  rfl

/-- The gate is right about every mean above zero; at zero about those that are not worse;
and below zero, where it rejects what is better, about those within the allowed share. -/
theorem gatesDegradation_iff [IsStrictOrderedRing α] (sqrt : α → α) (config : ValidationConfig α)
    (windowResults : List (WindowResult α)) (h : windowResults ≠ [])
    (hmax : 0 ≤ config.maxSharpeDegradation) :
    GatesDegradation sqrt config windowResults ↔
      0 < meanInSample windowResults ∨
        meanInSample windowResults = 0 ∧ 0 ≤ meanOutOfSample windowResults ∨
        meanInSample windowResults < 0 ∧
          |meanOutOfSample windowResults - meanInSample windowResults| ≤
            config.maxSharpeDegradation * |meanInSample windowResults| := by
  rw [GatesDegradation, rejectedForDegradation_iff, sharpeDegradation_aggregateResults sqrt h]
  exact lt_degradation_iff_worseBy_iff hmax _ _

/-- A backtest with nothing but a Sharpe ratio. -/
def sharpeResult (sharpeRatio : α) : BacktestResult α :=
  ⟨0, 0, sharpeRatio, 0, 0, 0, 0, 0, 0, 0, 0, 0, 0⟩

/-- Three windows with the same ratios. -/
def threeWindows (inSample outOfSample : α) : List (WindowResult α) :=
  (List.range 3).map fun k =>
    ⟨k, sharpeResult inSample, sharpeResult outOfSample, ⟨0, 2, 2, 3⟩⟩

/-- The root of a fraction of squares. -/
def squareRoot (x : ℚ) : ℚ := (Nat.sqrt x.num.toNat : ℚ) / Nat.sqrt x.den

theorem threeWindows_gatesDegradation_iff :
    GatesDegradation squareRoot .default (threeWindows 2 1) ↔
      0 < meanInSample (threeWindows (2 : ℚ) 1) ∨
        meanInSample (threeWindows (2 : ℚ) 1) = 0 ∧ 0 ≤ meanOutOfSample (threeWindows (2 : ℚ) 1) ∨
        meanInSample (threeWindows (2 : ℚ) 1) < 0 ∧
          |meanOutOfSample (threeWindows (2 : ℚ) 1) - meanInSample (threeWindows (2 : ℚ) 1)| ≤
            ValidationConfig.default.maxSharpeDegradation *
              |meanInSample (threeWindows (2 : ℚ) 1)| :=
  gatesDegradation_iff _ .default (threeWindows 2 1) (by simp [threeWindows])
    (by simp [ValidationConfig.default])

/-- A strategy that loses in sample and gains out of sample is rejected, for degradation
alone. -/
theorem lossThenGain_not_gatesDegradation :
    (validate .default (aggregateResults squareRoot (threeWindows (-1) 1)) =
      ⟨.rejected, ["Sharpe degradation too high: 200.0% > 50.0%"]⟩) ∧
      ¬ WorseBy (ValidationConfig.default : ValidationConfig ℚ).maxSharpeDegradation
        (meanInSample (threeWindows (-1) 1)) (meanOutOfSample (threeWindows (-1) 1)) ∧
      ¬ GatesDegradation squareRoot .default (threeWindows (-1) 1) := by
  have hnotWorse : ¬ WorseBy (ValidationConfig.default : ValidationConfig ℚ).maxSharpeDegradation
      (meanInSample (threeWindows (-1) 1)) (meanOutOfSample (threeWindows (-1) 1)) := by
    unfold WorseBy
    decide +kernel
  refine ⟨by decide +kernel, hnotWorse, ?_⟩
  intro hgate
  have hiff : _ ↔ _ := hgate
  apply hnotWorse
  rw [← hiff, rejectedForDegradation_iff]
  decide +kernel

/-! ### The gate of the Python optimizer -/

theorem half_lt_degradationAbove_iff [IsStrictOrderedRing α] {tolerance : α}
    (h : 0 ≤ tolerance) (avgIs avgOos : α) :
    1 / 2 < degradationAbove tolerance avgIs avgOos ↔
      tolerance < avgIs ∧ avgOos < avgIs / 2 ∨ avgIs < -tolerance ∧ avgIs / 2 < avgOos := by
  have hhalf : avgIs - 1 / 2 * avgIs = avgIs / 2 := by ring
  by_cases hpos : tolerance < avgIs
  · have hgt : |avgIs| > tolerance := lt_abs.mpr (Or.inl hpos)
    have hnotNeg : ¬ avgIs < -tolerance := by linarith
    rw [degradationAbove, if_pos hgt, lt_one_sub_div_iff_of_pos (h.trans_lt hpos), hhalf,
      and_iff_right hpos, or_iff_left (fun h => hnotNeg h.1)]
  by_cases hneg : avgIs < -tolerance
  · have hgt : |avgIs| > tolerance := lt_abs.mpr (Or.inr (lt_neg.mp hneg))
    rw [degradationAbove, if_pos hgt, lt_one_sub_div_iff_of_neg (by linarith), hhalf,
      and_iff_right hneg, or_iff_right (fun h => hpos h.1)]
  · -- taken for zero
    have hle : ¬ |avgIs| > tolerance := by
      rw [gt_iff_lt, not_lt, abs_le]
      exact ⟨not_lt.mp hneg, not_lt.mp hpos⟩
    rw [degradationAbove, if_neg hle]
    apply iff_of_false
    · norm_num
    · rintro (⟨hlt, -⟩ | ⟨hlt, -⟩)
      · exact hpos hlt
      · exact hneg hlt

theorem degradation_prefix_evaluateReason_iff (avgOosSharpe sharpeDegradation oosSharpeStd : α) :
    "Sharpe degradation (".toList <+:
        ((evaluateReason avgOosSharpe sharpeDegradation oosSharpeStd).getD "").toList ↔
      -1 / 2 ≤ avgOosSharpe ∧ 1 / 2 < sharpeDegradation := by
  rw [evaluateReason]
  -- only the first check that fails gives a reason
  split_ifs with hlow hdegraded hinconsistent
  · refine iff_of_false ?_ (fun h => hlow.not_ge h.1)
    rw [Option.getD_some]
    exact not_prefix_of_head?_ne rfl (head?_append (head?_append rfl _) _) (by decide : 'S' ≠ 'A')
  · refine iff_of_true ?_ ⟨not_lt.mp hlow, hdegraded⟩
    rw [Option.getD_some, String.append_assoc, String.toList_append]
    exact List.prefix_append _ _
  · refine iff_of_false ?_ (fun h => hdegraded h.2)
    rw [Option.getD_some]
    exact not_prefix_of_head?_ne rfl (head?_append (head?_append rfl _) _) (by decide : 'S' ≠ 'O')
  · refine iff_of_false ?_ (fun h => hdegraded h.2)
    simp

/-- Among the means that are not below its minimum Python rejects those short of half a gain
in sample, and those above half a loss. -/
theorem evaluate_degradation_iff [IsStrictOrderedRing α] (sqrt : α → α)
    (windowResults : List (WindowResult α)) :
    "Sharpe degradation (".toList <+: (evaluate sqrt windowResults).rejectionReason.toList ↔
      -1 / 2 ≤ meanOutOfSample windowResults ∧
        (1 / 10 ^ 9 < meanInSample windowResults ∧
            meanOutOfSample windowResults < meanInSample windowResults / 2 ∨
          meanInSample windowResults < -(1 / 10 ^ 9) ∧
            meanInSample windowResults / 2 < meanOutOfSample windowResults) := by
  have htolerance : (0 : α) ≤ 1 / 10 ^ 9 := by positivity
  rw [← half_lt_degradationAbove_iff htolerance]
  exact degradation_prefix_evaluateReason_iff _ _ _

end

end TradeStream.StrategyValidator
