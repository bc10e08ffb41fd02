import TradeStream.WeightedMean
import TradeStream.RoundDecimal

/-! The consensus of the signals for a symbol: each has a score, a weighted mean of its quality in
its direction, and the scores are averaged with their decay. -/
namespace TradeStream.SignalAggregation
open TradeStream.WeightedMean TradeStream.RoundDecimal

variable {K : Type*} [Field K] [LinearOrder K]

/-- A row of the table. A time is in microseconds, and one without a zone is of UTC. -/
structure Signal (K : Type*) where
  specId : String
  signalType : Option String
  strength : Option K
  createdAt : Option ℤ

/-- The weights that the user sets. -/
structure UserWeights (K : Type*) where
  recency : Option K := none
  performance : Option K := none
  confidence : Option K := none

structure Weights (K : Type*) where
  recency : K
  performance : K
  confidence : K

inductive Direction where
  | bullish
  | bearish
  | neutral
  deriving DecidableEq

structure Consensus (K : Type*) where
  direction : Direction
  score : K
  signalCount : ℕ
  confidence : K

def defaultDecayHalfLifeHours : K := (24 : ℕ)

/-- `SIGNAL_DIRECTION.get(signal_type, 0.0)`. -/
def signalDirection : String → K
  | "BUY" => 1
  | "SELL" => -1
  | "HOLD" => 0
  | "CLOSE_LONG" => -0.5
  | "CLOSE_SHORT" => 0.5
  | _ => 0

def Signal.direction (signal : Signal K) : K := signalDirection (signal.signalType.getD "HOLD")

/-- `float(signal.get("strength") or 0.5)`. -/
def Signal.confidence (signal : Signal K) : K :=
  match signal.strength with
  | some strength => if strength = 0 then 0.5 else strength
  | none => 0.5

/-- `(now - created_at).total_seconds() / 3600`, and nothing for a signal without a time. -/
def Signal.ageHours (now : ℤ) (signal : Signal K) : K :=
  match signal.createdAt with
  | some createdAt => ((now - createdAt : ℤ) : K) / (1000000 : ℤ) / (3600 : ℤ)
  | none => 0

/-- `user_weights or {}`, with a default for each weight that is not there. -/
def chosenWeights (userWeights : Option (UserWeights K)) : Weights K :=
  let weights := userWeights.getD {}
  { recency := weights.recency.getD 0.3
    performance := weights.performance.getD 0.4
    confidence := weights.confidence.getD 0.3 }

def Weights.total (weights : Weights K) : K :=
  weights.recency + weights.performance + weights.confidence

def Weights.normalized (weights : Weights K) : Weights K :=
  if 0 < weights.total then
    { recency := weights.recency / weights.total
      performance := weights.performance / weights.total
      confidence := weights.confidence / weights.total }
  else weights

section
variable (pow : K → K → K)

def computeDecayFactor (signalAgeHours halfLifeHours : K) : K :=
  if halfLifeHours ≤ 0 then 1 else pow 0.5 (signalAgeHours / halfLifeHours)

variable (now : ℤ) (strategyPerformances : String → Option K) (userWeights : Option (UserWeights K))
  (halfLifeHours : K)

def Signal.decay (signal : Signal K) : K :=
  computeDecayFactor pow (signal.ageHours now) halfLifeHours

/-- `strategy_performances.get(spec_id, 0.5)`. -/
def Signal.performance (signal : Signal K) : K :=
  (strategyPerformances signal.specId).getD 0.5

def computeSignalScore (signal : Signal K) (strategyPerformance : K) : K :=
  let weights := (chosenWeights userWeights).normalized
  let quality := weights.confidence * signal.confidence +
    weights.performance * strategyPerformance + weights.recency * signal.decay pow now halfLifeHours
  quality * signal.direction

def Signal.score (signal : Signal K) : K :=
  computeSignalScore pow now userWeights halfLifeHours signal
    (signal.performance strategyPerformances)

/-- The score of the consensus before it is clamped. -/
def meanScore (signals : List (Signal K)) : K :=
  let totalScore := (signals.map fun signal =>
    signal.score pow now strategyPerformances userWeights halfLifeHours *
      signal.decay pow now halfLifeHours).sum
  let totalWeight := (signals.map fun signal => signal.decay pow now halfLifeHours).sum
  if 0 < totalWeight then totalScore / totalWeight else 0

def clamp (score : K) : K := max (-1) (min 1 score)

/-- The score before it is rounded. -/
def consensusScore (signals : List (Signal K)) : K :=
  if signals = [] then 0
  else clamp (meanScore pow now strategyPerformances userWeights halfLifeHours signals)

def computeConsensus [IsStrictOrderedRing K] [FloorRing K] (signals : List (Signal K)) :
    Consensus K :=
  if signals = [] then
    { direction := .neutral
      score := 0
      signalCount := 0
      confidence := 0 }
  else
    let score := consensusScore pow now strategyPerformances userWeights halfLifeHours signals
    { direction := if 0.1 < score then .bullish else if score < -0.1 then .bearish else .neutral
      score := roundTo 4 score
      signalCount := signals.length
      confidence := roundTo 4 ((signals.map Signal.confidence).sum / signals.length) }

end

/-- Another signal of the opposite direction. -/
structure Opposed (signal other : Signal K) : Prop where
  specId : other.specId = signal.specId
  strength : other.strength = signal.strength
  createdAt : other.createdAt = signal.createdAt
  direction : other.direction = -signal.direction

def Signal.withStrength (signal : Signal K) (strength : K) : Signal K :=
  { signal with strength := some strength }

/-- A change that is in the direction, if there is any. -/
structure Follows (direction change : K) : Prop where
  up : 0 < direction → 0 ≤ change
  down : direction < 0 → change ≤ 0
  none : direction = 0 → change = 0

section
variable (pow : K → K → K) (now : ℤ) (strategyPerformances : String → Option K)
  (userWeights : Option (UserWeights K)) (halfLifeHours : K) (signals : List (Signal K))

/-- What the scores are made of. -/
structure Admissible : Prop where
  strength : ∀ signal ∈ signals, ∀ strength, signal.strength = some strength →
    0 ≤ strength ∧ strength ≤ 1
  performance : ∀ specId performance, strategyPerformances specId = some performance →
    0 ≤ performance ∧ performance ≤ 1
  createdAt : ∀ signal ∈ signals, ∀ createdAt, signal.createdAt = some createdAt →
    createdAt ≤ now
  recency : 0 ≤ (chosenWeights userWeights).recency
  performanceWeight : 0 ≤ (chosenWeights userWeights).performance
  confidence : 0 ≤ (chosenWeights userWeights).confidence
  total : 0 < (chosenWeights userWeights).total
  halfLife : 0 < halfLifeHours

/-- The score is odd, lies between minus one and one of itself, and follows each strength. -/
structure Faithful : Prop where
  odd : ∀ others, List.Forall₂ Opposed signals others →
    consensusScore pow now strategyPerformances userWeights halfLifeHours others =
      -consensusScore pow now strategyPerformances userWeights halfLifeHours signals
  bounded : clamp (meanScore pow now strategyPerformances userWeights halfLifeHours signals) =
      meanScore pow now strategyPerformances userWeights halfLifeHours signals ∧
    -1 ≤ consensusScore pow now strategyPerformances userWeights halfLifeHours signals ∧
    consensusScore pow now strategyPerformances userWeights halfLifeHours signals ≤ 1
  monotone : ∀ i signal strength raised, signals[i]? = some signal →
    signal.strength = some strength → strength ≤ raised → raised ≤ 1 →
    Follows signal.direction
      (consensusScore pow now strategyPerformances userWeights halfLifeHours
        (signals.set i (signal.withStrength raised)) -
        consensusScore pow now strategyPerformances userWeights halfLifeHours signals)

end

/-! ### Opposite signals -/

section
variable {pow : K → K → K} {now : ℤ} {strategyPerformances : String → Option K}
  {userWeights : Option (UserWeights K)} {halfLifeHours : K} {signals others : List (Signal K)}
  {signal other : Signal K}

theorem Opposed.decay_eq (h : Opposed signal other) :
    other.decay pow now halfLifeHours = signal.decay pow now halfLifeHours := by
  rw [Signal.decay, Signal.ageHours, h.createdAt]
  rfl

theorem Opposed.score_eq (h : Opposed signal other) :
    other.score pow now strategyPerformances userWeights halfLifeHours =
      -signal.score pow now strategyPerformances userWeights halfLifeHours := by
  rw [Signal.score, Signal.score, computeSignalScore, computeSignalScore, Signal.performance,
    Signal.confidence, h.specId, h.strength, h.direction, h.decay_eq, mul_neg]
  rfl

theorem map_decay_opposed (h : List.Forall₂ Opposed signals others) :
    (others.map fun signal => signal.decay pow now halfLifeHours) =
      signals.map fun signal => signal.decay pow now halfLifeHours := by
  induction h with
  | nil => rfl
  | cons hopposed _ ih => rw [List.map_cons, List.map_cons, hopposed.decay_eq, ih]

theorem sum_score_opposed (h : List.Forall₂ Opposed signals others) :
    (others.map fun signal =>
      signal.score pow now strategyPerformances userWeights halfLifeHours *
        signal.decay pow now halfLifeHours).sum =
      -(signals.map fun signal =>
        signal.score pow now strategyPerformances userWeights halfLifeHours *
          signal.decay pow now halfLifeHours).sum := by
  induction h with
  | nil => exact neg_zero.symm
  | cons hopposed _ ih =>
    rw [List.map_cons, List.map_cons, List.sum_cons, List.sum_cons, hopposed.score_eq,
      hopposed.decay_eq, ih, neg_add, neg_mul]

theorem meanScore_opposed (h : List.Forall₂ Opposed signals others) :
    meanScore pow now strategyPerformances userWeights halfLifeHours others =
      -meanScore pow now strategyPerformances userWeights halfLifeHours signals := by
  rw [meanScore, meanScore, map_decay_opposed h, sum_score_opposed h]
  split_ifs
  · exact neg_div _ _
  · exact neg_zero.symm

end

theorem clamp_of_bounds {score : K} (h : -1 ≤ score ∧ score ≤ 1) : clamp score = score := by
  rw [clamp, min_eq_right h.2, max_eq_right h.1]

/-! ### A strength that is raised -/

section
variable {pow : K → K → K} {now : ℤ} {strategyPerformances : String → Option K}
  {userWeights : Option (UserWeights K)} {halfLifeHours : K} {signals : List (Signal K)}
  {signal : Signal K} {i : ℕ} {raised : K}

/-- How much of the direction a raised strength adds to the score. -/
def Signal.gain (userWeights : Option (UserWeights K)) (signal : Signal K) (raised : K) : K :=
  (chosenWeights userWeights).normalized.confidence *
    ((signal.withStrength raised).confidence - signal.confidence)

theorem score_withStrength :
    (signal.withStrength raised).score pow now strategyPerformances userWeights halfLifeHours -
      signal.score pow now strategyPerformances userWeights halfLifeHours =
        signal.gain userWeights raised * signal.direction := by
  have hdecay : (signal.withStrength raised).decay pow now halfLifeHours =
      signal.decay pow now halfLifeHours := rfl
  have hdirection : (signal.withStrength raised).direction = signal.direction := rfl
  have hperformance : (signal.withStrength raised).performance strategyPerformances =
      signal.performance strategyPerformances := rfl
  rw [Signal.score, Signal.score, computeSignalScore, computeSignalScore, hdecay, hdirection,
    hperformance, Signal.gain]
  ring

/-- A strength of nothing counts as a half. -/
theorem confidence_of_strength {strength : K} (h : signal.strength = some strength) :
    signal.confidence = if strength = 0 then 0.5 else strength := by
  rw [Signal.confidence, h]

/-- A strength that is raised counts for less only from nothing to less than a half. -/
theorem confidence_le_withStrength_iff {strength : K} (hstrength : signal.strength = some strength)
    (hnonneg : 0 ≤ strength) (hraised : strength ≤ raised) :
    signal.confidence ≤ (signal.withStrength raised).confidence ↔
      (strength = 0 → raised = 0 ∨ 0.5 ≤ raised) := by
  have hconfidence : (signal.withStrength raised).confidence =
      if raised = 0 then 0.5 else raised := rfl
  rw [confidence_of_strength hstrength, hconfidence]
  by_cases hzero : strength = 0
  · rw [if_pos hzero]
    split_ifs with hraised'
    · exact iff_of_true le_rfl fun _ => .inl hraised'
    · exact ⟨fun hle _ => .inr hle, fun hle => (hle hzero).resolve_left hraised'⟩
  · rw [if_neg hzero]
    refine iff_of_true ?_ fun h => absurd h hzero
    rw [if_neg ((lt_of_le_of_ne hnonneg (Ne.symm hzero)).trans_le hraised).ne']
    exact hraised

theorem Admissible.set
    (h : Admissible now strategyPerformances userWeights halfLifeHours signals)
    (hsignal : signals[i]? = some signal) (hnonneg : 0 ≤ raised) (hraised : raised ≤ 1) :
    Admissible now strategyPerformances userWeights halfLifeHours
      (signals.set i (signal.withStrength raised)) where
  strength other hother strength hstrength := by
    rcases List.mem_or_eq_of_mem_set hother with hmem | rfl
    · exact h.strength other hmem strength hstrength
    · cases hstrength
      exact ⟨hnonneg, hraised⟩
  performance := h.performance
  createdAt other hother createdAt hcreated := by
    rcases List.mem_or_eq_of_mem_set hother with hmem | rfl
    · exact h.createdAt other hmem createdAt hcreated
    · exact h.createdAt signal (List.mem_of_getElem? hsignal) createdAt hcreated
  recency := h.recency
  performanceWeight := h.performanceWeight
  confidence := h.confidence
  total := h.total
  halfLife := h.halfLife

theorem normalized_confidence_eq_zero_iff (htotal : 0 < (chosenWeights userWeights).total) :
    (chosenWeights userWeights).normalized.confidence = 0 ↔
      (chosenWeights userWeights).confidence = 0 := by
  rw [Weights.normalized, if_pos htotal]
  exact div_eq_zero_iff.trans (or_iff_left htotal.ne')

end

/-! ### The score of one signal -/

section
variable [IsStrictOrderedRing K]

/-- What is known of the powers of a half. -/
structure HalfPowers (pow : K → K → K) : Prop where
  pos : ∀ x, 0 ≤ x → 0 < pow 0.5 x
  le_one : ∀ x, 0 ≤ x → pow 0.5 x ≤ 1

theorem abs_signalDirection_le (signalType : String) :
    |signalDirection (K := K) signalType| ≤ 1 := by
  unfold signalDirection
  split <;> norm_num [abs_le]

variable {pow : K → K → K} {now : ℤ} {strategyPerformances : String → Option K}
  {userWeights : Option (UserWeights K)} {halfLifeHours : K} {signals : List (Signal K)}
  {signal : Signal K}

theorem ageHours_nonneg (h : ∀ createdAt, signal.createdAt = some createdAt → createdAt ≤ now) :
    0 ≤ signal.ageHours now := by
  rw [Signal.ageHours]
  cases hcreated : signal.createdAt with
  | none => exact le_rfl
  | some createdAt =>
    have hage : (0 : K) ≤ ((now - createdAt : ℤ) : K) :=
      Int.cast_nonneg (sub_nonneg.mpr (h createdAt hcreated))
    exact div_nonneg (div_nonneg hage (Int.cast_nonneg (by norm_num)))
      (Int.cast_nonneg (by norm_num))

theorem confidence_bounds (h : ∀ strength, signal.strength = some strength →
    0 ≤ strength ∧ strength ≤ 1) : 0 ≤ signal.confidence ∧ signal.confidence ≤ 1 := by
  have hhalf : (0 : K) ≤ 0.5 ∧ (0.5 : K) ≤ 1 := by norm_num
  cases hstrength : signal.strength with
  | none => rwa [Signal.confidence, hstrength]
  | some strength =>
    rw [confidence_of_strength hstrength]
    split_ifs
    · exact hhalf
    · exact h strength hstrength

section
variable (h : Admissible now strategyPerformances userWeights halfLifeHours signals)
include h

theorem Admissible.decay_bounds (hpow : HalfPowers pow) (hsignal : signal ∈ signals) :
    0 < signal.decay pow now halfLifeHours ∧ signal.decay pow now halfLifeHours ≤ 1 := by
  have hage := div_nonneg (ageHours_nonneg (h.createdAt signal hsignal)) h.halfLife.le
  rw [Signal.decay, computeDecayFactor, if_neg (not_le.mpr h.halfLife)]
  exact ⟨hpow.pos _ hage, hpow.le_one _ hage⟩

theorem Admissible.performance_bounds (signal : Signal K) :
    0 ≤ signal.performance strategyPerformances ∧
      signal.performance strategyPerformances ≤ 1 := by
  rw [Signal.performance]
  cases hperformance : strategyPerformances signal.specId with
  | none => norm_num
  | some performance => exact h.performance signal.specId performance hperformance

/-- The quality is a mean, and the direction is between minus one and one. -/
theorem Admissible.abs_score_le (hpow : HalfPowers pow) (hsignal : signal ∈ signals) :
    |signal.score pow now strategyPerformances userWeights halfLifeHours| ≤ 1 := by
  obtain ⟨hdecay, hdecay'⟩ := h.decay_bounds hpow hsignal
  obtain ⟨hconfidence, hconfidence'⟩ := confidence_bounds (h.strength signal hsignal)
  obtain ⟨hperformance, hperformance'⟩ := h.performance_bounds signal
  have hdirection : |signal.direction| ≤ 1 := abs_signalDirection_le _
  have hrecency := div_nonneg h.recency h.total.le
  have hweight := div_nonneg h.performanceWeight h.total.le
  have hshare := div_nonneg h.confidence h.total.le
  have hsum : (chosenWeights userWeights).recency / (chosenWeights userWeights).total +
      (chosenWeights userWeights).performance / (chosenWeights userWeights).total +
        (chosenWeights userWeights).confidence / (chosenWeights userWeights).total = 1 := by
    rw [← add_div, ← add_div]
    exact div_self h.total.ne'
  rw [Signal.score, computeSignalScore, Weights.normalized, if_pos h.total, abs_mul]
  apply mul_le_one₀ _ (abs_nonneg _) hdirection
  rw [abs_of_nonneg (by positivity)]
  have hquality := add_le_add (add_le_add (mul_le_of_le_one_right hshare hconfidence')
    (mul_le_of_le_one_right hweight hperformance')) (mul_le_of_le_one_right hrecency hdecay')
  linarith

/-! ### The mean of the scores -/

theorem Admissible.totalWeight_pos (hpow : HalfPowers pow) (hne : signals ≠ []) :
    0 < (signals.map fun signal => signal.decay pow now halfLifeHours).sum := by
  apply List.sum_pos
  · intro weight hweight
    obtain ⟨signal, hsignal, rfl⟩ := List.mem_map.mp hweight
    exact (h.decay_bounds hpow hsignal).1
  · exact mt List.map_eq_nil_iff.mp hne

theorem Admissible.meanScore_eq (hpow : HalfPowers pow) (hne : signals ≠ []) :
    meanScore pow now strategyPerformances userWeights halfLifeHours signals =
      (signals.map fun signal =>
        signal.score pow now strategyPerformances userWeights halfLifeHours *
          signal.decay pow now halfLifeHours).sum /
        (signals.map fun signal => signal.decay pow now halfLifeHours).sum := by
  rw [meanScore, if_pos (h.totalWeight_pos hpow hne)]

theorem Admissible.meanScore_bounds (hpow : HalfPowers pow) :
    -1 ≤ meanScore pow now strategyPerformances userWeights halfLifeHours signals ∧
      meanScore pow now strategyPerformances userWeights halfLifeHours signals ≤ 1 := by
  by_cases hne : signals = []
  · subst hne
    rw [meanScore, if_neg (by simp)]
    norm_num
  · rw [h.meanScore_eq hpow hne]
    apply weighted_average_bounds
    · exact fun signal hsignal => (h.decay_bounds hpow hsignal).1.le
    · exact h.totalWeight_pos hpow hne
    · exact fun signal hsignal => (abs_le.mp (h.abs_score_le hpow hsignal)).1
    · exact fun signal hsignal => (abs_le.mp (h.abs_score_le hpow hsignal)).2

theorem Admissible.clamp_meanScore (hpow : HalfPowers pow) :
    clamp (meanScore pow now strategyPerformances userWeights halfLifeHours signals) =
      meanScore pow now strategyPerformances userWeights halfLifeHours signals :=
  clamp_of_bounds (h.meanScore_bounds hpow)

theorem Admissible.consensusScore_eq (hpow : HalfPowers pow) :
    consensusScore pow now strategyPerformances userWeights halfLifeHours signals =
      meanScore pow now strategyPerformances userWeights halfLifeHours signals := by
  rw [consensusScore]
  split_ifs with hnil
  · rw [hnil, meanScore, if_neg (by simp)]
  · exact h.clamp_meanScore hpow

theorem Admissible.consensusScore_opposed (hpow : HalfPowers pow) {others : List (Signal K)}
    (hothers : List.Forall₂ Opposed signals others) :
    consensusScore pow now strategyPerformances userWeights halfLifeHours others =
      -consensusScore pow now strategyPerformances userWeights halfLifeHours signals := by
  obtain ⟨hlo, hhi⟩ := h.meanScore_bounds hpow
  rw [h.consensusScore_eq hpow, consensusScore]
  split_ifs with hnil
  · subst hnil
    rw [List.forall₂_nil_right_iff.mp hothers, meanScore, if_neg (by simp), neg_zero]
  · rw [meanScore_opposed hothers]
    exact clamp_of_bounds ⟨neg_le_neg hhi, neg_le.mpr hlo⟩

end

/-! ### The mean with a strength raised -/

section
variable {i : ℕ} {raised : K}

theorem follows_mul_iff {direction gain : K} :
    Follows direction (gain * direction) ↔ direction = 0 ∨ 0 ≤ gain := by
  constructor
  · intro hfollows
    rcases lt_trichotomy direction 0 with hneg | hzero | hpos
    · exact .inr (nonneg_of_mul_nonpos_left (hfollows.down hneg) hneg)
    · exact .inl hzero
    · exact .inr (nonneg_of_mul_nonneg_left (hfollows.up hpos) hpos)
  · rintro (hzero | hgain)
    · subst hzero
      rw [mul_zero]
      exact ⟨fun _ => le_rfl, fun _ => le_rfl, fun _ => rfl⟩
    · refine ⟨fun hpos => mul_nonneg hgain hpos.le, fun hneg => ?_, fun hzero => ?_⟩
      · exact mul_nonpos_of_nonneg_of_nonpos hgain hneg.le
      · rw [hzero, mul_zero]

section
variable (h : Admissible now strategyPerformances userWeights halfLifeHours signals)
include h

/-- The score moves by a multiple of the direction, of the sign of the gain. -/
theorem Admissible.consensusScore_set (hpow : HalfPowers pow) (hsignal : signals[i]? = some signal)
    (hnonneg : 0 ≤ raised) (hraised : raised ≤ 1) :
    ∃ share, 0 < share ∧
      consensusScore pow now strategyPerformances userWeights halfLifeHours
        (signals.set i (signal.withStrength raised)) -
        consensusScore pow now strategyPerformances userWeights halfLifeHours signals =
          signal.gain userWeights raised * share * signal.direction := by
  have hmem := List.mem_of_getElem? hsignal
  have hne : signals ≠ [] := List.ne_nil_of_mem hmem
  have hraisedList := h.set hsignal hnonneg hraised
  have hne' : signals.set i (signal.withStrength raised) ≠ [] :=
    mt (List.set_eq_nil_iff i _).mp hne
  refine ⟨signal.decay pow now halfLifeHours /
    (signals.map fun signal => signal.decay pow now halfLifeHours).sum, ?_, ?_⟩
  · exact div_pos (h.decay_bounds hpow hmem).1 (h.totalWeight_pos hpow hne)
  · rw [hraisedList.consensusScore_eq hpow, h.consensusScore_eq hpow,
      hraisedList.meanScore_eq hpow hne', h.meanScore_eq hpow hne,
      weighted_average_set _ (fun signal => signal.decay pow now halfLifeHours) hsignal
        (signal.withStrength raised) rfl,
      add_sub_cancel_left, score_withStrength]
    ring

end

/-- The gain is no loss but of a strength raised from nothing to less than a half. -/
theorem Admissible.gain_nonneg_iff
    (h : Admissible now strategyPerformances userWeights halfLifeHours signals) {strength : K}
    (hmem : signal ∈ signals) (hstrength : signal.strength = some strength)
    (hraised : strength ≤ raised) :
    0 ≤ signal.gain userWeights raised ↔ (chosenWeights userWeights).confidence = 0 ∨
      (strength = 0 → raised = 0 ∨ 0.5 ≤ raised) := by
  have hshare : 0 ≤ (chosenWeights userWeights).normalized.confidence := by
    rw [Weights.normalized, if_pos h.total]
    exact div_nonneg h.confidence h.total.le
  rw [Signal.gain, ← normalized_confidence_eq_zero_iff h.total,
    ← confidence_le_withStrength_iff hstrength
      (h.strength signal hmem strength hstrength).1 hraised]
  rcases hshare.eq_or_lt with hzero | hpos
  · rw [← hzero, zero_mul]
    exact iff_of_true le_rfl (.inl rfl)
  · rw [mul_nonneg_iff_of_pos_left hpos, sub_nonneg, or_iff_right hpos.ne']

theorem Admissible.follows_iff
    (h : Admissible now strategyPerformances userWeights halfLifeHours signals)
    (hpow : HalfPowers pow) {strength : K} (hsignal : signals[i]? = some signal)
    (hstrength : signal.strength = some strength) (hraised : strength ≤ raised)
    (hraised' : raised ≤ 1) :
    Follows signal.direction
      (consensusScore pow now strategyPerformances userWeights halfLifeHours
        (signals.set i (signal.withStrength raised)) -
        consensusScore pow now strategyPerformances userWeights halfLifeHours signals) ↔
      signal.direction = 0 ∨ (chosenWeights userWeights).confidence = 0 ∨
        (strength = 0 → raised = 0 ∨ 0.5 ≤ raised) := by
  have hmem := List.mem_of_getElem? hsignal
  have hnonneg := (h.strength signal hmem strength hstrength).1
  obtain ⟨share, hshare, hchange⟩ :=
    h.consensusScore_set hpow hsignal (hnonneg.trans hraised) hraised'
  rw [hchange, follows_mul_iff, mul_nonneg_iff_of_pos_right hshare,
    h.gain_nonneg_iff hmem hstrength hraised]

end

end

/-! ### Real arithmetic -/

theorem halfPowers_rpow : HalfPowers ((· ^ ·) : ℝ → ℝ → ℝ) where
  pos _ _ := Real.rpow_pos_of_pos (by norm_num) _
  le_one _ hx := Real.rpow_le_one (by norm_num) (by norm_num) hx

theorem quarter_bounds : (0 : ℝ) ≤ 0.25 ∧ (0.25 : ℝ) ≤ 1 := by norm_num

theorem quarter_ne_zero : (0.25 : ℝ) ≠ 0 := by norm_num

theorem not_half_le_quarter : ¬ (0.5 : ℝ) ≤ 0.25 := by norm_num

/-- The score is odd and bounded, and follows a raised strength exactly if none of the signals has
strength nothing, but for those without a direction, or strengths do not count. -/
theorem aggregation_faithful_iff (now : ℤ) (strategyPerformances : String → Option ℝ)
    (userWeights : Option (UserWeights ℝ)) (halfLifeHours : ℝ) (signals : List (Signal ℝ))
    (h : Admissible now strategyPerformances userWeights halfLifeHours signals) :
    Faithful (· ^ ·) now strategyPerformances userWeights halfLifeHours signals ↔
      ∀ signal ∈ signals, signal.strength = some 0 →
        signal.direction = 0 ∨ (chosenWeights userWeights).confidence = 0 := by
  constructor
  · intro hfaithful signal hmem hstrength
    obtain ⟨i, hsignal⟩ := List.mem_iff_getElem?.mp hmem
    obtain ⟨hquarter, hquarter'⟩ := quarter_bounds
    have hfollows := hfaithful.monotone i signal 0 0.25 hsignal hstrength hquarter hquarter'
    rw [h.follows_iff halfPowers_rpow hsignal hstrength hquarter hquarter'] at hfollows
    refine hfollows.imp_right fun hweight => hweight.resolve_right fun hraised => ?_
    exact (hraised rfl).elim quarter_ne_zero not_half_le_quarter
  · intro hstrengths
    refine ⟨fun others hothers => ?_, ?_, ?_⟩
    · exact h.consensusScore_opposed halfPowers_rpow hothers
    · rw [h.consensusScore_eq halfPowers_rpow]
      exact ⟨h.clamp_meanScore halfPowers_rpow, h.meanScore_bounds halfPowers_rpow⟩
    · intro i signal strength raised hsignal hstrength hraised hraised'
      rw [h.follows_iff halfPowers_rpow hsignal hstrength hraised hraised']
      by_cases hzero : strength = 0
      · subst hzero
        have hweight := hstrengths signal (List.mem_of_getElem? hsignal) hstrength
        exact hweight.imp_right .inl
      · exact .inr (.inr fun hstrength' => absurd hstrength' hzero)

/-- A signal to buy, on its own. -/
def buy (strength : ℝ) : Signal ℝ :=
  { specId := "spec"
    signalType := some "BUY"
    strength := some strength
    createdAt := none }

theorem admissible_buy {strength : ℝ} (hnonneg : 0 ≤ strength) (hle : strength ≤ 1) :
    Admissible 0 (fun _ => none) none defaultDecayHalfLifeHours [buy strength] where
  strength signal hsignal strength' hstrength := by
    rw [List.mem_singleton.mp hsignal] at hstrength
    cases hstrength
    exact ⟨hnonneg, hle⟩
  performance _ _ hperformance := by cases hperformance
  createdAt signal hsignal createdAt hcreated := by
    rw [List.mem_singleton.mp hsignal] at hcreated
    cases hcreated
  recency := by norm_num [chosenWeights]
  performanceWeight := by norm_num [chosenWeights]
  confidence := by norm_num [chosenWeights]
  total := by norm_num [chosenWeights, Weights.total]
  halfLife := by norm_num [defaultDecayHalfLifeHours]

theorem faithful_strong_buy :
    Admissible 0 (fun _ => none) none defaultDecayHalfLifeHours [buy 1] ∧
      Faithful (· ^ ·) 0 (fun _ => none) none defaultDecayHalfLifeHours [buy 1] := by
  have hadmissible := admissible_buy zero_le_one le_rfl
  refine ⟨hadmissible, (aggregation_faithful_iff 0 (fun _ => none) none _ [buy 1] hadmissible).mpr ?_⟩
  intro signal hsignal hstrength
  rw [List.mem_singleton.mp hsignal] at hstrength
  exact absurd (Option.some.inj hstrength) one_ne_zero

/-- A strength of nothing counts as a half, so that a quarter is less. -/
theorem weak_buy_not_faithful : ¬ ∀ (now : ℤ) (strategyPerformances : String → Option ℝ)
    (userWeights : Option (UserWeights ℝ)) (halfLifeHours : ℝ) (signals : List (Signal ℝ)),
    Admissible now strategyPerformances userWeights halfLifeHours signals →
      Faithful (· ^ ·) now strategyPerformances userWeights halfLifeHours signals := by
  intro hfaithful
  have hadmissible := admissible_buy le_rfl zero_le_one
  have hfollows := (hfaithful 0 (fun _ => none) none _ [buy 0] hadmissible).monotone 0
    (buy 0) 0 0.25 rfl rfl quarter_bounds.1 quarter_bounds.2
  rw [hadmissible.follows_iff halfPowers_rpow rfl rfl quarter_bounds.1 quarter_bounds.2] at hfollows
  rcases hfollows with hdirection | hweight | hraised
  · exact one_ne_zero hdirection
  · norm_num [chosenWeights] at hweight
  · exact (hraised rfl).elim quarter_ne_zero not_half_le_quarter

end TradeStream.SignalAggregation
