import TradeStream.Fallible
import TradeStream.RoundDecimal

/-! The consensus of the signals of several strategies for one pair, in exact arithmetic. -/
namespace TradeStream.StrategyConsensus
open TradeStream.RoundDecimal

inductive Direction where
  | long
  | short
  | neutral
  deriving DecidableEq

/-- The weight of a strategy by its performance. -/
structure StrategyWeight where
  winRate : ℚ
  sharpeRatio : ℚ
  weight : ℚ
  weight_nonneg : 0 ≤ weight

/-- A signal of one strategy. Times are in microseconds. -/
structure Signal where
  strategyId : String
  instrument : String
  signalType : String
  strength : ℚ
  price : ℚ
  timestamp : ℤ
  strength_nonneg : 0 ≤ strength
  strength_le_one : strength ≤ 1

structure SignalDetail where
  strategyId : String
  signalType : String
  strength : ℚ
  weight : ℚ
  effectiveWeight : ℚ
  deriving DecidableEq

structure ConsensusSignal where
  instrument : String
  direction : Direction
  confidence : ℚ
  contributingSignals : ℕ
  agreeingSignals : ℕ
  dissentingSignals : ℕ
  weightedScore : ℚ
  avgPrice : ℚ
  windowStart : ℤ
  windowEnd : ℤ
  signalDetails : List SignalDetail
  deriving DecidableEq

structure AggregationConfig where
  windowSeconds : ℤ := 300
  minStrategies : ℤ := 2
  confidenceThreshold : ℚ := 1 / 2

inductive AggregateError where
  | overflow
  | index
  deriving DecidableEq

/-- `max(0.0, min(1.0, x))`. -/
def clamp (x : ℚ) : ℚ := max 0 (min 1 x)

def StrategyWeight.compositeWeight (strategy : StrategyWeight) : ℚ :=
  4 / 10 * clamp strategy.winRate + 6 / 10 * clamp (strategy.sharpeRatio / 3)

theorem StrategyWeight.compositeWeight_nonneg (strategy : StrategyWeight) :
    0 ≤ strategy.compositeWeight := by
  have hclamp (x : ℚ) : 0 ≤ clamp x := le_max_left _ _
  exact add_nonneg (mul_nonneg (by norm_num) (hclamp _)) (mul_nonneg (by norm_num) (hclamp _))

/-- `compute_weight`. -/
def StrategyWeight.computeWeight (strategy : StrategyWeight) : StrategyWeight :=
  { strategy with
    weight := strategy.compositeWeight
    weight_nonneg := strategy.compositeWeight_nonneg }

section
variable (weights : String → Option StrategyWeight)

/-- The weight of the strategy of a signal, and one for a strategy that has none. -/
def Signal.weight (signal : Signal) : ℚ :=
  match weights signal.strategyId with
  | some strategy => strategy.weight
  | none => 1

def Signal.effectiveWeight (signal : Signal) : ℚ := signal.weight weights * signal.strength

def Signal.detail (signal : Signal) : SignalDetail :=
  { strategyId := signal.strategyId
    signalType := signal.signalType
    strength := signal.strength
    weight := signal.weight weights
    effectiveWeight := signal.effectiveWeight weights }

/-- What the loop over the signals sums up. -/
structure Totals where
  longScore : ℚ := 0
  shortScore : ℚ := 0
  neutralScore : ℚ := 0
  totalWeight : ℚ := 0
  priceSum : ℚ := 0
  priceWeightSum : ℚ := 0

def Totals.add (totals : Totals) (signal : Signal) : Totals :=
  let w := signal.weight weights
  let effectiveWeight := w * signal.strength
  let scored :=
    if signal.signalType = "BUY" then
      { totals with longScore := totals.longScore + effectiveWeight }
    else if signal.signalType = "SELL" then
      { totals with shortScore := totals.shortScore + effectiveWeight }
    else { totals with neutralScore := totals.neutralScore + effectiveWeight }
  { scored with
    totalWeight := scored.totalWeight + w
    priceSum := scored.priceSum + signal.price * w
    priceWeightSum := scored.priceWeightSum + w }

def totalsOf (signals : List Signal) : Totals := signals.foldl (Totals.add weights) {}

def Totals.score (totals : Totals) : Direction → ℚ
  | .long => totals.longScore
  | .short => totals.shortScore
  | .neutral => totals.neutralScore

/-- `max(scores, key=scores.get)`: the first of the highest score. -/
def Totals.direction (totals : Totals) : Direction :=
  let best := if totals.score .long < totals.score .short then .short else .long
  if totals.score best < totals.score .neutral then .neutral else best

def directionToType : Direction → String
  | .long => "BUY"
  | .short => "SELL"
  | .neutral => "HOLD"

/-- `_compute_consensus`. The confidence threshold is not read. -/
def computeConsensus (signals : List Signal) (windowStart windowEnd : ℤ) :
    Except AggregateError ConsensusSignal :=
  let totals := totalsOf weights signals
  let direction := totals.direction
  let winningScore := totals.score direction
  let confidence := if 0 < totals.totalWeight then winningScore / totals.totalWeight else 0
  let agreeing := signals.countP fun s => s.signalType = directionToType direction
  let avgPrice := if 0 < totals.priceWeightSum then totals.priceSum / totals.priceWeightSum else 0
  match signals.head? with
  | none => .error .index
  | some first => .ok
    { instrument := first.instrument
      direction := direction
      confidence := roundTo 4 confidence
      contributingSignals := signals.length
      agreeingSignals := agreeing
      dissentingSignals := signals.length - agreeing
      weightedScore := roundTo 4 winningScore
      avgPrice := roundTo 2 avgPrice
      windowStart := windowStart
      windowEnd := windowEnd
      signalDetails := signals.map (Signal.detail weights) }

variable (config : AggregationConfig) (now : ℤ) (signals : List Signal)

/-- The times that there are, from the year 1 to the year 9999. -/
def IsTime (time : ℤ) : Prop :=
  -62135596800 * 1000000 ≤ time ∧ time < 253402300800 * 1000000

instance (time : ℤ) : Decidable (IsTime time) := inferInstanceAs (Decidable (_ ∧ _))

/-- `now - timedelta(seconds=window_seconds)`. -/
def windowStart : ℤ := now - config.windowSeconds * 1000000

def windowSignals : List Signal :=
  signals.filter fun s => windowStart config now ≤ s.timestamp

def aggregate : Except AggregateError (Option ConsensusSignal) :=
  if (signals.length : ℤ) < config.minStrategies then .ok none
  else if ¬ IsTime (windowStart config now) then .error .overflow
  else if ((windowSignals config now signals).length : ℤ) < config.minStrategies then .ok none
  else
    (computeConsensus weights (windowSignals config now signals) (windowStart config now)
      now).map some

end

/-! ### The two sides exchanged -/

def Direction.opposite : Direction → Direction
  | .long => .short
  | .short => .long
  | .neutral => .neutral

def oppositeType (signalType : String) : String :=
  if signalType = "BUY" then "SELL" else if signalType = "SELL" then "BUY" else signalType

def Signal.opposite (signal : Signal) : Signal :=
  { signal with signalType := oppositeType signal.signalType }

def SignalDetail.opposite (detail : SignalDetail) : SignalDetail :=
  { detail with signalType := oppositeType detail.signalType }

def ConsensusSignal.opposite (consensus : ConsensusSignal) : ConsensusSignal :=
  { consensus with
    direction := consensus.direction.opposite
    signalDetails := consensus.signalDetails.map SignalDetail.opposite }

/-- The side that a signal is on. -/
def Signal.side (signal : Signal) : Direction :=
  if signal.signalType = "BUY" then .long
  else if signal.signalType = "SELL" then .short else .neutral

section
variable (config : AggregationConfig) (now : ℤ) (weights : String → Option StrategyWeight)
  (signals : List Signal)

/-- What the signals of one side in the window weigh. -/
def sideScore (direction : Direction) : ℚ :=
  (((windowSignals config now signals).filter fun s => s.side = direction).map
    (Signal.effectiveWeight weights)).sum

def windowWeight : ℚ := ((windowSignals config now signals).map (Signal.weight weights)).sum

/-- What a consensus has to be. -/
structure Sound : Prop where
  decided : ∀ consensus, aggregate weights config now signals = .ok (some consensus) →
    consensus.direction ≠ .neutral →
      (∀ other, other ≠ consensus.direction →
        sideScore config now weights signals other <
          sideScore config now weights signals consensus.direction) ∧
      config.confidenceThreshold ≤ consensus.confidence
  confidence : ∀ consensus, aggregate weights config now signals = .ok (some consensus) →
    0 ≤ consensus.confidence ∧ consensus.confidence ≤ 1
  opposite : aggregate weights config now (signals.map Signal.opposite) =
    (aggregate weights config now signals).map (Option.map ConsensusSignal.opposite)

/-- There are strategies enough, and at least one of them in the window. -/
structure Enough : Prop where
  all : config.minStrategies ≤ signals.length
  isTime : IsTime (windowStart config now)
  window : config.minStrategies ≤ (windowSignals config now signals).length
  nonempty : windowSignals config now signals ≠ []

/-- The side is ahead of both others. -/
def Ahead (direction : Direction) : Prop :=
  ∀ other, other ≠ direction →
    sideScore config now weights signals other < sideScore config now weights signals direction

/-- The share of the side, to four digits, is the threshold or more. -/
def ReachesThreshold (direction : Direction) : Prop :=
  let least := ⌈config.confidenceThreshold * 10 ^ 4⌉
  let score := sideScore config now weights signals direction * 10 ^ 4
  let total := windowWeight config now weights signals
  (least - 1 / 2) * total < score ∨ (least - 1 / 2) * total = score ∧ Even least

/-- A side is ahead, and reaches the threshold if it is not the neutral one. -/
def Decided : Prop :=
  ∃ direction, Ahead config now weights signals direction ∧
    (direction ≠ .neutral → ReachesThreshold config now weights signals direction)

end

/-! ### The totals -/

section
variable {weights : String → Option StrategyWeight} {signals : List Signal} {signal : Signal}
  {totals : Totals} {direction : Direction}

theorem totalsOf_concat (signals : List Signal) (signal : Signal) :
    totalsOf weights (signals ++ [signal]) = (totalsOf weights signals).add weights signal := by
  rw [totalsOf, List.foldl_concat, totalsOf]

theorem score_add : (totals.add weights signal).score direction =
    totals.score direction +
      if signal.side = direction then signal.effectiveWeight weights else 0 := by
  rw [Totals.add, Signal.side, Signal.effectiveWeight]
  split_ifs with hbuy hsell <;> cases direction <;> simp [Totals.score] at *

theorem totalWeight_add :
    (totals.add weights signal).totalWeight = totals.totalWeight + signal.weight weights := by
  rw [Totals.add]
  split_ifs <;> rfl

theorem score_totalsOf (signals : List Signal) (direction : Direction) :
    (totalsOf weights signals).score direction =
      ((signals.filter fun s => s.side = direction).map (Signal.effectiveWeight weights)).sum := by
  induction signals using List.reverseRecOn with
  | nil => cases direction <;> rfl
  | append_singleton signals signal ih =>
    rw [totalsOf_concat, score_add, ih, List.filter_append, List.map_append, List.sum_append]
    by_cases hside : signal.side = direction
    · simp [hside]
    · simp [hside]

theorem totalWeight_totalsOf (signals : List Signal) :
    (totalsOf weights signals).totalWeight = (signals.map (Signal.weight weights)).sum := by
  induction signals using List.reverseRecOn with
  | nil => rfl
  | append_singleton signals signal ih =>
    rw [totalsOf_concat, totalWeight_add, ih, List.map_append, List.sum_append]
    simp

theorem weight_nonneg : 0 ≤ signal.weight weights := by
  rw [Signal.weight]
  split
  · exact StrategyWeight.weight_nonneg _
  · exact zero_le_one

theorem effectiveWeight_nonneg : 0 ≤ signal.effectiveWeight weights :=
  mul_nonneg weight_nonneg signal.strength_nonneg

theorem effectiveWeight_le : signal.effectiveWeight weights ≤ signal.weight weights :=
  mul_le_of_le_one_right weight_nonneg signal.strength_le_one

theorem score_nonneg (signals : List Signal) (direction : Direction) :
    0 ≤ (totalsOf weights signals).score direction := by
  rw [score_totalsOf]
  apply List.sum_nonneg
  intro x hx
  obtain ⟨signal, -, rfl⟩ := List.mem_map.mp hx
  exact effectiveWeight_nonneg

theorem score_le_totalWeight (signals : List Signal) (direction : Direction) :
    (totalsOf weights signals).score direction ≤ (totalsOf weights signals).totalWeight := by
  induction signals using List.reverseRecOn with
  | nil => cases direction <;> exact le_rfl
  | append_singleton signals signal ih =>
    rw [totalsOf_concat, score_add, totalWeight_add]
    apply add_le_add ih
    split_ifs
    · exact effectiveWeight_le
    · exact weight_nonneg

/-! ### The direction -/

theorem le_score_direction (totals : Totals) (other : Direction) :
    totals.score other ≤ totals.score totals.direction := by
  rw [Totals.direction]
  split_ifs with hbest hneutral hneutral <;> cases other <;> linarith

/-- What is strictly ahead wins. -/
theorem direction_eq_of_ahead
    (h : ∀ other, other ≠ direction → totals.score other < totals.score direction) :
    totals.direction = direction := by
  by_contra hne
  exact absurd (h _ hne) (not_lt.mpr (le_score_direction totals direction))

/-- The neutral side wins only if it is strictly ahead. -/
theorem ahead_of_direction_eq_neutral (h : totals.direction = .neutral) (other : Direction)
    (hother : other ≠ .neutral) : totals.score other < totals.score .neutral := by
  rw [Totals.direction] at h
  split_ifs at h with hbest hneutral hneutral
  · cases other with
    | long => exact hbest.trans hneutral
    | short => exact hneutral
    | neutral => exact absurd rfl hother
  · cases other with
    | long => exact hneutral
    | short => exact (not_lt.mp hbest).trans_lt hneutral
    | neutral => exact absurd rfl hother

/-! ### The other side's signals -/

theorem oppositeType_eq_iff {signalType : String} (direction : Direction) :
    oppositeType signalType = directionToType direction.opposite ↔
      signalType = directionToType direction := by
  rw [oppositeType]
  split_ifs with hbuy hsell
  · subst hbuy
    cases direction <;> decide
  · subst hsell
    cases direction <;> decide
  · cases direction with
    | long => exact iff_of_false hsell hbuy
    | short => exact iff_of_false hbuy hsell
    | neutral => rfl

def Totals.opposite (totals : Totals) : Totals :=
  { totals with
    longScore := totals.shortScore
    shortScore := totals.longScore }

theorem score_opposite : totals.opposite.score direction = totals.score direction.opposite := by
  cases direction <;> rfl

theorem add_opposite :
    totals.opposite.add weights signal.opposite = (totals.add weights signal).opposite := by
  have hbuy : signal.opposite.signalType = "BUY" ↔ signal.signalType = "SELL" :=
    oppositeType_eq_iff .short
  have hsell : signal.opposite.signalType = "SELL" ↔ signal.signalType = "BUY" :=
    oppositeType_eq_iff .long
  have hweight : signal.opposite.weight weights = signal.weight weights := rfl
  have hstrength : signal.opposite.strength = signal.strength := rfl
  have hprice : signal.opposite.price = signal.price := rfl
  rw [Totals.add, Totals.add, hweight, hstrength, hprice]
  simp only [hbuy, hsell]
  by_cases htype : signal.signalType = "BUY"
  · have hne : signal.signalType ≠ "SELL" := by
      rw [htype]
      decide
    rw [if_neg hne, if_pos htype, if_pos htype]
    rfl
  · by_cases htype' : signal.signalType = "SELL"
    · rw [if_pos htype', if_neg htype, if_pos htype']
      rfl
    · rw [if_neg htype', if_neg htype, if_neg htype, if_neg htype']
      rfl

theorem totalsOf_opposite (signals : List Signal) :
    totalsOf weights (signals.map Signal.opposite) = (totalsOf weights signals).opposite := by
  induction signals using List.reverseRecOn with
  | nil => rfl
  | append_singleton signals signal ih =>
    rw [List.map_append, List.map_singleton, totalsOf_concat, totalsOf_concat, ih, add_opposite]

/-- With a side strictly ahead, the other side's signals make the other side's consensus. -/
theorem computeConsensus_opposite (windowStart windowEnd : ℤ)
    (h : ∀ other, other ≠ direction →
      (totalsOf weights signals).score other < (totalsOf weights signals).score direction) :
    computeConsensus weights (signals.map Signal.opposite) windowStart windowEnd =
      (computeConsensus weights signals windowStart windowEnd).map ConsensusSignal.opposite := by
  have hopposite (d : Direction) : d.opposite.opposite = d := by cases d <;> rfl
  have hdirection := direction_eq_of_ahead h
  have hdirection' : (totalsOf weights signals).opposite.direction = direction.opposite := by
    apply direction_eq_of_ahead
    intro other hother
    rw [score_opposite, score_opposite, hopposite]
    apply h
    rintro rfl
    exact hother (hopposite other).symm
  have hagreeing : (signals.map Signal.opposite).countP
      (fun s => s.signalType = directionToType direction.opposite) =
        signals.countP fun s => s.signalType = directionToType direction := by
    rw [List.countP_map]
    apply List.countP_congr
    intro s _
    simp only [Function.comp_apply, decide_eq_true_eq]
    exact oppositeType_eq_iff direction
  have hdetails : (signals.map Signal.opposite).map (Signal.detail weights) =
      (signals.map (Signal.detail weights)).map SignalDetail.opposite := by
    rw [List.map_map, List.map_map]
    rfl
  rw [computeConsensus, computeConsensus, totalsOf_opposite, hdirection, hdirection', hagreeing,
    score_opposite, hopposite, List.length_map, hdetails, List.head?_map]
  cases signals.head? with
  | none => rfl
  | some first => rfl

end

/-! ### The consensus of a window -/

section
variable {config : AggregationConfig} {now : ℤ} {weights : String → Option StrategyWeight}
  {signals : List Signal} {direction : Direction}

theorem windowSignals_opposite :
    windowSignals config now (signals.map Signal.opposite) =
      (windowSignals config now signals).map Signal.opposite := by
  rw [windowSignals, windowSignals, List.filter_map]
  rfl

theorem sideScore_eq :
    sideScore config now weights signals direction =
      (totalsOf weights (windowSignals config now signals)).score direction :=
  (score_totalsOf _ direction).symm

theorem aggregate_eq_some_iff {consensus : ConsensusSignal} :
    aggregate weights config now signals = .ok (some consensus) ↔
      Enough config now signals ∧
        computeConsensus weights (windowSignals config now signals) (windowStart config now) now =
          .ok consensus := by
  rw [aggregate]
  split_ifs with hall htime hwindow
  · exact iff_of_false (by simp) fun h => absurd h.1.all (not_le.mpr hall)
  · exact iff_of_false (by simp) fun h => absurd h.1.window (not_le.mpr hwindow)
  · rw [Fallible.map_eq_ok_iff]
    constructor
    · rintro ⟨result, hresult, hsome⟩
      cases hsome
      refine ⟨⟨not_lt.mp hall, htime, not_lt.mp hwindow, ?_⟩, hresult⟩
      intro hnil
      rw [hnil] at hresult
      cases hresult
    · rintro ⟨-, hresult⟩
      exact ⟨consensus, hresult, rfl⟩
  · exact iff_of_false (by simp) fun h => htime h.1.isTime

/-- Signals enough make a consensus. -/
theorem exists_computeConsensus (weights : String → Option StrategyWeight) (hne : signals ≠ [])
    (windowStart windowEnd : ℤ) :
    ∃ consensus, computeConsensus weights signals windowStart windowEnd = .ok consensus := by
  cases signals with
  | nil => exact absurd rfl hne
  | cons first rest => exact ⟨_, rfl⟩

theorem computeConsensus_spec {windowStart windowEnd : ℤ} {consensus : ConsensusSignal}
    (h : computeConsensus weights signals windowStart windowEnd = .ok consensus) :
    consensus.direction = (totalsOf weights signals).direction ∧
      consensus.confidence = roundTo 4 (if 0 < (totalsOf weights signals).totalWeight then
        (totalsOf weights signals).score (totalsOf weights signals).direction /
          (totalsOf weights signals).totalWeight else 0) := by
  cases signals with
  | nil => cases h
  | cons first rest =>
    cases h
    exact ⟨rfl, rfl⟩

/-- The share of a side is between nothing and one. -/
theorem share_mem (signals : List Signal) (direction : Direction) :
    0 ≤ (if 0 < (totalsOf weights signals).totalWeight then
      (totalsOf weights signals).score direction / (totalsOf weights signals).totalWeight else 0) ∧
    (if 0 < (totalsOf weights signals).totalWeight then
      (totalsOf weights signals).score direction / (totalsOf weights signals).totalWeight else 0) ≤
        1 := by
  split_ifs with htotal
  · exact ⟨div_nonneg (score_nonneg signals direction) htotal.le,
      div_le_one_of_le₀ (score_le_totalWeight signals direction) htotal.le⟩
  · exact ⟨le_rfl, zero_le_one⟩

/-- The threshold is reached by the rounded share, of a side that has any. -/
theorem reachesThreshold_iff
    (hpos : 0 < (totalsOf weights (windowSignals config now signals)).score direction) :
    ReachesThreshold config now weights signals direction ↔
      config.confidenceThreshold ≤
        roundTo 4 ((totalsOf weights (windowSignals config now signals)).score direction /
          (totalsOf weights (windowSignals config now signals)).totalWeight) := by
  have htotal := hpos.trans_le (score_le_totalWeight (windowSignals config now signals) direction)
  rw [ReachesThreshold, windowWeight, ← totalWeight_totalsOf, sideScore_eq, le_roundTo_iff,
    div_mul_eq_mul_div, lt_div_iff₀ htotal, div_eq_iff htotal.ne']
  simp only [eq_comm]

theorem Ahead.score_lt (h : Ahead config now weights signals direction) (other : Direction)
    (hother : other ≠ direction) :
    (totalsOf weights (windowSignals config now signals)).score other <
      (totalsOf weights (windowSignals config now signals)).score direction := by
  have hlt := h other hother
  rwa [sideScore_eq, sideScore_eq] at hlt

/-- The confidence in a side that is ahead is its share of the weight. -/
theorem confidence_of_ahead (h : Ahead config now weights signals direction)
    (hneutral : direction ≠ .neutral) {windowStart windowEnd : ℤ} {consensus : ConsensusSignal}
    (hcompute : computeConsensus weights (windowSignals config now signals) windowStart windowEnd =
      .ok consensus) :
    config.confidenceThreshold ≤ consensus.confidence ↔
      ReachesThreshold config now weights signals direction := by
  have hpos := (score_nonneg _ _).trans_lt (h.score_lt .neutral hneutral.symm)
  have htotal := hpos.trans_le (score_le_totalWeight _ direction)
  rw [(computeConsensus_spec hcompute).2, if_pos htotal, direction_eq_of_ahead h.score_lt,
    reachesThreshold_iff hpos]

theorem aggregate_opposite (h : Enough config now signals → Decided config now weights signals) :
    aggregate weights config now (signals.map Signal.opposite) =
      (aggregate weights config now signals).map (Option.map ConsensusSignal.opposite) := by
  rw [aggregate, aggregate, List.length_map, windowSignals_opposite, List.length_map]
  split_ifs with hall htime hwindow
  · rfl
  · rfl
  · rcases eq_or_ne (windowSignals config now signals) [] with hnil | hne
    · -- the first of no signals
      rw [hnil]
      rfl
    · obtain ⟨direction, hahead, -⟩ := h ⟨not_lt.mp hall, htime, not_lt.mp hwindow, hne⟩
      rw [computeConsensus_opposite _ _ hahead.score_lt]
      cases computeConsensus weights (windowSignals config now signals)
          (windowStart config now) now with
      | error e => rfl
      | ok consensus => rfl
  · rfl

end

/-- The consensus is sound exactly when there is none, or one side is strictly ahead and reaches
the threshold. -/
theorem consensus_sound_iff (config : AggregationConfig) (now : ℤ) (weights : String → Option StrategyWeight)
    (signals : List Signal) :
    Sound config now weights signals ↔
      (Enough config now signals → Decided config now weights signals) := by
  constructor
  · intro hsound henough
    obtain ⟨consensus, hcompute⟩ :=
      exists_computeConsensus weights henough.nonempty (windowStart config now) now
    have haggregate := aggregate_eq_some_iff.mpr ⟨henough, hcompute⟩
    have hdirection := (computeConsensus_spec hcompute).1
    by_cases hneutral : consensus.direction = .neutral
    · refine ⟨.neutral, fun other hother => ?_, fun h => absurd rfl h⟩
      rw [sideScore_eq, sideScore_eq]
      exact ahead_of_direction_eq_neutral (hdirection.symm.trans hneutral) other hother
    · obtain ⟨hahead, hthreshold⟩ := hsound.decided consensus haggregate hneutral
      exact ⟨_, hahead, fun _ => (confidence_of_ahead hahead hneutral hcompute).mp hthreshold⟩
  · intro hdecided
    refine ⟨fun consensus haggregate hneutral => ?_, fun consensus haggregate => ?_,
      aggregate_opposite hdecided⟩
    · obtain ⟨henough, hcompute⟩ := aggregate_eq_some_iff.mp haggregate
      obtain ⟨direction, hahead, hreaches⟩ := hdecided henough
      have hdirection : consensus.direction = direction :=
        (computeConsensus_spec hcompute).1.trans (direction_eq_of_ahead hahead.score_lt)
      rw [hdirection] at hneutral ⊢
      exact ⟨hahead, (confidence_of_ahead hahead hneutral hcompute).mpr (hreaches hneutral)⟩
    · obtain ⟨-, hcompute⟩ := aggregate_eq_some_iff.mp haggregate
      rw [(computeConsensus_spec hcompute).2]
      exact roundTo_mem 4 (share_mem _ _)

theorem fullStrength_nonneg : (0 : ℚ) ≤ 1 := zero_le_one

theorem fullStrength_le_one : (1 : ℚ) ≤ 1 := le_rfl

def fullSignal (strategyId signalType : String) : Signal :=
  { strategyId := strategyId
    instrument := "BTC-USD"
    signalType := signalType
    strength := 1
    price := 100
    timestamp := 0
    strength_nonneg := fullStrength_nonneg
    strength_le_one := fullStrength_le_one }

/-- One strategy buys and one sells with the same strength: the consensus is to buy. -/
theorem tie_not_sound : ¬ ∀ (config : AggregationConfig) (now : ℤ)
    (weights : String → Option StrategyWeight) (signals : List Signal),
    Sound config now weights signals := by
  intro hsound
  let signals := [fullSignal "first" "BUY", fullSignal "second" "SELL"]
  have hlong : ((aggregate (fun _ => none) {} 0 signals).map (Option.map (·.direction))).toOption =
      some (some .long) := by decide +kernel
  have htie : sideScore {} 0 (fun _ => none) signals .short =
      sideScore {} 0 (fun _ => none) signals .long := by decide +kernel
  cases hresult : aggregate (fun _ => none) {} 0 signals with
  | error e =>
    rw [hresult] at hlong
    cases hlong
  | ok result =>
    cases result with
    | none =>
      rw [hresult] at hlong
      cases hlong
    | some consensus =>
      rw [hresult] at hlong
      have hdirection : consensus.direction = .long := Option.some.inj (Option.some.inj hlong)
      have hneutral : consensus.direction ≠ .neutral := by
        rw [hdirection]
        decide
      have hahead := ((hsound {} 0 (fun _ => none) signals).decided consensus hresult hneutral).1
      rw [hdirection] at hahead
      exact absurd htie (hahead .short (by decide)).ne

end TradeStream.StrategyConsensus
