import TradeStream.SignalPipeline
import TradeStream.RoundDecimal

/-! The fusion of the signals of several sources into one: a weighted vote over the three
actions, three ways to resolve a conflict, and the confidence in the outcome. -/
namespace TradeStream.SignalFusion
open TradeStream.SignalPipeline (SignalAction)
open TradeStream.RoundDecimal

structure SourceSignal where
  source : String
  action : SignalAction
  confidence : ℚ
  weight : ℚ
  confidence_nonneg : 0 ≤ confidence
  confidence_le_one : confidence ≤ 1

/-- An action with its score. -/
abbrev Score := SignalAction × ℚ

/-- What the text of an outcome shows. -/
inductive Reasoning where
  | noSignals
  | nearTie (top runnerUp : Score)
  | majority (top runnerUp : Score)
  | highest (source : String) (confidence : ℚ) (action : SignalAction)
  | strongConsensus (top : Score)
  | noConsensus (top : Score)

structure FusedSignal where
  symbol : String
  action : SignalAction
  confidence : ℚ
  sourceSignals : List SourceSignal
  agreementRatio : ℚ
  conflictResolutionApplied : String
  reasoning : Reasoning

def actionValue : SignalAction → String
  | .buy => "BUY"
  | .sell => "SELL"
  | .hold => "HOLD"

/-- A score to two decimals. -/
def scoreText (x : ℚ) : String := fixedText roundHalfEven 2 x

def Reasoning.text : Reasoning → String
  | .noSignals => "No source signals available."
  | .nearTie top runnerUp =>
    "Near-tie between " ++ actionValue top.1 ++ " (" ++ scoreText top.2 ++ ") and " ++
      actionValue runnerUp.1 ++ " (" ++ scoreText runnerUp.2 ++ "), defaulting to HOLD."
  | .majority top runnerUp =>
    "Weighted majority: " ++ actionValue top.1 ++ " scored " ++ scoreText top.2 ++ " vs " ++
      actionValue runnerUp.1 ++ " (" ++ scoreText runnerUp.2 ++ ")."
  | .highest source confidence action =>
    "Highest confidence source: " ++ source ++ " at " ++ scoreText confidence ++ " -> " ++
      actionValue action ++ "."
  | .strongConsensus top =>
    "Conservative: strong consensus for " ++ actionValue top.1 ++ " (" ++ scoreText top.2 ++ ")."
  | .noConsensus top =>
    "Conservative: no strong consensus (top=" ++ actionValue top.1 ++ " at " ++
      scoreText top.2 ++ "), holding."

def defaultSourceWeights : List (String × ℚ) :=
  [("strategy_consensus", 40 / 100), ("sentiment", 15 / 100), ("prediction_market", 20 / 100),
    ("regime_detection", 15 / 100), ("learning_engine", 10 / 100)]

inductive ConflictResolutionStrategy where
  | weightedMajority
  | highestConfidence
  | conservative
  deriving DecidableEq

def ConflictResolutionStrategy.value : ConflictResolutionStrategy → String
  | .weightedMajority => "weighted_majority"
  | .highestConfidence => "highest_confidence"
  | .conservative => "conservative"

/-! ### The vote -/

/-- `source_weights or DEFAULT_SOURCE_WEIGHTS`. -/
def weightsOr : Option (List (String × ℚ)) → List (String × ℚ)
  | none | some [] => defaultSourceWeights
  | some weights => weights

def applyWeights (sourceWeights : Option (List (String × ℚ))) (signals : List SourceSignal) :
    List SourceSignal :=
  signals.map fun sig =>
    { sig with weight := ((weightsOr sourceWeights).lookup sig.source).getD (10 / 100) }

structure VoteTally where
  voteScores : SignalAction → ℚ
  totalWeight : ℚ

def VoteTally.add (t : VoteTally) (sig : SourceSignal) : VoteTally where
  voteScores := Function.update t.voteScores sig.action
    (t.voteScores sig.action + sig.weight * sig.confidence)
  totalWeight := t.totalWeight + sig.weight

def voteTally (signals : List SourceSignal) : VoteTally := signals.foldl VoteTally.add ⟨0, 0⟩

def VoteTally.normalized (t : VoteTally) : SignalAction → ℚ := fun action =>
  if 0 < t.totalWeight then t.voteScores action / t.totalWeight else t.voteScores action

/-! ### Conflicts -/

/-- `sorted(vote_scores.items(), key=.., reverse=True)`, which is stable. -/
def sortedActions (voteScores : SignalAction → ℚ) : List Score :=
  [(.buy, voteScores .buy), (.sell, voteScores .sell), (.hold, voteScores .hold)].insertionSort
    fun x y => y.2 ≤ x.2

-- There are always three actions, so that neither default is ever taken.
def top (voteScores : SignalAction → ℚ) : Score := (sortedActions voteScores).getD 0 (.hold, 0)

def runnerUp (voteScores : SignalAction → ℚ) : Score :=
  (sortedActions voteScores).getD 1 (.hold, 0)

def resolveWeightedMajority (voteScores : SignalAction → ℚ) : SignalAction × Reasoning :=
  if 0 < (runnerUp voteScores).2 ∧ (top voteScores).2 - (runnerUp voteScores).2 < 10 / 100 then
    (.hold, .nearTie (top voteScores) (runnerUp voteScores))
  else ((top voteScores).1, .majority (top voteScores) (runnerUp voteScores))

/-- `max(..)` takes the first of several. -/
def resolveHighestConfidence (signals : List SourceSignal) : SignalAction × Reasoning :=
  match signals.argmax (·.confidence) with
  | some best => (best.action, .highest best.source best.confidence best.action)
  | none => (.hold, .noSignals)

def resolveConservative (voteScores : SignalAction → ℚ) : SignalAction × Reasoning :=
  if 60 / 100 ≤ (top voteScores).2 ∧ (top voteScores).1 ≠ .hold then
    ((top voteScores).1, .strongConsensus (top voteScores))
  else (.hold, .noConsensus (top voteScores))

def resolve (strategy : ConflictResolutionStrategy) (voteScores : SignalAction → ℚ)
    (signals : List SourceSignal) : SignalAction × Reasoning :=
  match strategy with
  | .weightedMajority => resolveWeightedMajority voteScores
  | .highestConfidence => resolveHighestConfidence signals
  | .conservative => resolveConservative voteScores

/-! ### The fused signal -/

def agreeingWith (action : SignalAction) (signals : List SourceSignal) : List SourceSignal :=
  signals.filter (·.action = action)

def agreementBonus (agreementRatio : ℚ) : ℚ :=
  if 8 / 10 ≤ agreementRatio then 10 / 100
  else if 6 / 10 ≤ agreementRatio then 5 / 100
  else 0

def calculateFusedConfidence (action : SignalAction) (signals : List SourceSignal)
    (agreementRatio : ℚ) (voteScores : SignalAction → ℚ) : ℚ :=
  let agreeingConfidences := (agreeingWith action signals).map (·.confidence)
  let avgAgreeConf :=
    if agreeingConfidences.isEmpty then 30 / 100
    else agreeingConfidences.sum / agreeingConfidences.length
  let confidence := voteScores action * (1 / 2) + avgAgreeConf * (1 / 2) +
    agreementBonus agreementRatio
  min (95 / 100) (max (30 / 100) confidence)

/-- The weights of the input are written over, in the signals of the outcome too. -/
def fuseSignals (symbol : String) (sourceSignals : List SourceSignal)
    (sourceWeights : Option (List (String × ℚ))) (strategy : ConflictResolutionStrategy) :
    FusedSignal :=
  if sourceSignals.isEmpty then
    { symbol := symbol, action := .hold, confidence := 30 / 100, sourceSignals := [],
      agreementRatio := 0, conflictResolutionApplied := "", reasoning := .noSignals }
  else
    let signals := applyWeights sourceWeights sourceSignals
    let voteScores := (voteTally signals).normalized
    let outcome := resolve strategy voteScores signals
    let agreementRatio := ((agreeingWith outcome.1 signals).length : ℚ) / signals.length
    { symbol := symbol
      action := outcome.1
      confidence := calculateFusedConfidence outcome.1 signals agreementRatio voteScores
      sourceSignals := signals
      agreementRatio := agreementRatio
      conflictResolutionApplied := strategy.value
      reasoning := outcome.2 }

/-! ### Sides exchanged -/

def opposite : SignalAction → SignalAction
  | .buy => .sell
  | .sell => .buy
  | .hold => .hold

@[simp]
theorem opposite_opposite (a : SignalAction) : opposite (opposite a) = a := by cases a <;> rfl

theorem opposite_eq_iff (a b : SignalAction) : opposite a = b ↔ a = opposite b := by
  constructor
  · rintro rfl
    exact (opposite_opposite a).symm
  · rintro rfl
    exact opposite_opposite b

def SourceSignal.opposite (sig : SourceSignal) : SourceSignal :=
  { sig with action := SignalFusion.opposite sig.action }

def oppositeScore (x : Score) : Score := (opposite x.1, x.2)

def Reasoning.opposite : Reasoning → Reasoning
  | .noSignals => .noSignals
  | .nearTie top runnerUp => .nearTie (oppositeScore top) (oppositeScore runnerUp)
  | .majority top runnerUp => .majority (oppositeScore top) (oppositeScore runnerUp)
  | .highest source confidence action => .highest source confidence (SignalFusion.opposite action)
  | .strongConsensus top => .strongConsensus (oppositeScore top)
  | .noConsensus top => .noConsensus (oppositeScore top)

/-- The sum of weight times confidence over the signals of an action. -/
def tally (signals : List SourceSignal) (action : SignalAction) : ℚ :=
  ((agreeingWith action signals).map fun sig => sig.weight * sig.confidence).sum

/-- The highest of all. -/
def Leads (score : SignalAction → ℚ) (action : SignalAction) : Prop :=
  ∀ other, other ≠ action → score other < score action

/-- Two actions share the highest score, and it is as said. -/
def SharedTop (score : SignalAction → ℚ) (said : ℚ → Prop) : Prop :=
  ∃ a b, a ≠ b ∧ score a = score b ∧ (∀ other, score other ≤ score a) ∧ said (score a)

/-! ### The vote, summed -/

theorem foldl_add_eq (signals : List SourceSignal) (t : VoteTally) :
    signals.foldl VoteTally.add t =
      ⟨fun a => t.voteScores a + tally signals a,
        t.totalWeight + (signals.map (·.weight)).sum⟩ := by
  induction signals generalizing t with
  | nil => simp [tally, agreeingWith]
  | cons sig signals ih =>
    rw [List.foldl_cons, ih]
    congr 1
    · funext a
      by_cases ha : sig.action = a
      · subst ha
        simp [VoteTally.add, tally, agreeingWith, add_assoc]
      · simp [VoteTally.add, tally, agreeingWith, ha, Function.update_of_ne (Ne.symm ha)]
    · simp [VoteTally.add, add_assoc]

/-- What the tallies are divided by. -/
def divisor (signals : List SourceSignal) : ℚ :=
  if 0 < (signals.map (·.weight)).sum then (signals.map (·.weight)).sum else 1

theorem divisor_pos (signals : List SourceSignal) : 0 < divisor signals := by
  unfold divisor
  split_ifs with hpos
  · exact hpos
  · exact one_pos

theorem normalized_voteTally (signals : List SourceSignal) :
    (voteTally signals).normalized = fun a => tally signals a / divisor signals := by
  funext a
  simp only [voteTally, foldl_add_eq, VoteTally.normalized, divisor, Pi.zero_apply, zero_add]
  split_ifs
  · rfl
  · rw [div_one]

theorem agreeingWith_opposite (a : SignalAction) (signals : List SourceSignal) :
    agreeingWith (opposite a) (signals.map SourceSignal.opposite) =
      (agreeingWith a signals).map SourceSignal.opposite := by
  rw [agreeingWith, agreeingWith, List.filter_map]
  congr 2
  funext sig
  simp [SourceSignal.opposite, opposite_eq_iff]

theorem tally_opposite (signals : List SourceSignal) (a : SignalAction) :
    tally (signals.map SourceSignal.opposite) (opposite a) = tally signals a := by
  rw [tally, agreeingWith_opposite, List.map_map]
  rfl

/-! ### The order of the actions -/

/-- The two best actions. HOLD comes last of those with one score. -/
structure Ranks (score : SignalAction → ℚ) (first second : Score) : Prop where
  first_eq : first.2 = score first.1
  second_eq : second.2 = score second.1
  ne : second.1 ≠ first.1
  second_le : second.2 ≤ first.2
  rest_le : ∀ other, other ≠ first.1 → score other ≤ second.2
  hold_lt : first.1 = .hold → second.2 < first.2

/-- The sort of three, written out. -/
theorem sortedActions_eq {score : SignalAction → ℚ} {buy sell hold : ℚ}
    (hbuy : score .buy = buy) (hsell : score .sell = sell) (hhold : score .hold = hold) :
    sortedActions score =
      if hold ≤ sell then
        if sell ≤ buy then [(.buy, buy), (.sell, sell), (.hold, hold)]
        else if hold ≤ buy then [(.sell, sell), (.buy, buy), (.hold, hold)]
        else [(.sell, sell), (.hold, hold), (.buy, buy)]
      else
        if hold ≤ buy then [(.buy, buy), (.hold, hold), (.sell, sell)]
        else if sell ≤ buy then [(.hold, hold), (.buy, buy), (.sell, sell)]
        else [(.hold, hold), (.sell, sell), (.buy, buy)] := by
  subst hbuy hsell hhold
  by_cases hsell : score .hold ≤ score .sell
  · simp only [sortedActions, List.insertionSort_cons, List.insertionSort_nil,
      List.orderedInsert_nil, List.orderedInsert_cons, if_pos hsell]
    split_ifs <;> rfl
  · simp only [sortedActions, List.insertionSort_cons, List.insertionSort_nil,
      List.orderedInsert_nil, List.orderedInsert_cons, if_neg hsell]
    split_ifs <;> rfl

theorem ranks_of {score : SignalAction → ℚ} (a b c : SignalAction) (hne : b ≠ a)
    (hall : ∀ other, other = a ∨ other = b ∨ other = c) (hab : score b ≤ score a)
    (hbc : score c ≤ score b) (hhold : a = .hold → score b < score a) :
    Ranks score (a, score a) (b, score b) := by
  refine ⟨rfl, rfl, hne, hab, ?_, hhold⟩
  intro other hother
  rcases hall other with rfl | rfl | rfl
  · exact absurd rfl hother
  · exact le_rfl
  · exact hbc

theorem ranks (score : SignalAction → ℚ) : Ranks score (top score) (runnerUp score) := by
  rw [top, runnerUp, sortedActions_eq rfl rfl rfl]
  split_ifs with hsell hbuy hhold hbuy hhold
  · apply ranks_of .buy .sell .hold (by decide) _ hbuy hsell (by simp)
    rintro (_ | _ | _) <;> simp
  · apply ranks_of .sell .buy .hold (by decide) _ (le_of_not_ge hbuy) hhold (by simp)
    rintro (_ | _ | _) <;> simp
  · apply ranks_of .sell .hold .buy (by decide) _ hsell (le_of_not_ge hhold) (by simp)
    rintro (_ | _ | _) <;> simp
  · apply ranks_of .buy .hold .sell (by decide) _ hbuy (le_of_not_ge hsell) (by simp)
    rintro (_ | _ | _) <;> simp
  · apply ranks_of .hold .buy .sell (by decide) _ (le_of_not_ge hbuy) hhold
      fun _ => lt_of_not_ge hbuy
    rintro (_ | _ | _) <;> simp
  · apply ranks_of .hold .sell .buy (by decide) _ (le_of_not_ge hsell) (le_of_not_ge hhold)
      fun _ => lt_of_not_ge hsell
    rintro (_ | _ | _) <;> simp

theorem ranked_opposite_of_lt {score : SignalAction → ℚ} (hlt : score .buy < score .sell) :
    top (score ∘ opposite) = oppositeScore (top score) ∧
      runnerUp (score ∘ opposite) = oppositeScore (runnerUp score) := by
  have hback : sortedActions (score ∘ opposite) = _ :=
    sortedActions_eq (show _ = score .sell from rfl) (show _ = score .buy from rfl)
      (show _ = score .hold from rfl)
  have hsell : ¬ score .sell ≤ score .buy := not_le_of_gt hlt
  simp only [top, runnerUp, hback, sortedActions_eq rfl rfl rfl, if_pos hlt.le, if_neg hsell]
  by_cases hhold : score .hold ≤ score .buy
  · rw [if_pos hhold, if_pos (hhold.trans hlt.le), if_pos hhold]
    exact ⟨rfl, rfl⟩
  · rw [if_neg hhold, if_neg hhold, if_neg hhold]
    split_ifs
    · exact ⟨rfl, rfl⟩
    · exact ⟨rfl, rfl⟩

/-- Where the sides have different scores, to exchange them is to exchange their places. -/
theorem ranked_opposite {score : SignalAction → ℚ} (hne : score .buy ≠ score .sell) :
    top (score ∘ opposite) = oppositeScore (top score) ∧
      runnerUp (score ∘ opposite) = oppositeScore (runnerUp score) := by
  rcases hne.lt_or_gt with hlt | hgt
  · exact ranked_opposite_of_lt hlt
  · have hback : (score ∘ opposite) ∘ opposite = score := by
      funext a
      rw [Function.comp_apply, Function.comp_apply, opposite_opposite]
    have hopp : (score ∘ opposite) .buy < (score ∘ opposite) .sell := hgt
    obtain ⟨htop, hrunner⟩ := ranked_opposite_of_lt hopp
    rw [hback] at htop hrunner
    rw [htop, hrunner]
    simp only [oppositeScore, opposite_opposite, Prod.mk.eta, and_self]

/-- Where they have the same, nothing changes. -/
theorem comp_opposite_of_eq {score : SignalAction → ℚ} (heq : score .buy = score .sell) :
    score ∘ opposite = score := by
  funext a
  cases a
  · exact heq.symm
  · exact heq
  · rfl

/-! ### The ways to resolve a conflict -/

theorem leads_top_iff (score : SignalAction → ℚ) :
    Leads score (top score).1 ↔ (runnerUp score).2 < (top score).2 := by
  have h := ranks score
  constructor
  · intro hleads
    have hlt := hleads _ h.ne
    rwa [← h.first_eq, ← h.second_eq] at hlt
  · intro hlt other hother
    rw [← h.first_eq]
    exact (h.rest_le other hother).trans_lt hlt

theorem le_top (score : SignalAction → ℚ) (a : SignalAction) : score a ≤ (top score).2 := by
  have h := ranks score
  by_cases ha : a = (top score).1
  · rw [ha, h.first_eq]
  · exact (h.rest_le a ha).trans h.second_le

theorem sharedTop_iff (score : SignalAction → ℚ) (said : ℚ → Prop) :
    SharedTop score said ↔ (runnerUp score).2 = (top score).2 ∧ said (top score).2 := by
  have h := ranks score
  constructor
  · rintro ⟨a, b, hne, heq, hmax, hsaid⟩
    have htop : score a = (top score).2 := by
      apply le_antisymm (le_top score a)
      rw [h.first_eq]
      exact hmax _
    rw [htop] at heq hsaid
    refine ⟨le_antisymm h.second_le ?_, hsaid⟩
    -- One of the two is not the top.
    by_cases ha : a = (top score).1
    · rw [heq]
      exact h.rest_le b fun hb => hne (ha.trans hb.symm)
    · rw [← htop]
      exact h.rest_le a ha
  · rintro ⟨heq, hsaid⟩
    refine ⟨(top score).1, (runnerUp score).1, h.ne.symm, ?_, ?_, ?_⟩
    · rw [← h.first_eq, ← h.second_eq, heq]
    · intro other
      rw [← h.first_eq]
      exact le_top score other
    · rwa [← h.first_eq]

theorem weightedMajority_leads_iff (score : SignalAction → ℚ) :
    ((resolveWeightedMajority score).1 ≠ .hold → Leads score (resolveWeightedMajority score).1) ↔
      ¬ SharedTop score (· ≤ 0) := by
  have h := ranks score
  rw [sharedTop_iff, resolveWeightedMajority]
  split_ifs with hnear
  · apply iff_of_true
    · exact fun hne => absurd rfl hne
    · rintro ⟨heq, hle⟩
      linarith [hnear.1]
  · -- no near tie: the top is taken, which leads unless it is shared at zero or below
    rw [leads_top_iff]
    constructor
    · rintro hleads ⟨heq, -⟩
      have hside : (top score).1 ≠ .hold := fun hhold => (h.hold_lt hhold).ne heq
      exact (hleads hside).ne heq
    · intro htie _
      apply lt_of_le_of_ne h.second_le
      intro heq
      have hpos : 0 < (top score).2 := not_le.mp fun hle => htie ⟨heq, hle⟩
      exact hnear ⟨by linarith, by linarith⟩

theorem conservative_leads_iff (score : SignalAction → ℚ) :
    ((resolveConservative score).1 ≠ .hold → Leads score (resolveConservative score).1) ↔
      ¬ SharedTop score (60 / 100 ≤ ·) := by
  have h := ranks score
  rw [sharedTop_iff, resolveConservative]
  split_ifs with hact
  · rw [leads_top_iff]
    constructor
    · rintro hleads ⟨heq, -⟩
      exact (hleads hact.2).ne heq
    · intro htie _
      exact lt_of_le_of_ne h.second_le fun heq => htie ⟨heq, hact.1⟩
  · apply iff_of_true
    · exact fun hne => absurd rfl hne
    · rintro ⟨heq, hle⟩
      exact hact ⟨hle, fun hhold => (h.hold_lt hhold).ne heq⟩

/-! ### Neutral and conservative -/

/-- `g` is `f` with the sides exchanged. Its text has the sides exchanged too, or is the same. -/
structure FusedSignal.Mirrors (f g : FusedSignal) : Prop where
  symbol : g.symbol = f.symbol
  action : g.action = opposite f.action
  confidence : g.confidence = f.confidence
  sourceSignals : g.sourceSignals = f.sourceSignals.map SourceSignal.opposite
  agreementRatio : g.agreementRatio = f.agreementRatio
  conflictResolutionApplied : g.conflictResolutionApplied = f.conflictResolutionApplied
  reasoning : g.reasoning = f.reasoning.opposite ∨ g.reasoning = f.reasoning

section
variable (symbol : String) (sourceSignals : List SourceSignal)
  (sourceWeights : Option (List (String × ℚ))) (strategy : ConflictResolutionStrategy)

/-- Signals with the sides exchanged are fused alike, and a side is taken only where it has more
weighted votes than each other action. -/
structure NeutralAndConservative : Prop where
  neutral : (fuseSignals symbol sourceSignals sourceWeights strategy).Mirrors
    (fuseSignals symbol (sourceSignals.map SourceSignal.opposite) sourceWeights strategy)
  conservative : (fuseSignals symbol sourceSignals sourceWeights strategy).action ≠ .hold →
    Leads (tally (applyWeights sourceWeights sourceSignals))
      (fuseSignals symbol sourceSignals sourceWeights strategy).action

/-- Two actions do not share a highest tally that is not positive, or one of the votes that is
acted on; the one source that is followed says HOLD, or what the tally says. -/
def Decided : ConflictResolutionStrategy → Prop
  | .weightedMajority => ¬ SharedTop (tally (applyWeights sourceWeights sourceSignals)) (· ≤ 0)
  | .highestConfidence =>
    ∀ best ∈ (applyWeights sourceWeights sourceSignals).argmax (·.confidence),
      best.action = .hold ∨ Leads (tally (applyWeights sourceWeights sourceSignals)) best.action
  | .conservative =>
    ¬ SharedTop (fun a => tally (applyWeights sourceWeights sourceSignals) a /
      divisor (applyWeights sourceWeights sourceSignals)) (60 / 100 ≤ ·)

end

theorem applyWeights_opposite (sourceWeights : Option (List (String × ℚ)))
    (signals : List SourceSignal) :
    applyWeights sourceWeights (signals.map SourceSignal.opposite) =
      (applyWeights sourceWeights signals).map SourceSignal.opposite := by
  rw [applyWeights, applyWeights, List.map_map, List.map_map]
  rfl

theorem normalized_opposite (signals : List SourceSignal) :
    (voteTally (signals.map SourceSignal.opposite)).normalized =
      (voteTally signals).normalized ∘ opposite := by
  have hdivisor : divisor (signals.map SourceSignal.opposite) = divisor signals := by
    rw [divisor, divisor, List.map_map]
    rfl
  rw [normalized_voteTally, normalized_voteTally, hdivisor]
  funext a
  have htally := tally_opposite signals (opposite a)
  rw [opposite_opposite] at htally
  rw [htally, Function.comp_apply]

theorem argmax_opposite (signals : List SourceSignal) :
    (signals.map SourceSignal.opposite).argmax (·.confidence) =
      (signals.argmax (·.confidence)).map SourceSignal.opposite := by
  induction signals using List.reverseRecOn with
  | nil => rfl
  | append_singleton signals sig ih =>
    rw [List.map_append, List.map_singleton, List.argmax_concat, List.argmax_concat, ih]
    cases signals.argmax (·.confidence) with
    | none => rfl
    | some best =>
      exact (apply_ite (Option.map SourceSignal.opposite) (best.confidence < sig.confidence)
        (some sig) (some best)).symm

/-- Where the sides have the same score, an outcome that respects the scores is HOLD. -/
theorem eq_hold_of_leads {score : SignalAction → ℚ} (heq : score .buy = score .sell)
    {a : SignalAction} (hleads : a ≠ .hold → Leads score a) : a = .hold := by
  cases a with
  | buy => exact absurd heq.symm (hleads (by decide) .sell (by decide)).ne
  | sell => exact absurd heq (hleads (by decide) .buy (by decide)).ne
  | hold => rfl

/-- `y` is `x` with the sides exchanged, in the text or not. -/
def OppositeOutcome (x y : SignalAction × Reasoning) : Prop :=
  y.1 = opposite x.1 ∧ (y.2 = x.2.opposite ∨ y.2 = x.2)

theorem oppositeOutcome_of_eq_hold {x : SignalAction × Reasoning} (hhold : x.1 = .hold) :
    OppositeOutcome x x := by
  refine ⟨?_, Or.inr rfl⟩
  rw [hhold]
  rfl

theorem resolveWeightedMajority_opposite {score : SignalAction → ℚ}
    (hne : score .buy ≠ score .sell) :
    OppositeOutcome (resolveWeightedMajority score)
      (resolveWeightedMajority (score ∘ opposite)) := by
  obtain ⟨htop, hrunner⟩ := ranked_opposite hne
  simp only [resolveWeightedMajority, htop, hrunner, oppositeScore]
  split_ifs
  · exact ⟨rfl, Or.inl rfl⟩
  · exact ⟨rfl, Or.inl rfl⟩

theorem resolveConservative_opposite {score : SignalAction → ℚ} (hne : score .buy ≠ score .sell) :
    OppositeOutcome (resolveConservative score) (resolveConservative (score ∘ opposite)) := by
  have hhold : opposite (top score).1 ≠ .hold ↔ (top score).1 ≠ .hold :=
    not_congr (opposite_eq_iff _ _)
  simp only [resolveConservative, (ranked_opposite hne).1, oppositeScore, hhold]
  split_ifs
  · exact ⟨rfl, Or.inl rfl⟩
  · exact ⟨rfl, Or.inl rfl⟩

theorem resolveHighestConfidence_opposite (signals : List SourceSignal) :
    OppositeOutcome (resolveHighestConfidence signals)
      (resolveHighestConfidence (signals.map SourceSignal.opposite)) := by
  rw [resolveHighestConfidence, resolveHighestConfidence, argmax_opposite]
  cases signals.argmax (·.confidence) with
  | none => exact ⟨rfl, Or.inl rfl⟩
  | some best => exact ⟨rfl, Or.inl rfl⟩

/-- The outcome, with the sides exchanged in the scores and in the signals. -/
theorem resolve_opposite {strategy : ConflictResolutionStrategy} {score : SignalAction → ℚ}
    {signals : List SourceSignal} (hleads : strategy ≠ .highestConfidence →
      (resolve strategy score signals).1 ≠ .hold →
        Leads score (resolve strategy score signals).1) :
    OppositeOutcome (resolve strategy score signals)
      (resolve strategy (score ∘ opposite) (signals.map SourceSignal.opposite)) := by
  cases strategy with
  | highestConfidence => exact resolveHighestConfidence_opposite signals
  | weightedMajority =>
    -- sides with one score are not exchanged in the sort, and then neither of them leads
    by_cases heq : score .buy = score .sell
    · rw [comp_opposite_of_eq heq]
      exact oppositeOutcome_of_eq_hold (eq_hold_of_leads heq (hleads (by decide)))
    · exact resolveWeightedMajority_opposite heq
  | conservative =>
    by_cases heq : score .buy = score .sell
    · rw [comp_opposite_of_eq heq]
      exact oppositeOutcome_of_eq_hold (eq_hold_of_leads heq (hleads (by decide)))
    · exact resolveConservative_opposite heq

theorem calculateFusedConfidence_opposite (a : SignalAction) (signals : List SourceSignal)
    (ratio : ℚ) (score : SignalAction → ℚ) :
    calculateFusedConfidence (opposite a) (signals.map SourceSignal.opposite) ratio
      (score ∘ opposite) = calculateFusedConfidence a signals ratio score := by
  have hconf : ((agreeingWith a signals).map SourceSignal.opposite).map (·.confidence) =
      (agreeingWith a signals).map (·.confidence) := List.map_map
  simp only [calculateFusedConfidence, agreeingWith_opposite, hconf, Function.comp_apply,
    opposite_opposite]

section
variable {symbol : String} {sourceSignals : List SourceSignal}
  {sourceWeights : Option (List (String × ℚ))} {strategy : ConflictResolutionStrategy}

/-- The outcome of signals there are. -/
theorem fuseSignals_of_ne_nil (hne : sourceSignals ≠ []) :
    (fuseSignals symbol sourceSignals sourceWeights strategy).action =
      (resolve strategy (voteTally (applyWeights sourceWeights sourceSignals)).normalized
        (applyWeights sourceWeights sourceSignals)).1 := by
  rw [fuseSignals, if_neg (by simpa using hne)]

theorem mirrors_of_opposite (hne : sourceSignals ≠ [])
    (hopp : OppositeOutcome
      (resolve strategy (voteTally (applyWeights sourceWeights sourceSignals)).normalized
        (applyWeights sourceWeights sourceSignals))
      (resolve strategy
        ((voteTally (applyWeights sourceWeights sourceSignals)).normalized ∘ opposite)
        ((applyWeights sourceWeights sourceSignals).map SourceSignal.opposite))) :
    (fuseSignals symbol sourceSignals sourceWeights strategy).Mirrors
      (fuseSignals symbol (sourceSignals.map SourceSignal.opposite) sourceWeights strategy) := by
  obtain ⟨haction, hreasoning⟩ := hopp
  have hratio : ∀ a (signals : List SourceSignal),
      ((agreeingWith (opposite a) (signals.map SourceSignal.opposite)).length : ℚ) /
        (signals.map SourceSignal.opposite).length =
      ((agreeingWith a signals).length : ℚ) / signals.length := by
    intro a signals
    rw [agreeingWith_opposite, List.length_map, List.length_map]
  rw [fuseSignals, fuseSignals, if_neg (by simpa using hne), if_neg (by simpa using hne)]
  simp only [applyWeights_opposite, normalized_opposite]
  refine ⟨rfl, haction, ?_, rfl, ?_, rfl, hreasoning⟩
  · simp only [haction, hratio, calculateFusedConfidence_opposite]
  · simp only [haction, hratio]

theorem leads_normalized_iff (signals : List SourceSignal) (a : SignalAction) :
    Leads (voteTally signals).normalized a ↔ Leads (tally signals) a := by
  simp only [normalized_voteTally, Leads, div_lt_div_iff_of_pos_right (divisor_pos signals)]

theorem sharedTop_normalized_iff (signals : List SourceSignal) :
    SharedTop (voteTally signals).normalized (· ≤ 0) ↔ SharedTop (tally signals) (· ≤ 0) := by
  have hpos := divisor_pos signals
  simp only [normalized_voteTally, SharedTop, div_left_inj' hpos.ne',
    div_le_div_iff_of_pos_right hpos, div_le_iff₀ hpos, zero_mul]

/-- The outcome respects the tally just where the conflict is decided. -/
theorem leads_resolve_iff :
    ((resolve strategy (voteTally (applyWeights sourceWeights sourceSignals)).normalized
          (applyWeights sourceWeights sourceSignals)).1 ≠ .hold →
        Leads (tally (applyWeights sourceWeights sourceSignals))
          (resolve strategy (voteTally (applyWeights sourceWeights sourceSignals)).normalized
            (applyWeights sourceWeights sourceSignals)).1) ↔
      Decided sourceSignals sourceWeights strategy := by
  cases strategy with
  | weightedMajority =>
    simp only [resolve, Decided]
    rw [← leads_normalized_iff, weightedMajority_leads_iff, sharedTop_normalized_iff]
  | highestConfidence =>
    simp only [resolve, Decided, resolveHighestConfidence]
    cases (applyWeights sourceWeights sourceSignals).argmax (·.confidence) with
    | none => simp
    | some best => simp [or_iff_not_imp_left]
  | conservative =>
    simp only [resolve, Decided]
    rw [← leads_normalized_iff, conservative_leads_iff, normalized_voteTally]

end

/-- A fusion is neutral and conservative just where its conflict is decided. -/
theorem neutralAndConservative_iff (symbol : String) (sourceSignals : List SourceSignal)
    (sourceWeights : Option (List (String × ℚ))) (strategy : ConflictResolutionStrategy) :
    NeutralAndConservative symbol sourceSignals sourceWeights strategy ↔
      sourceSignals = [] ∨ Decided sourceSignals sourceWeights strategy := by
  by_cases hne : sourceSignals = []
  · subst hne
    refine iff_of_true ⟨⟨rfl, rfl, rfl, rfl, rfl, rfl, Or.inl rfl⟩, ?_⟩ (Or.inl rfl)
    exact fun hhold => absurd rfl hhold
  · -- an outcome that leads is exchanged with the sides, so that the second half is enough
    constructor
    · intro h
      have hcons := h.conservative
      rw [fuseSignals_of_ne_nil hne] at hcons
      exact Or.inr (leads_resolve_iff.mp hcons)
    · rintro (hnil | hdecided)
      · exact absurd hnil hne
      · have hleads := leads_resolve_iff.mpr hdecided
        refine ⟨mirrors_of_opposite hne (resolve_opposite ?_), ?_⟩
        · intro _ hside
          exact (leads_normalized_iff _ _).mpr (hleads hside)
        · rw [fuseSignals_of_ne_nil hne]
          exact hleads

theorem silence_nonneg : (0 : ℚ) ≤ 0 := le_rfl

theorem silence_le_one : (0 : ℚ) ≤ 1 := zero_le_one

/-- A source that says HOLD, without confidence. -/
def silentHold : SourceSignal where
  source := "sentiment"
  action := .hold
  confidence := 0
  weight := 1
  confidence_nonneg := silence_nonneg
  confidence_le_one := silence_le_one

/-- It is fused into BUY. -/
theorem silentHold_not_neutralAndConservative :
    ¬ NeutralAndConservative "BTC/USD" [silentHold] none .weightedMajority := by
  intro h
  have hbuy : (fuseSignals "BTC/USD" [silentHold] none .weightedMajority).action = .buy := by
    decide +kernel
  have hleads := h.conservative
  rw [hbuy] at hleads
  have htally : tally (applyWeights none [silentHold]) .sell =
      tally (applyWeights none [silentHold]) .buy := by decide +kernel
  exact (hleads (by decide) .sell (by decide)).ne htally

end TradeStream.SignalFusion
