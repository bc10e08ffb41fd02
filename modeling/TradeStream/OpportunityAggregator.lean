import TradeStream.InsertionDict
import TradeStream.OpportunityScore

/-! `aggregator.py` of `opportunity_scoring`: the consensus of the signals for one trading pair,
and the opportunity that is scored from it. In exact arithmetic. -/
namespace TradeStream.OpportunityEngine
open TradeStream.InsertionDict TradeStream.RoundDecimal TradeStream.OpportunityScore
open scoped List

/-! ### The score of any arguments -/

/-- The arguments of `calculate_opportunity_score`, with nothing assumed of them. -/
structure Inputs where
  confidence : ℚ
  expectedReturn : ℚ
  returnStddev : ℚ
  consensusPct : ℚ
  volatility : ℚ
  minutesAgo : ℚ
  marketRegime : String
  volatilityPercentile : ℚ
  deriving DecidableEq

namespace Inputs
variable (x : Inputs)

def riskAdjusted : ℚ := applySharpeAdjustment x.expectedReturn x.returnStddev

def contributions : Contributions where
  confidence := defaultWeights.confidence * x.confidence * 100
  expectedReturn := defaultWeights.expectedReturn *
    normalized x.riskAdjusted (regimeCaps x.marketRegime).maxReturn * 100
  consensus := defaultWeights.consensus * x.consensusPct * 100
  volatility := defaultWeights.volatility *
    normalized x.volatility (regimeCaps x.marketRegime).maxVolatility * 100
  freshness := defaultWeights.freshness * max 0 (1 - x.minutesAgo / freshnessWindowMin) * 100

def ofFactors (x : Factors) : Inputs where
  confidence := x.confidence
  expectedReturn := x.expectedReturn
  returnStddev := x.returnStddev
  consensusPct := x.consensusPct
  volatility := x.volatility
  minutesAgo := x.minutesAgo
  marketRegime := x.marketRegime
  volatilityPercentile := x.volatilityPercentile

end Inputs

structure Breakdown where
  inputs : Inputs
  riskAdjustedReturn : ℚ
  contributions : Contributions
  deriving DecidableEq

def calculateOpportunityScore (x : Inputs) : ℚ × Breakdown :=
  (roundTo 1 x.contributions.total,
    { inputs := x
      riskAdjustedReturn := roundTo 6 x.riskAdjusted
      contributions := x.contributions.map (roundTo 1) })

/-- On arguments in their documented ranges it is the score of these. -/
theorem calculateOpportunityScore_ofFactors (x : Factors) :
    calculateOpportunityScore (Inputs.ofFactors x) =
      ((Scoring.calculateOpportunityScore x).1,
        { inputs := Inputs.ofFactors x
          riskAdjustedReturn := (Scoring.calculateOpportunityScore x).2.riskAdjustedReturn
          contributions := (Scoring.calculateOpportunityScore x).2.contributions }) := rfl

def detectRegime (volatilityPercentile : ℚ) : String :=
  if 95 / 100 ≤ volatilityPercentile then "extreme"
  else if 80 / 100 ≤ volatilityPercentile then "high_volatility"
  else "normal"

/-! ### The signals -/

/-- A text that is there and not empty. -/
def given (text : Option String) : Option String := text.filter (· ≠ "")

structure ContributingSignal where
  source : String
  signalId : String
  direction : String
  confidence : ℚ
  strategyName : Option String
  expectedReturn : Option ℚ
  returnStddev : Option ℚ
  deriving DecidableEq

/-- The return and the deviation of the signals that agree, by their confidence. -/
def calculateExpectedReturn (signals : List ContributingSignal) (direction : String) : ℚ × ℚ :=
  let agreeing := signals.filter fun s =>
    s.direction = direction ∧ s.expectedReturn.isSome ∧ 0 < s.confidence
  let totalWeight := (agreeing.map ContributingSignal.confidence).sum
  if agreeing = [] ∨ totalWeight ≤ 0 then (1 / 100, 0)
  else
    ((agreeing.map fun s => s.expectedReturn.getD 0 * s.confidence).sum / totalWeight,
      (agreeing.map fun s => s.returnStddev.getD 0 * s.confidence).sum / totalWeight)

/-- The signals that vote. -/
def voters (signals : List ContributingSignal) : List ContributingSignal :=
  signals.filter fun s => s.direction = "BUY" ∨ s.direction = "SELL"

def directionVotes (signals : List ContributingSignal) : List (String × ℚ) :=
  sumsOf ContributingSignal.direction ContributingSignal.confidence (voters signals)

def directionCounts (signals : List ContributingSignal) : List (String × ℕ) :=
  sumsOf ContributingSignal.direction (fun _ => 1) (voters signals)

structure Consensus where
  direction : String
  consensusPct : ℚ
  agreeing : ℕ
  total : ℕ

/-- Of directions with equal votes the one that came first wins. -/
def computeConsensus (signals : List ContributingSignal) : Consensus :=
  if signals = [] then ⟨"HOLD", 0, 0, 0⟩
  else
    match (directionVotes signals).argmax Prod.snd with
    | none => ⟨"HOLD", 0, 0, signals.length⟩
    | some (winner, _) =>
      let agreeing := ((directionCounts signals).lookup winner).getD 0
      let total := ((directionCounts signals).map Prod.snd).sum
      ⟨winner, if 0 < total then agreeing / total else 0, agreeing, total⟩

def generateReasoning (c : Consensus) (expReturn retStddev vol : ℚ) (regime : String)
    (topStrategy : Option String) : String :=
  let share := "(" ++ toString c.agreeing ++ "/" ++ toString c.total ++ " strategies agree)"
  "; ".intercalate <|
    [if 8 / 10 ≤ c.consensusPct then "Strong strategy consensus " ++ share
      else if 6 / 10 ≤ c.consensusPct then "Moderate strategy consensus " ++ share
      else "Weak consensus " ++ share] ++
    (if 0 < retStddev ∧ 15 / 10 ≤ expReturn / retStddev then
      ["Top strategies have consistent, low-variance returns"]
    else if 0 < retStddev ∧ expReturn / retStddev < 5 / 10 then
      ["Strategy returns show high variance, reducing confidence"]
    else []) ++
    (if 2 / 100 ≤ vol then ["Current volatility offers meaningful upside potential"]
    else if vol < 1 / 100 then ["Low volatility limits upside potential"]
    else []) ++
    (if regime ≠ "normal" then
      ["Market regime is " ++ regime ++ " — normalization caps adjusted"]
    else []) ++
    (topStrategy.toList.map fun name => "Top contributing strategy: " ++ name) ++
    ["Score was locked at creation for ranking stability"]

/-- The first named strategy of the highest confidence. -/
def topStrategy (agreeing : List ContributingSignal) : Option String :=
  (agreeing.foldl (fun best s =>
    match given s.strategyName with
    | some name => if best.2 < s.confidence then (some name, s.confidence) else best
    | none => best) (none, (-1 : ℚ))).1

inductive OpportunityStatus
  | scored
  | signaled
  | entered
  | closed
  | expired
  deriving DecidableEq

/-- Times are microseconds. -/
structure ScoredOpportunity where
  opportunityId : String
  symbol : String
  direction : String
  opportunityScore : ℚ
  tier : String
  scoreBreakdown : Breakdown
  contributingSignals : List ContributingSignal
  strategiesAnalyzed : ℕ
  strategiesAgreeing : ℕ
  topStrategy : Option String
  marketRegime : String
  reasoning : String
  status : OpportunityStatus := .scored
  scoredAt : ℤ
  enteredAt : Option ℤ := none
  closedAt : Option ℤ := none
  outcomeReturn : Option ℚ := none
  deriving DecidableEq

def averageConfidence (agreeing : List ContributingSignal) : ℚ :=
  if agreeing = [] then 0
  else (agreeing.map ContributingSignal.confidence).sum / agreeing.length

/-- What `aggregate_signals` asks the score of. -/
def inputsOf (signals : List ContributingSignal) (c : Consensus)
    (volatility volatilityPercentile : Option ℚ) : Inputs :=
  let volPct := volatilityPercentile.getD (1 / 2)
  { confidence := averageConfidence (signals.filter fun s => s.direction = c.direction)
    expectedReturn := (calculateExpectedReturn signals c.direction).1
    returnStddev := (calculateExpectedReturn signals c.direction).2
    consensusPct := c.consensusPct
    volatility := volatility.getD (15 / 1000)
    -- the score is cached: it is that of a fresh signal
    minutesAgo := 0
    marketRegime := detectRegime volPct
    volatilityPercentile := volPct }

/-- `drawn` is the identifier that `uuid4` gives. -/
def aggregateSignals (now : ℤ) (drawn symbol : String) (signals : List ContributingSignal)
    (volatility volatilityPercentile : Option ℚ) : Option ScoredOpportunity :=
  let c := computeConsensus signals
  if signals = [] ∨ c.direction = "HOLD" then none
  else
    let x := inputsOf signals c volatility volatilityPercentile
    let scored := calculateOpportunityScore x
    let top := topStrategy (signals.filter fun s => s.direction = c.direction)
    some
      { opportunityId := drawn
        symbol := symbol
        direction := c.direction
        opportunityScore := scored.1
        tier := assignTier scored.1
        scoreBreakdown := scored.2
        contributingSignals := signals
        strategiesAnalyzed := c.total
        strategiesAgreeing := c.agreeing
        topStrategy := top
        marketRegime := x.marketRegime
        reasoning :=
          generateReasoning c x.expectedReturn x.returnStddev x.volatility x.marketRegime top
        scoredAt := now }

/-! ### The election -/

section
variable {signals signals' : List ContributingSignal} {c c' : Consensus} {d : String}

def agreeingWith (signals : List ContributingSignal) (d : String) : List ContributingSignal :=
  signals.filter fun s => s.direction = d

def votesFor (signals : List ContributingSignal) (d : String) : ℚ :=
  ((agreeingWith signals d).map ContributingSignal.confidence).sum

theorem mem_voters_iff {s : ContributingSignal} :
    s ∈ voters signals ↔ s ∈ signals ∧ (s.direction = "BUY" ∨ s.direction = "SELL") := by
  rw [voters, List.mem_filter, decide_eq_true_eq]

theorem agreeingWith_voters (hd : d = "BUY" ∨ d = "SELL") :
    agreeingWith (voters signals) d = agreeingWith signals d := by
  rw [agreeingWith, voters, List.filter_filter, agreeingWith]
  apply List.filter_congr
  intro s _
  by_cases hs : s.direction = d
  · subst hs
    simp [hd]
  · simp [hs]

/-- The consensus of signals some of which vote. -/
structure Elected (signals : List ContributingSignal) (c : Consensus) : Prop where
  voter : ∃ s ∈ voters signals, s.direction = c.direction
  most : ∀ s ∈ voters signals, votesFor signals s.direction ≤ votesFor signals c.direction
  agreeing : c.agreeing = (agreeingWith signals c.direction).length
  total : c.total = (voters signals).length
  consensusPct : c.consensusPct = c.agreeing / c.total

theorem getD_lookup_directionVotes (hd : d = "BUY" ∨ d = "SELL") :
    ((directionVotes signals).lookup d).getD 0 = votesFor signals d := by
  rw [directionVotes, getD_lookup_sumsOf, votesFor, ← agreeingWith_voters hd, agreeingWith]

theorem getD_lookup_directionCounts (hd : d = "BUY" ∨ d = "SELL") :
    ((directionCounts signals).lookup d).getD 0 = (agreeingWith signals d).length := by
  rw [directionCounts, getD_lookup_sumsOf, ← agreeingWith_voters hd, agreeingWith, List.map_const',
    List.sum_replicate, smul_eq_mul, mul_one]

theorem sum_directionCounts :
    ((directionCounts signals).map Prod.snd).sum = (voters signals).length := by
  rw [directionCounts, sum_sumsOf, List.map_const', List.sum_replicate, smul_eq_mul, mul_one]

theorem computeConsensus_of_voters_eq_nil (h : voters signals = []) :
    (computeConsensus signals).direction = "HOLD" := by
  rw [computeConsensus]
  split_ifs
  · rfl
  · rw [directionVotes, h]
    rfl

/-- The votes of a direction that has an entry. -/
theorem snd_eq_votesFor {e : String × ℚ} (he : e ∈ directionVotes signals) :
    (∃ s ∈ voters signals, s.direction = e.1) ∧ e.2 = votesFor signals e.1 := by
  have hkey : e.1 ∈ (voters signals).map ContributingSignal.direction := by
    rw [← mem_map_fst_sumsOf_iff ContributingSignal.direction ContributingSignal.confidence]
    exact List.mem_map_of_mem he
  obtain ⟨s, hs, hdirection⟩ := List.mem_map.mp hkey
  refine ⟨⟨s, hs, hdirection⟩, ?_⟩
  have hlookup : (directionVotes signals).lookup e.1 = some e.2 :=
    lookup_eq_some_of_mem (nodup_map_fst_sumsOf _ _ _) he
  rw [← getD_lookup_directionVotes (hdirection ▸ (mem_voters_iff.mp hs).2), hlookup,
    Option.getD_some]

theorem elected_computeConsensus (h : voters signals ≠ []) :
    Elected signals (computeConsensus signals) := by
  have hsignals : signals ≠ [] := fun hnil => h (by rw [hnil]; rfl)
  rw [computeConsensus, if_neg hsignals]
  cases hmax : (directionVotes signals).argmax Prod.snd with
  | none =>
    have hnil := List.argmax_eq_none.mp hmax
    obtain ⟨s, hs⟩ := List.exists_mem_of_ne_nil _ h
    have hkey : s.direction ∈ (directionVotes signals).map Prod.fst :=
      (mem_map_fst_sumsOf_iff _ _ _ _).mpr (List.mem_map_of_mem hs)
    rw [hnil] at hkey
    exact absurd hkey List.not_mem_nil
  | some e =>
    obtain ⟨winner, votes⟩ := e
    obtain ⟨hvoter, hvotes⟩ := snd_eq_votesFor (List.argmax_mem hmax)
    obtain ⟨s, hs, rfl⟩ : ∃ s ∈ voters signals, s.direction = winner := hvoter
    have hd := (mem_voters_iff.mp hs).2
    have htotal : 0 < (voters signals).length := List.length_pos_of_mem hs
    refine ⟨⟨s, hs, rfl⟩, fun t ht => ?_, getD_lookup_directionCounts hd, sum_directionCounts,
      ?_⟩
    · have hkey : t.direction ∈ (directionVotes signals).map Prod.fst :=
        (mem_map_fst_sumsOf_iff _ _ _ _).mpr (List.mem_map_of_mem ht)
      obtain ⟨e, he, hdirection⟩ := List.mem_map.mp hkey
      have hle := List.le_of_mem_argmax he hmax
      rw [(snd_eq_votesFor he).2, hdirection] at hle
      exact hle.trans hvotes.le
    · simp only [sum_directionCounts, if_pos htotal]

theorem agreeingWith_perm (h : voters signals ~ voters signals') (hd : d = "BUY" ∨ d = "SELL") :
    agreeingWith signals d ~ agreeingWith signals' d := by
  have hvoters : agreeingWith (voters signals) d ~ agreeingWith (voters signals') d := h.filter _
  rwa [agreeingWith_voters hd, agreeingWith_voters hd] at hvoters

theorem votesFor_perm (h : voters signals ~ voters signals') (hd : d = "BUY" ∨ d = "SELL") :
    votesFor signals d = votesFor signals' d :=
  ((agreeingWith_perm h hd).map _).sum_eq

/-- Not as many votes for the one as for the other, where both have any. -/
def Clear (signals : List ContributingSignal) : Prop :=
  agreeingWith signals "BUY" ≠ [] → agreeingWith signals "SELL" ≠ [] →
    votesFor signals "BUY" ≠ votesFor signals "SELL"

theorem Elected.direction_mem (h : Elected signals c) :
    c.direction = "BUY" ∨ c.direction = "SELL" := by
  obtain ⟨s, hs, hdirection⟩ := h.voter
  exact hdirection ▸ (mem_voters_iff.mp hs).2

theorem Elected.agreeingWith_ne_nil (h : Elected signals c) :
    agreeingWith signals c.direction ≠ [] := by
  obtain ⟨s, hs, hdirection⟩ := h.voter
  apply List.ne_nil_of_mem
  rw [agreeingWith, List.mem_filter]
  exact ⟨(mem_voters_iff.mp hs).1, decide_eq_true hdirection⟩

theorem Elected.votesFor_le (h : Elected signals c) (hd : d = "BUY" ∨ d = "SELL")
    (hne : agreeingWith signals d ≠ []) : votesFor signals d ≤ votesFor signals c.direction := by
  obtain ⟨s, hs⟩ := List.exists_mem_of_ne_nil _ hne
  obtain ⟨hmem, hdirection⟩ := List.mem_filter.mp hs
  have hdirection := of_decide_eq_true hdirection
  exact hdirection ▸ h.most s (mem_voters_iff.mpr ⟨hmem, hdirection ▸ hd⟩)

/-- Where the votes are clear their order does not matter. -/
theorem Elected.direction_eq (h : Elected signals c) (h' : Elected signals' c')
    (hperm : voters signals ~ voters signals') (hclear : Clear signals) :
    c.direction = c'.direction := by
  have hne := h.agreeingWith_ne_nil
  have hne' : agreeingWith signals c'.direction ≠ [] := by
    intro hnil
    apply h'.agreeingWith_ne_nil
    have hnone := agreeingWith_perm hperm h'.direction_mem
    rw [hnil] at hnone
    exact hnone.nil_eq.symm
  have hle := h.votesFor_le h'.direction_mem hne'
  have hge : votesFor signals c.direction ≤ votesFor signals c'.direction := by
    rw [votesFor_perm hperm h.direction_mem, votesFor_perm hperm h'.direction_mem]
    apply h'.votesFor_le h.direction_mem
    intro hnil
    have hnone := agreeingWith_perm hperm h.direction_mem
    rw [hnil] at hnone
    exact hne hnone.eq_nil
  have heq := le_antisymm hge hle
  rcases h.direction_mem with hbuy | hsell
  · rcases h'.direction_mem with hbuy' | hsell'
    · rw [hbuy, hbuy']
    · rw [hbuy] at hne heq
      rw [hsell'] at hne' heq
      exact absurd heq (hclear hne hne')
  · rcases h'.direction_mem with hbuy' | hsell'
    · rw [hsell] at hne heq
      rw [hbuy'] at hne' heq
      exact absurd heq.symm (hclear hne' hne)
    · rw [hsell, hsell']

theorem computeConsensus_perm (hperm : voters signals ~ voters signals') (hclear : Clear signals)
    (hvoters : voters signals ≠ []) : computeConsensus signals = computeConsensus signals' := by
  have hvoters' : voters signals' ≠ [] := by
    intro hnil
    rw [hnil] at hperm
    exact hvoters hperm.eq_nil
  have h := elected_computeConsensus hvoters
  have h' := elected_computeConsensus hvoters'
  have hdirection := h.direction_eq h' hperm hclear
  have hagreeing : (computeConsensus signals).agreeing = (computeConsensus signals').agreeing := by
    rw [h.agreeing, h'.agreeing, ← hdirection]
    exact (agreeingWith_perm hperm h.direction_mem).length_eq
  have htotal : (computeConsensus signals).total = (computeConsensus signals').total := by
    rw [h.total, h'.total]
    exact hperm.length_eq
  have hpct := h.consensusPct
  rw [hagreeing, htotal, ← h'.consensusPct] at hpct
  cases hc : computeConsensus signals
  cases hc' : computeConsensus signals'
  rw [hc, hc'] at hdirection hagreeing htotal hpct
  exact Consensus.mk.injEq .. ▸ ⟨hdirection, hpct, hagreeing, htotal⟩

theorem averageConfidence_perm {l l' : List ContributingSignal} (h : l ~ l') :
    averageConfidence l = averageConfidence l' := by
  rw [averageConfidence, averageConfidence, h.length_eq, (h.map _).sum_eq]
  congr 1
  exact propext ⟨fun hnil => (hnil ▸ h).nil_eq.symm, fun hnil => (hnil ▸ h).eq_nil⟩

theorem calculateExpectedReturn_perm (h : agreeingWith signals d ~ agreeingWith signals' d) :
    calculateExpectedReturn signals d = calculateExpectedReturn signals' d := by
  have hfilter : ∀ l : List ContributingSignal,
      (l.filter fun s => s.direction = d ∧ s.expectedReturn.isSome ∧ 0 < s.confidence) =
        (agreeingWith l d).filter fun s => s.expectedReturn.isSome ∧ 0 < s.confidence := by
    intro l
    rw [agreeingWith, List.filter_filter]
    apply List.filter_congr
    intro s _
    by_cases hs : s.direction = d <;> simp [hs]
  have hperm := h.filter fun s => s.expectedReturn.isSome ∧ 0 < s.confidence
  simp only [calculateExpectedReturn, hfilter]
  have hnil : ((agreeingWith signals d).filter fun s =>
      decide (s.expectedReturn.isSome ∧ 0 < s.confidence)) = [] ↔
        ((agreeingWith signals' d).filter fun s =>
          decide (s.expectedReturn.isSome ∧ 0 < s.confidence)) = [] :=
    ⟨fun hnil => (hnil ▸ hperm).nil_eq.symm, fun hnil => (hnil ▸ hperm).eq_nil⟩
  simp only [(hperm.map _).sum_eq, hnil]

/-- What the score is made of and what is made of it, without what the signals are listed for:
they themselves, the name of the top one, and the text that it is in. -/
def ScoredOpportunity.measured (o : ScoredOpportunity) : ScoredOpportunity :=
  { o with contributingSignals := [], topStrategy := none, reasoning := "" }

/-- An opportunity is the same whatever the order in which the signals came, and whatever signals
without a vote came with them, unless both directions have the same votes. -/
theorem aggregateSignals_perm (now : ℤ) (drawn symbol : String)
    (volatility volatilityPercentile : Option ℚ) (hperm : voters signals ~ voters signals')
    (hclear : Clear signals) :
    (aggregateSignals now drawn symbol signals volatility volatilityPercentile).map
        ScoredOpportunity.measured =
      (aggregateSignals now drawn symbol signals' volatility volatilityPercentile).map
        ScoredOpportunity.measured := by
  by_cases hvoters : voters signals = []
  · have hvoters' : voters signals' = [] := by
      rw [hvoters] at hperm
      exact hperm.nil_eq.symm
    simp only [aggregateSignals, computeConsensus_of_voters_eq_nil hvoters,
      computeConsensus_of_voters_eq_nil hvoters', or_true, if_true]
  · have hconsensus := computeConsensus_perm hperm hclear hvoters
    have hd := (elected_computeConsensus hvoters).direction_mem
    have hagreeing := agreeingWith_perm hperm hd
    have hinputs : inputsOf signals (computeConsensus signals) volatility volatilityPercentile =
        inputsOf signals' (computeConsensus signals) volatility volatilityPercentile := by
      have haverage := averageConfidence_perm hagreeing
      rw [agreeingWith, agreeingWith] at haverage
      simp only [inputsOf, calculateExpectedReturn_perm hagreeing, haverage]
    have hhold : (computeConsensus signals).direction ≠ "HOLD" := by
      rcases hd with hd | hd <;> simp [hd]
    have hsignals : signals ≠ [] := fun hnil => hvoters (by rw [hnil]; rfl)
    have hsignals' : signals' ≠ [] := by
      rintro rfl
      exact hvoters hperm.eq_nil
    simp only [aggregateSignals, ← hconsensus, hsignals, hsignals', hhold, or_self, if_false,
      Option.map_some, ScoredOpportunity.measured, hinputs]

def signalTo (direction : String) (confidence : ℚ) : ContributingSignal :=
  ⟨"technical", "s", direction, confidence, some "rsi", some (2 / 100), some (1 / 100)⟩

theorem buySellHold_perm :
    (aggregateSignals 0 "k" "BTC/USD"
        [signalTo "BUY" (9 / 10), signalTo "SELL" (5 / 10), signalTo "HOLD" 1] none none).map
        ScoredOpportunity.measured =
      (aggregateSignals 0 "k" "BTC/USD" [signalTo "SELL" (5 / 10), signalTo "BUY" (9 / 10)] none
        none).map ScoredOpportunity.measured :=
  aggregateSignals_perm 0 "k" "BTC/USD" none none (by decide +kernel)
    (fun _ _ => by decide +kernel)

end

end TradeStream.OpportunityEngine
