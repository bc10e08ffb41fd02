import TradeStream.KeyedTable
import TradeStream.RetirementCriteria

/-! One retirement cycle of the janitor over the tables of strategies. -/
namespace TradeStream.JanitorAgent
open TradeStream.KeyedTable TradeStream.RetirementCriteria

inductive Status where
  | CANDIDATE
  | VALIDATING
  | VALIDATED
  | DEPLOYED
  | RETIRED
  | other (text : String)
  deriving DecidableEq

structure ImplRow where
  specId : String
  symbol : String
  status : Status
  forwardSharpe : Option ℚ
  forwardAccuracy : Option ℚ
  forwardTrades : Option ℤ
  createdAt : ℤ
  updatedAt : Option ℤ

structure SpecRow where
  source : String
  preferredRegime : Option String
  status : Status
  updatedAt : Option ℤ

/-- A row of `retirement_log`. -/
inductive LogRow where
  | implementation (implId reason agentReasoning : String)
  | spec (specId reason : String)

structure Db where
  implementations : Table String ImplRow
  specs : Table String SpecRow
  log : List LogRow

inductive Query where
  | candidates
  | alternatives (implId : String)
  | activeCount
  | retire (implId : String)
  | checkSpec (specId : String)
  | retireSpec (specId : String)

/-- What the other queries of a cycle answer: the trend of an implementation's signals, the
regime of a symbol, and which queries fail. -/
structure Surroundings where
  trend : String → SharpeTrend
  regime : String → String
  fails : Query → Bool

structure Candidate where
  implId : String
  row : ImplRow
  spec : SpecRow

section
variable (formats : Formats) (surroundings : Surroundings) (now : ℤ) (config : RetirementConfig)

/-- The `WHERE` of the query for candidates. A null is not compared. -/
def isCandidate (candidate : Candidate) : Bool :=
  candidate.row.status = .VALIDATED &&
    candidate.row.forwardTrades.any (config.minSignals ≤ ·) &&
    candidate.row.createdAt ≤ now - config.minAgeDays * day &&
    (candidate.row.forwardSharpe.any (· < config.maxSharpe) ||
      candidate.row.forwardAccuracy.any (· < config.maxAccuracy))

/-- The order of the candidates, nulls last. -/
def sharpeLe (first second : Candidate) : Bool :=
  match first.row.forwardSharpe, second.row.forwardSharpe with
  | _, none => true
  | none, some _ => false
  | some a, some b => a ≤ b

def joined (db : Db) : List Candidate :=
  db.implementations.entries.filterMap fun entry =>
    (db.specs.lookup entry.2.specId).map fun spec => ⟨entry.1, entry.2, spec⟩

def getRetirementCandidates (db : Db) : List Candidate :=
  if surroundings.fails .candidates then []
  else (((joined db).filter (isCandidate now config)).mergeSort sharpeLe).take 100

/-- A row that counts as an alternative. -/
def isAlternative (specId symbol : String) (row : ImplRow) : Bool :=
  row.specId = specId && row.symbol = symbol && row.status = .VALIDATED &&
    row.forwardSharpe.any (config.minAlternativeSharpe ≤ ·)

def checkBetterAlternatives (db : Db) (implId specId symbol : String) : Bool :=
  !surroundings.fails (.alternatives implId) &&
    db.implementations.entries.any fun entry => isAlternative config specId symbol entry.2

def implementationOf (candidate : Candidate) : Implementation where
  implId := candidate.implId
  specId := candidate.row.specId
  symbol := candidate.row.symbol
  forwardSharpe := candidate.row.forwardSharpe.getD 0
  forwardAccuracy := candidate.row.forwardAccuracy.getD 0
  forwardTrades := candidate.row.forwardTrades.getD 0
  createdAt := candidate.row.createdAt
  updatedAt := candidate.row.updatedAt
  sharpeTrend := surroundings.trend candidate.implId
  specSource := candidate.spec.source
  preferredRegime := candidate.spec.preferredRegime

def evaluate (db : Db) (candidate : Candidate) : RetirementDecision :=
  evaluateImplementation formats now (implementationOf surroundings candidate) config
    (checkBetterAlternatives surroundings config db candidate.implId candidate.row.specId
      candidate.row.symbol)
    (surroundings.regime candidate.row.symbol)

def activeCount (db : Db) : ℕ :=
  db.implementations.entries.countP fun entry => entry.2.status ≠ .RETIRED

def getActiveImplementationCount (db : Db) : ℕ :=
  if surroundings.fails .activeCount then 0 else activeCount db

def retiredRow (row : ImplRow) : ImplRow :=
  { row with status := .RETIRED, updatedAt := some now }

def executeRetirement (db : Db) (decision : RetirementDecision) : Db × Bool :=
  if surroundings.fails (.retire decision.implId) then (db, false)
  else match db.implementations.lookup decision.implId with
    | none => (db, false)
    | some row =>
      if row.status = .RETIRED then (db, false)
      else
        ({ db with
            implementations := db.implementations.insert decision.implId (retiredRow now row)
            log := db.log ++ [.implementation decision.implId decision.reason
              ("Janitor Agent automated retirement: " ++ decision.reason)] }, true)

/-- One decision after those that have been executed. -/
def executeStep (done : Db × List RetirementDecision) (decision : RetirementDecision) :
    Db × List RetirementDecision :=
  let (db, success) := executeRetirement surroundings now done.1 decision
  (db, if success then done.2 ++ [decision] else done.2)

def executeAll (db : Db) (decisions : List RetirementDecision) : Db × List RetirementDecision :=
  decisions.foldl (executeStep surroundings now) (db, [])

def checkAndRetireSpec (db : Db) (specId : String) : Db × Option RetirementDecision :=
  if surroundings.fails (.checkSpec specId) then (db, none)
  else match db.specs.lookup specId with
    | none => (db, none)
    | some spec =>
      let rows := db.implementations.entries.filter fun entry => entry.2.specId = specId
      let decision := evaluateSpec specId spec.source
        (rows.countP fun entry => entry.2.status ≠ .RETIRED) rows.length
      if decision.shouldRetire && !surroundings.fails (.retireSpec specId) &&
          spec.status ≠ .RETIRED then
        ({ db with
            specs := db.specs.insert specId { spec with status := .RETIRED, updatedAt := some now }
            log := db.log ++ [.spec specId decision.reason] }, some decision)
      else (db, none)

def checkSpecStep (done : Db × List RetirementDecision) (specId : String) :
    Db × List RetirementDecision :=
  let (db, decision) := checkAndRetireSpec surroundings now done.1 specId
  (db, done.2 ++ decision.toList)

structure CycleResult where
  evaluatedCount : ℕ
  retiredImplementations : List RetirementDecision
  retiredSpecs : List RetirementDecision
  protectedCanonical : List RetirementDecision
  skippedBatchLimit : List RetirementDecision
  regimeDeferred : List RetirementDecision

def startsWith (text start : String) : Bool := start.toList.isPrefixOf text.toList

def isProtected (decision : RetirementDecision) : Bool := startsWith decision.reason "CANONICAL"

def isDeferred (decision : RetirementDecision) : Bool :=
  !isProtected decision && startsWith decision.reason "Deferring"

/-- The decisions that come before the batch limits. -/
def toRetire (db : Db) : List RetirementDecision :=
  ((getRetirementCandidates surroundings now config db).map
    (evaluate formats surroundings now config db)).filter fun decision =>
      !isProtected decision && !isDeferred decision && decision.shouldRetire

def approved (db : Db) : List RetirementDecision :=
  (applyBatchLimits (toRetire formats surroundings now config db)
    (getActiveImplementationCount surroundings db) config).1

def runRetirementCycle (db : Db) : Db × CycleResult :=
  let decisions := (getRetirementCandidates surroundings now config db).map
    (evaluate formats surroundings now config db)
  let (executedDb, executed) :=
    executeAll surroundings now db (approved formats surroundings now config db)
  let (finalDb, retiredSpecs) := (executed.map RetirementDecision.specId).dedup.foldl
    (checkSpecStep surroundings now) (executedDb, [])
  (finalDb,
    { evaluatedCount := decisions.length
      retiredImplementations := executed
      retiredSpecs := retiredSpecs
      protectedCanonical := decisions.filter isProtected
      skippedBatchLimit := (applyBatchLimits (toRetire formats surroundings now config db)
        (getActiveImplementationCount surroundings db) config).2
      regimeDeferred := decisions.filter isDeferred })

end

def isRetired (table : Table String ImplRow) (implId : String) : Bool :=
  (table.lookup implId).any (·.status = .RETIRED)

/-- The implementations that a cycle retires. -/
def retiredIds (before after : Db) : List String :=
  before.implementations.keys.filter fun implId =>
    !isRetired before.implementations implId && isRetired after.implementations implId

/-- What is asked of a cycle. -/
structure Safe (config : RetirementConfig) (before after : Db) : Prop where
  canonical : ∀ implId row spec, implId ∈ retiredIds before after →
    before.implementations.lookup implId = some row →
      before.specs.lookup row.specId = some spec → spec.source ≠ "CANONICAL"
  limited : ((retiredIds before after).length : ℤ) ≤
    max 1 (min config.maxRetirementsPerRun
      (truncate (activeCount before * config.maxRetirementPercentage / 100)))
  alternatives : config.requireBetterAlternative = true →
    ∀ implId row, implId ∈ retiredIds before after →
      before.implementations.lookup implId = some row →
        ∃ otherId other sharpe, after.implementations.lookup otherId = some other ∧
          other.specId = row.specId ∧ other.symbol = row.symbol ∧ other.status = .VALIDATED ∧
            other.forwardSharpe = some sharpe ∧ config.minAlternativeSharpe ≤ sharpe

section
variable {formats : Formats} {surroundings : Surroundings} {now : ℤ} {config : RetirementConfig}
  {db : Db}

theorem mem_getRetirementCandidates {candidate : Candidate}
    (h : candidate ∈ getRetirementCandidates surroundings now config db) :
    db.implementations.lookup candidate.implId = some candidate.row ∧
      db.specs.lookup candidate.row.specId = some candidate.spec ∧
        isCandidate now config candidate = true := by
  unfold getRetirementCandidates at h
  split_ifs at h
  · simp at h
  · have hsorted := List.mem_mergeSort.mp (List.mem_of_mem_take h)
    obtain ⟨hjoined, hcandidate⟩ := List.mem_filter.mp hsorted
    obtain ⟨entry, hentry, hspec⟩ := List.mem_filterMap.mp hjoined
    obtain ⟨spec, hlookup, rfl⟩ := Option.map_eq_some_iff.mp hspec
    exact ⟨AList.mem_lookup_iff.mpr hentry, hlookup, hcandidate⟩

theorem implId_evaluate (candidate : Candidate) :
    (evaluate formats surroundings now config db candidate).implId = candidate.implId :=
  implId_evaluateImplementation ..

/-- An approved decision is about a candidate that is due. -/
theorem due_of_mem_approved {decision : RetirementDecision}
    (h : decision ∈ approved formats surroundings now config db) :
    ∃ candidate ∈ getRetirementCandidates surroundings now config db,
      decision.implId = candidate.implId ∧
        Due now (implementationOf surroundings candidate) config
          (checkBetterAlternatives surroundings config db candidate.implId candidate.row.specId
            candidate.row.symbol)
          (surroundings.regime candidate.row.symbol) := by
  obtain ⟨happroved, -⟩ := approved_of_applyBatchLimits (toRetire formats surroundings now config db)
    (getActiveImplementationCount surroundings db) config
  obtain ⟨hmem, hretire⟩ := happroved decision h
  obtain ⟨candidate, hcandidate, rfl⟩ := List.mem_map.mp (List.mem_filter.mp hmem).1
  exact ⟨candidate, hcandidate, implId_evaluate candidate, (shouldRetire_iff ..).mp hretire⟩

theorem lookup_executeAll {implId : String} (decisions : List RetirementDecision)
    (h : ∀ decision ∈ decisions, decision.implId ≠ implId) :
    (executeAll surroundings now db decisions).1.implementations.lookup implId =
      db.implementations.lookup implId := by
  apply List.foldlRecOn (motive := fun done : Db × List RetirementDecision =>
    done.1.implementations.lookup implId = db.implementations.lookup implId)
  · rfl
  -- each decision writes its own implementation at most
  · intro done hdone decision hdecision
    rw [← hdone]
    simp only [executeStep, executeRetirement]
    split_ifs
    · rfl
    · cases hlookup : done.1.implementations.lookup decision.implId with
      | none => rfl
      | some row =>
        dsimp only
        split_ifs
        · rfl
        · exact AList.lookup_insert_ne (Ne.symm (h decision hdecision))

theorem implementations_executeAll_singleton {decision : RetirementDecision} {row : ImplRow}
    (hfails : surroundings.fails (.retire decision.implId) = false)
    (hrow : db.implementations.lookup decision.implId = some row) (hlive : row.status ≠ .RETIRED) :
    (executeAll surroundings now db [decision]).1.implementations =
      db.implementations.insert decision.implId (retiredRow now row) := by
  simp [executeAll, executeStep, executeRetirement, hfails, hrow, hlive]

theorem implementations_checkAndRetireSpec (specId : String) :
    (checkAndRetireSpec surroundings now db specId).1.implementations = db.implementations := by
  unfold checkAndRetireSpec
  split_ifs
  · rfl
  · cases db.specs.lookup specId with
    | none => rfl
    | some spec =>
      dsimp only
      split_ifs <;> rfl

theorem implementations_runRetirementCycle :
    (runRetirementCycle formats surroundings now config db).1.implementations =
      (executeAll surroundings now db
        (approved formats surroundings now config db)).1.implementations := by
  apply List.foldlRecOn (motive := fun done : Db × List RetirementDecision =>
    done.1.implementations = (executeAll surroundings now db
      (approved formats surroundings now config db)).1.implementations)
  · rfl
  · intro done hdone specId _
    rw [← hdone]
    exact implementations_checkAndRetireSpec specId

/-- Only what is approved is written. -/
theorem lookup_runRetirementCycle {implId : String}
    (h : ∀ decision ∈ approved formats surroundings now config db, decision.implId ≠ implId) :
    (runRetirementCycle formats surroundings now config db).1.implementations.lookup implId =
      db.implementations.lookup implId := by
  rw [implementations_runRetirementCycle]
  exact lookup_executeAll _ h

theorem exists_approved_of_mem_retiredIds {implId : String}
    (h : implId ∈ retiredIds db (runRetirementCycle formats surroundings now config db).1) :
    ∃ decision ∈ approved formats surroundings now config db, decision.implId = implId := by
  by_contra hnone
  push Not at hnone
  have hstatus := (List.mem_filter.mp h).2
  rw [isRetired, isRetired, lookup_runRetirementCycle hnone] at hstatus
  simp at hstatus

/-- A retired implementation was due. -/
theorem due_of_mem_retiredIds {implId : String} {row : ImplRow}
    (h : implId ∈ retiredIds db (runRetirementCycle formats surroundings now config db).1)
    (hrow : db.implementations.lookup implId = some row) :
    ∃ spec, db.specs.lookup row.specId = some spec ∧
      Due now (implementationOf surroundings ⟨implId, row, spec⟩) config
        (checkBetterAlternatives surroundings config db implId row.specId row.symbol)
        (surroundings.regime row.symbol) := by
  obtain ⟨decision, happroved, himplId⟩ := exists_approved_of_mem_retiredIds h
  obtain ⟨⟨candidateId, candidateRow, spec⟩, hcandidate, heq, hdue⟩ := due_of_mem_approved happroved
  obtain ⟨hlookup, hspec, -⟩ := mem_getRetirementCandidates hcandidate
  obtain rfl : candidateId = implId := heq.symm.trans himplId
  obtain rfl : candidateRow = row := Option.some.inj (hlookup.symm.trans hrow)
  exact ⟨spec, hspec, hdue⟩

theorem length_retiredIds_le :
    ((retiredIds db (runRetirementCycle formats surroundings now config db).1).length : ℤ) ≤
      effectiveLimit (getActiveImplementationCount surroundings db) config := by
  have hnodup : (retiredIds db
      (runRetirementCycle formats surroundings now config db).1).Nodup :=
    db.implementations.keys_nodup.filter _
  have hsubset : retiredIds db (runRetirementCycle formats surroundings now config db).1 ⊆
      (approved formats surroundings now config db).map RetirementDecision.implId := by
    intro implId hretired
    obtain ⟨decision, happroved, himplId⟩ := exists_approved_of_mem_retiredIds hretired
    exact List.mem_map.mpr ⟨decision, happroved, himplId⟩
  have hlength := (hnodup.subperm hsubset).length_le
  rw [List.length_map] at hlength
  calc ((retiredIds db (runRetirementCycle formats surroundings now config db).1).length : ℤ)
      ≤ (approved formats surroundings now config db).length := by exact_mod_cast hlength
    _ ≤ effectiveLimit (getActiveImplementationCount surroundings db) config :=
      (approved_of_applyBatchLimits _ _ config).2

/-- A count that fails allows one retirement. -/
theorem effectiveLimit_le :
    effectiveLimit (getActiveImplementationCount surroundings db) config ≤
      max 1 (min config.maxRetirementsPerRun
        (truncate (activeCount db * config.maxRetirementPercentage / 100))) := by
  unfold getActiveImplementationCount
  split_ifs
  -- a part of nothing, and at least one
  · have hzero : effectiveLimit (0 : ℕ) config = 1 := by
      simp [effectiveLimit, truncate]
    rw [hzero]
    exact le_max_left _ _
  · rw [effectiveLimit, max_comm, Int.cast_natCast]

/-- The thresholds keep an alternative from being retired itself. -/
theorem exists_alternative (hle : config.maxSharpe ≤ config.minAlternativeSharpe)
    {implId specId symbol : String}
    (h : checkBetterAlternatives surroundings config db implId specId symbol = true) :
    ∃ otherId other sharpe,
      (runRetirementCycle formats surroundings now config db).1.implementations.lookup otherId =
        some other ∧ other.specId = specId ∧ other.symbol = symbol ∧ other.status = .VALIDATED ∧
          other.forwardSharpe = some sharpe ∧ config.minAlternativeSharpe ≤ sharpe := by
  obtain ⟨-, hany⟩ := Bool.and_eq_true_iff.mp h
  obtain ⟨⟨otherId, other⟩, hentry, halternative⟩ := List.any_eq_true.mp hany
  simp only [isAlternative, Bool.and_eq_true, decide_eq_true_eq, Option.any_eq_true] at halternative
  obtain ⟨⟨⟨hspec, hsymbol⟩, hstatus⟩, sharpe, hsharpe, hmin⟩ := halternative
  have hlookup : db.implementations.lookup otherId = some other := AList.mem_lookup_iff.mpr hentry
  refine ⟨otherId, other, sharpe, ?_, hspec, hsymbol, hstatus, hsharpe, hmin⟩
  rw [lookup_runRetirementCycle, hlookup]
  intro decision happroved himplId
  -- it would have been retired with a Sharpe ratio below both thresholds
  obtain ⟨candidate, hcandidate, heq, hdue⟩ := due_of_mem_approved happroved
  obtain ⟨hcandidateRow, -, -⟩ := mem_getRetirementCandidates hcandidate
  rw [← heq, himplId, hlookup, Option.some.injEq] at hcandidateRow
  have hpoor : candidate.row.forwardSharpe.getD 0 < config.maxSharpe := hdue.sharpe
  rw [← hcandidateRow, hsharpe, Option.getD_some] at hpoor
  exact absurd (hle.trans hmin) hpoor.not_ge

theorem safe_runRetirementCycle
    (h : config.requireBetterAlternative = true →
      config.maxSharpe ≤ config.minAlternativeSharpe ∨
        ∀ trend : SharpeTrend, trend.text ≠ config.requiredTrend) :
    Safe config db (runRetirementCycle formats surroundings now config db).1 where
  canonical := by
    intro implId row spec hretired hrow hspec
    obtain ⟨spec', hspec', hdue⟩ := due_of_mem_retiredIds hretired hrow
    obtain rfl : spec' = spec := Option.some.inj (hspec'.symm.trans hspec)
    exact hdue.source
  limited := length_retiredIds_le.trans effectiveLimit_le
  alternatives := by
    intro hrequire implId row hretired hrow
    obtain ⟨spec, -, hdue⟩ := due_of_mem_retiredIds hretired hrow
    -- either the alternative is not due itself, or nothing ever is
    rcases h hrequire with hle | hnone
    · exact exists_alternative hle (hdue.alternative hrequire)
    · exact absurd hdue.trend (hnone _)

end

section
variable (config : RetirementConfig) (trend : SharpeTrend)

/-- An implementation that is due, and its own only alternative. -/
def loneRow : ImplRow where
  specId := "spec"
  symbol := "BTC/USD"
  status := .VALIDATED
  forwardSharpe := some config.minAlternativeSharpe
  forwardAccuracy := some (if 0 < config.maxAccuracy then 0 else config.maxAccuracy - 1)
  forwardTrades := some config.minSignals
  createdAt := 0
  updatedAt := none

def loneSpec : SpecRow := ⟨"LLM_GENERATED", none, .VALIDATED, none⟩

def loneDb : Db :=
  ⟨(∅ : Table String ImplRow).insert "lone" (loneRow config),
    (∅ : Table String SpecRow).insert "spec" loneSpec, []⟩

def loneSurroundings : Surroundings := ⟨fun _ => trend, fun _ => "ranging", fun _ => false⟩

variable {config trend}

def loneCandidate (config : RetirementConfig) : Candidate := ⟨"lone", loneRow config, loneSpec⟩

theorem shouldRetire_lone (formats : Formats)
    (hsharpe : config.minAlternativeSharpe < config.maxSharpe)
    (htrend : trend.text = config.requiredTrend) :
    (evaluate formats (loneSurroundings trend) (config.minAgeDays * day) config (loneDb config)
      (loneCandidate config)).shouldRetire = true := by
  apply (shouldRetire_iff ..).mpr
  constructor
  · have hsource : "LLM_GENERATED" ≠ "CANONICAL" := by decide
    exact hsource
  · exact le_rfl
  · have hage : (config.minAgeDays * day - 0) / day = config.minAgeDays := by
      rw [sub_zero]
      exact Int.mul_ediv_cancel _ (by decide)
    exact hage.ge
  · rfl
  · exact hsharpe
  · have haccuracy : (if 0 < config.maxAccuracy then 0 else config.maxAccuracy - 1) <
        config.maxAccuracy := by
      split_ifs with hpos
      · exact hpos
      · exact sub_one_lt config.maxAccuracy
    exact haccuracy
  · exact htrend
  · rfl
  · intro _
    simp [checkBetterAlternatives, loneSurroundings, loneDb, isAlternative, loneCandidate, loneRow]

theorem candidates_lone (hsharpe : config.minAlternativeSharpe < config.maxSharpe) :
    getRetirementCandidates (loneSurroundings trend) (config.minAgeDays * day) config
      (loneDb config) = [loneCandidate config] := by
  have hjoined : joined (loneDb config) = [loneCandidate config] := rfl
  have hcandidate : isCandidate (config.minAgeDays * day) config (loneCandidate config) = true := by
    simp [isCandidate, loneCandidate, loneRow, hsharpe]
  simp [getRetirementCandidates, loneSurroundings, hjoined, hcandidate]

theorem startsWith_retired (details : String) :
    startsWith ("Retired: Sharpe=" ++ details) "CANONICAL" = false ∧
      startsWith ("Retired: Sharpe=" ++ details) "Deferring" = false := by
  simp only [startsWith, String.toList_append]
  exact ⟨rfl, rfl⟩

theorem approved_lone (formats : Formats)
    (hsharpe : config.minAlternativeSharpe < config.maxSharpe)
    (htrend : trend.text = config.requiredTrend) :
    approved formats (loneSurroundings trend) (config.minAgeDays * day) config (loneDb config) =
      [evaluate formats (loneSurroundings trend) (config.minAgeDays * day) config (loneDb config)
        (loneCandidate config)] := by
  have hretire := shouldRetire_lone formats hsharpe htrend
  obtain ⟨details, hreason⟩ : ∃ details,
      (evaluate formats (loneSurroundings trend) (config.minAgeDays * day) config (loneDb config)
        (loneCandidate config)).reason = "Retired: Sharpe=" ++ details :=
    reason_of_shouldRetire hretire
  obtain ⟨hprotected, hdeferred⟩ := startsWith_retired details
  rw [← hreason] at hprotected hdeferred
  have hto : toRetire formats (loneSurroundings trend) (config.minAgeDays * day) config
      (loneDb config) = [evaluate formats (loneSurroundings trend) (config.minAgeDays * day) config
        (loneDb config) (loneCandidate config)] := by
    rw [toRetire, candidates_lone hsharpe, List.map_singleton]
    apply List.filter_cons_of_pos
    simp [isDeferred, isProtected, hprotected, hdeferred, hretire]
  rw [approved, hto, applyBatchLimits_singleton _ _ hretire]

/-- It is retired, and nothing is left of its spec and symbol. -/
theorem lookup_lone (formats : Formats)
    (hsharpe : config.minAlternativeSharpe < config.maxSharpe)
    (htrend : trend.text = config.requiredTrend) (implId : String) :
    (runRetirementCycle formats (loneSurroundings trend) (config.minAgeDays * day) config
      (loneDb config)).1.implementations.lookup implId =
        if implId = "lone" then some (retiredRow (config.minAgeDays * day) (loneRow config))
        else none := by
  have himplId : (evaluate formats (loneSurroundings trend) (config.minAgeDays * day) config
      (loneDb config) (loneCandidate config)).implId = "lone" := implId_evaluate _
  have hrow : (loneDb config).implementations.lookup "lone" = some (loneRow config) :=
    AList.lookup_insert _
  rw [← himplId] at hrow
  rw [implementations_runRetirementCycle, approved_lone formats hsharpe htrend,
    implementations_executeAll_singleton rfl hrow nofun, himplId]
  by_cases hlone : implId = "lone"
  · rw [if_pos hlone, hlone, AList.lookup_insert]
  · rw [if_neg hlone, AList.lookup_insert_ne hlone, loneDb, AList.lookup_insert_ne hlone,
      AList.lookup_empty]

theorem not_safe_lone (formats : Formats) (hrequire : config.requireBetterAlternative = true)
    (hsharpe : config.minAlternativeSharpe < config.maxSharpe)
    (htrend : trend.text = config.requiredTrend) :
    ¬ Safe config (loneDb config) (runRetirementCycle formats (loneSurroundings trend)
      (config.minAgeDays * day) config (loneDb config)).1 := by
  intro h
  have hretired : "lone" ∈ retiredIds (loneDb config) (runRetirementCycle formats
      (loneSurroundings trend) (config.minAgeDays * day) config (loneDb config)).1 := by
    have hkey : "lone" ∈ (loneDb config).implementations.keys := List.mem_singleton_self _
    apply List.mem_filter.mpr
    refine ⟨hkey, ?_⟩
    rw [isRetired, isRetired, lookup_lone formats hsharpe htrend]
    rfl
  -- the only implementation left is the retired one
  obtain ⟨otherId, other, sharpe, hother, -, -, hstatus, -⟩ :=
    h.alternatives hrequire "lone" (loneRow config) hretired rfl
  rw [lookup_lone formats hsharpe htrend] at hother
  split_ifs at hother
  obtain rfl := Option.some.inj hother
  cases hstatus

end

/-- A cycle is safe over every content of the tables exactly where the thresholds keep an
alternative from being retired itself, or ask for no alternative, or can never be met. -/
theorem safe_iff (formats : Formats) (config : RetirementConfig) :
    (∀ surroundings now db,
        Safe config db (runRetirementCycle formats surroundings now config db).1) ↔
      (config.requireBetterAlternative = true →
        config.maxSharpe ≤ config.minAlternativeSharpe ∨
          ∀ trend : SharpeTrend, trend.text ≠ config.requiredTrend) := by
  constructor
  · intro h hrequire
    by_contra hnot
    push Not at hnot
    obtain ⟨hsharpe, trend, htrend⟩ := hnot
    exact not_safe_lone formats hrequire hsharpe htrend (h _ _ _)
  · exact fun h surroundings now db => safe_runRetirementCycle h

/-- The default thresholds, but for a maximal Sharpe ratio above that of an alternative. -/
def looseConfig : RetirementConfig := { defaultConfig with maxSharpe := 3 / 2 }

theorem looseConfig_not_safe :
    ¬ ∃ formats, Safe looseConfig (loneDb looseConfig)
      (runRetirementCycle formats (loneSurroundings .DECLINING) (180 * day) looseConfig
        (loneDb looseConfig)).1 := by
  rintro ⟨formats, hsafe⟩
  revert hsafe
  apply not_safe_lone formats
  · rfl
  · norm_num [looseConfig, defaultConfig]
  · rfl

end TradeStream.JanitorAgent
