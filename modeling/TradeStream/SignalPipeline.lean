import TradeStream.RunSteps

/-! The risk manager of the autonomous runner, and the steps of its pipeline from the
risk check of a symbol's signal to the record of its emission. The pipelines of several
symbols may interleave. -/
namespace TradeStream.SignalPipeline

inductive SignalAction where
  | buy
  | sell
  | hold
  deriving DecidableEq

structure FusedSignal where
  symbol : String
  action : SignalAction
  confidence : ℚ
  deriving DecidableEq

structure RiskConfig where
  maxConcurrentSignals : ℕ
  maxSignalsPerSymbolPerHour : ℕ
  minConfidenceThreshold : ℚ
  maxPortfolioExposurePct : ℚ
  maxSinglePositionPct : ℚ
  maxDailyLossPct : ℚ
  maxDrawdownPct : ℚ
  exposure_nonneg : 0 ≤ maxPortfolioExposurePct

/-- The defaults of the runner. -/
def RiskConfig.default : RiskConfig where
  maxConcurrentSignals := 5
  maxSignalsPerSymbolPerHour := 4
  minConfidenceThreshold := 1 / 2
  maxPortfolioExposurePct := 80
  maxSinglePositionPct := 20
  maxDailyLossPct := 5
  maxDrawdownPct := 10
  exposure_nonneg := by norm_num

structure RiskManager where
  signalHistory : String → List ℚ
  activeSignals : ℕ
  dailyPnlPct : ℚ
  maxDrawdownPct : ℚ
  portfolioExposurePct : ℚ

def RiskManager.init : RiskManager := ⟨fun _ => [], 0, 0, 0, 0⟩

/-- A reason for a rejection, with what its text shows. -/
inductive Rejection where
  | confidence (confidence threshold : ℚ)
  | maxConcurrent (max : ℕ)
  | rateLimit (symbol : String) (recent max : ℕ)
  | exposure (exposure max : ℚ)
  | dailyLoss (pnl limit : ℚ)
  | drawdown (drawdown limit : ℚ)
  | adjustedConfidence (confidence : ℚ)
  deriving DecidableEq

structure RiskCheckResult where
  approved : Bool
  adjustedConfidence : Option ℚ
  positionSizePct : ℚ
  rejectionReasons : List Rejection
  deriving DecidableEq

section
variable (config : RiskConfig) (risk : RiskManager)

/-- The emissions of a symbol in the last hour. -/
def RiskManager.recent (now : ℚ) (symbol : String) : List ℚ :=
  (risk.signalHistory symbol).filter fun ts => now - 3600 < ts

def calculatePositionSize (signal : FusedSignal) : ℚ :=
  let remainingExposure := config.maxPortfolioExposurePct - risk.portfolioExposurePct
  let cap := min config.maxSinglePositionPct remainingExposure
  max 0 (min cap (cap * signal.confidence))

def adjustConfidence (signal : FusedSignal) : ℚ :=
  -- up to nine percent near the exposure limit, up to ten in a drawdown
  let exposureRatio := risk.portfolioExposurePct / config.maxPortfolioExposurePct
  let penalty := if 7 / 10 < exposureRatio then (exposureRatio - 7 / 10) * (3 / 10) else 0
  let lossRatio := |risk.dailyPnlPct| / config.maxDailyLossPct
  let lossPenalty :=
    if risk.dailyPnlPct < 0 ∧ 1 / 2 < lossRatio then (lossRatio - 1 / 2) * (2 / 10) else 0
  max 0 (signal.confidence - penalty - lossPenalty)

/-- The reason, if the limit is broken. -/
def rejectIf (broken : Prop) [Decidable broken] (reason : Rejection) : List Rejection :=
  if broken then [reason] else []

def rejections (now : ℚ) (signal : FusedSignal) : List Rejection :=
  let recent := (risk.recent now signal.symbol).length
  rejectIf (signal.confidence < config.minConfidenceThreshold)
    (.confidence signal.confidence config.minConfidenceThreshold) ++
  rejectIf (config.maxConcurrentSignals ≤ risk.activeSignals)
    (.maxConcurrent config.maxConcurrentSignals) ++
  rejectIf (config.maxSignalsPerSymbolPerHour ≤ recent)
    (.rateLimit signal.symbol recent config.maxSignalsPerSymbolPerHour) ++
  rejectIf (config.maxPortfolioExposurePct ≤ risk.portfolioExposurePct)
    (.exposure risk.portfolioExposurePct config.maxPortfolioExposurePct) ++
  rejectIf (risk.dailyPnlPct ≤ -config.maxDailyLossPct)
    (.dailyLoss risk.dailyPnlPct config.maxDailyLossPct) ++
  rejectIf (config.maxDrawdownPct ≤ risk.maxDrawdownPct)
    (.drawdown risk.maxDrawdownPct config.maxDrawdownPct)

/-- The result for a signal that is no `HOLD`; none where the check raises. -/
def checkTrade (now : ℚ) (signal : FusedSignal) : Option RiskCheckResult :=
  let reasons := rejections config risk now signal
  let adjusted := adjustConfidence config risk signal
  if reasons ≠ [] then some ⟨false, none, 0, reasons⟩
  -- `_adjust_confidence` divides by the maximum, which is zero below a negative exposure
  else if config.maxPortfolioExposurePct = 0 then none
  else if adjusted < config.minConfidenceThreshold then
    some ⟨false, some adjusted, 0, [.adjustedConfidence adjusted]⟩
  else some ⟨true, some adjusted, calculatePositionSize config risk signal, []⟩

/-- A `HOLD` is approved before anything else is looked at. -/
def checkSignal (now : ℚ) (signal : FusedSignal) : Option RiskCheckResult × RiskManager :=
  if signal.action = .hold then (some ⟨true, some signal.confidence, 0, []⟩, risk)
  else
    -- the history is cut to the last hour even if the signal is rejected
    (checkTrade config risk now signal,
      { risk with
        signalHistory :=
          Function.update risk.signalHistory signal.symbol (risk.recent now signal.symbol) })

def recordSignalEmitted (now : ℚ) (symbol : String) : RiskManager :=
  { risk with
    signalHistory :=
      Function.update risk.signalHistory symbol (risk.signalHistory symbol ++ [now])
    activeSignals := risk.activeSignals + 1 }

def recordSignalClosed (pnlPct : ℚ) : RiskManager :=
  let daily := risk.dailyPnlPct + pnlPct
  { risk with
    -- never below zero
    activeSignals := risk.activeSignals - 1
    dailyPnlPct := daily
    maxDrawdownPct := if daily < -risk.maxDrawdownPct then |daily| else risk.maxDrawdownPct }

end

/-- What the MCP call of an emission comes to: it raises, or returns an error or the
server's answer. -/
inductive McpReply where
  | raised
  | error
  | answer
  deriving DecidableEq

/-- What `publish` comes to; it returns `False` for the first two. -/
inductive PublishReply where
  | noClient
  | raised
  | published
  deriving DecidableEq

/-- The signal has reached somebody. `_emit_signal` returns nothing, and never raises. -/
def delivered (mcp : McpReply) (publish : PublishReply) : Bool :=
  mcp = .answer || publish = .published

/-- Where the pipeline of a symbol is. -/
inductive Phase where
  | idle
  | checked (decisionId : String) (signal : FusedSignal) (result : RiskCheckResult)
  | cleared (decisionId : String) (signal : FusedSignal) (result : RiskCheckResult)
  | emitted (decisionId : String) (signal : FusedSignal) (delivered : Bool)
  deriving DecidableEq

/-- The position behind an emission. -/
structure Position where
  symbol : String
  sizePct : ℚ
  time : ℚ
  isOpen : Bool
  deriving DecidableEq

/-- What the runner notes about an emission when `_emit_signal` has returned, and whether
the signal was delivered. -/
structure Noted where
  decisionId : String
  symbol : String
  action : SignalAction
  time : ℚ
  delivered : Bool
  deriving DecidableEq

/-- `positions` and `noted` are a record of the run that no code reads. -/
structure World (ι : Type) where
  now : ℚ
  risk : RiskManager
  recentEmissions : String × SignalAction → Option ℚ
  entryPrices : String → Option ℚ
  phases : ι → Phase
  positions : List Position
  noted : List Noted

/-- `DEDUP_WINDOW_SECONDS`. -/
def dedupWindowSeconds : ℚ := 900

theorem dedupWindowSeconds_le : dedupWindowSeconds ≤ 1000 := by
  norm_num [dedupWindowSeconds]

/-- The clock counts from the epoch, long before the runner. -/
def World.init (ι : Type) (start : {t : ℚ // dedupWindowSeconds ≤ t}) : World ι where
  now := start
  risk := .init
  recentEmissions _ := none
  entryPrices _ := none
  phases _ := .idle
  positions := []
  noted := []

/-- Nothing calls `record_signal_closed` (`closed`), `update_portfolio_exposure` or
`reset_daily` when a position is closed; they may be called at any time here. -/
inductive Event (ι : Type) where
  | wait (seconds : ℚ≥0)
  | check (run : ι) (decisionId : String) (signal : FusedSignal)
  | dedup (run : ι)
  | emit (run : ι) (mcp : McpReply) (publish : PublishReply)
  | record (run : ι) (entryPrice : Option ℚ)
  | close (position : ℕ)
  | closed (pnlPct : ℚ)
  | exposure (exposurePct : ℚ)
  | resetDaily

variable {ι : Type} [DecidableEq ι] (config : RiskConfig)

def World.goTo (world : World ι) (run : ι) (phase : Phase) : World ι :=
  { world with phases := Function.update world.phases run phase }

/-- A signal of the kind is a duplicate. -/
def World.Duplicate (world : World ι) (key : String × SignalAction) : Prop :=
  world.now - (world.recentEmissions key).getD 0 < dedupWindowSeconds

instance (world : World ι) (key : String × SignalAction) : Decidable (world.Duplicate key) :=
  inferInstanceAs (Decidable (_ < _))

def World.dedup (world : World ι) (run : ι) : World ι :=
  match world.phases run with
  | .checked decisionId signal result =>
    -- a rejected signal, a `HOLD` and a duplicate end the pipeline of the symbol
    if result.approved = true ∧ signal.action ≠ .hold ∧
        ¬ world.Duplicate (signal.symbol, signal.action) then
      world.goTo run (.cleared decisionId signal result)
    else world.goTo run .idle
  | _ => world

def World.emit (world : World ι) (run : ι) (mcp : McpReply) (publish : PublishReply) : World ι :=
  match world.phases run with
  | .cleared decisionId signal result =>
    { world.goTo run (.emitted decisionId signal (delivered mcp publish)) with
      positions :=
        world.positions ++ [⟨signal.symbol, result.positionSizePct, world.now, true⟩] }
  | _ => world

/-- The notes are made whether or not anything was delivered. -/
def World.note (world : World ι) (decisionId : String) (signal : FusedSignal) (delivered : Bool)
    (entryPrice : Option ℚ) : World ι :=
  { world with
    recentEmissions :=
      Function.update world.recentEmissions (signal.symbol, signal.action) (some world.now)
    entryPrices :=
      match entryPrice with
      | some price => Function.update world.entryPrices decisionId (some price)
      | none => world.entryPrices
    risk := recordSignalEmitted world.risk world.now signal.symbol
    noted := world.noted ++ [⟨decisionId, signal.symbol, signal.action, world.now, delivered⟩] }

def World.record (world : World ι) (run : ι) (entryPrice : Option ℚ) : World ι :=
  match world.phases run with
  | .emitted decisionId signal delivered =>
    (world.goTo run .idle).note decisionId signal delivered entryPrice
  | _ => world

def World.step (world : World ι) : Event ι → World ι
  | .wait seconds => { world with now := world.now + seconds }
  | .check run decisionId signal =>
    if world.phases run = .idle then
      match checkSignal config world.risk world.now signal with
      | (some result, risk) =>
        { world.goTo run (.checked decisionId signal result) with risk := risk }
      -- `process_all_symbols` catches what the check raises and goes to the next symbol
      | (none, risk) => { world with risk := risk }
    else world
  | .dedup run => world.dedup run
  | .emit run mcp publish => world.emit run mcp publish
  | .record run entryPrice => world.record run entryPrice
  | .close position =>
    { world with
      positions := world.positions.modify position fun p => { p with isOpen := false } }
  | .closed pnlPct => { world with risk := recordSignalClosed world.risk pnlPct }
  | .exposure exposurePct =>
    { world with risk := { world.risk with portfolioExposurePct := exposurePct } }
  | .resetDaily => { world with risk := { world.risk with dailyPnlPct := 0 } }

end TradeStream.SignalPipeline
