import TradeStream.Fallible
import TradeStream.RoundDecimal
import TradeStream.RunningMaximum

/-! The engine of the backtest API: signals of two moving averages, and what trading on them all
in or all out makes of the initial capital. -/
namespace TradeStream.BacktestApi
open TradeStream.Fallible TradeStream.RoundDecimal TradeStream.RunningMaximum

variable {τ : Type*}

/-- A candle, of which the engine reads the close. -/
structure Candle (τ : Type*) where
  timestamp : τ
  close : ℚ

/-- A trade, whose side is always `BUY`. -/
structure Trade (τ : Type*) where
  entryTime : τ
  entryPrice : ℚ
  exitTime : Option τ := none
  exitPrice : Option ℚ := none
  quantity : ℚ := 1
  pnl : Option ℚ := none
  deriving DecidableEq

structure EquityPoint (τ : Type*) where
  timestamp : τ
  equity : ℚ
  drawdown : ℚ
  deriving DecidableEq

structure BacktestResult (τ : Type*) where
  totalReturn : ℚ
  sharpeRatio : ℚ
  maxDrawdown : ℚ
  winRate : ℚ
  profitFactor : ℚ
  totalTrades : ℕ
  trades : List (Trade τ) := []
  equityCurve : List (EquityPoint τ) := []
  deriving DecidableEq

/-! ### Signals -/

/-- Where an index of a slice points to, a negative one being counted from the end. -/
def sliceIndex (length : ℕ) (i : ℤ) : ℕ := (if i < 0 then i + length else min i length).toNat

/-- `xs[start:stop]`. -/
def slice {α : Type*} (xs : List α) (start stop : ℤ) : List α :=
  (xs.take (sliceIndex xs.length stop)).drop (sliceIndex xs.length start)

def hashVal (strategyId : String) : ℕ := (strategyId.toList.map Char.toNat).sum

def shortPeriod (strategyId : String) : ℕ := max 5 (hashVal strategyId % 10 + 5)

def longPeriod (strategyId : String) : ℕ :=
  max (shortPeriod strategyId + 5) (hashVal strategyId % 20 + 15)

/-- The average of the `period` closes before `i`. -/
def smaBefore (closes : List ℚ) (period : ℕ) (i : ℤ) : ℚ :=
  (slice closes (i - period) i).sum / period

def signalAt (closes : List ℚ) (short long : ℕ) (i : ℤ) : ℤ :=
  if smaBefore closes short i > smaBefore closes long i ∧
      smaBefore closes short (i - 1) ≤ smaBefore closes long (i - 1) then 1
  else if smaBefore closes short i < smaBefore closes long i ∧
      smaBefore closes short (i - 1) ≥ smaBefore closes long (i - 1) then -1
  else 0

def generateSignals (candles : List (Candle τ)) (strategyId : String) : List ℤ :=
  if candles.length < 2 then List.replicate candles.length 0
  else (List.range candles.length).map fun i =>
    if longPeriod strategyId ≤ i then
      signalAt (candles.map Candle.close) (shortPeriod strategyId) (longPeriod strategyId) i
    else 0

/-! ### The simulation -/

structure Simulation (τ : Type*) where
  capital : ℚ
  position : Option (Trade τ) := none
  trades : List (Trade τ) := []
  equityCurve : List (EquityPoint τ) := []
  peakEquity : ℚ
  maxDd : ℚ := 0
  returns : List ℚ := []
  prevEquity : ℚ

def start (initialCapital : ℚ) : Simulation τ where
  capital := initialCapital
  peakEquity := initialCapital
  prevEquity := initialCapital

def pnlAt (position : Trade τ) (price : ℚ) : ℚ :=
  (price - position.entryPrice) * position.quantity

def Trade.exit (position : Trade τ) (candle : Candle τ) : Trade τ :=
  { position with
    exitTime := some candle.timestamp
    exitPrice := some candle.close
    pnl := some (pnlAt position candle.close) }

namespace Simulation

def exit (s : Simulation τ) (position : Trade τ) (candle : Candle τ) : Simulation τ :=
  { s with
    capital := s.capital + pnlAt position candle.close
    trades := s.trades ++ [position.exit candle]
    position := none }

/-- All of the capital is invested, unless the price is 0, which raises. -/
def enter (s : Simulation τ) (candle : Candle τ) : Except String (Simulation τ) :=
  if candle.close = 0 then .error "ZeroDivisionError"
  else .ok { s with
    position := some {
      entryTime := candle.timestamp
      entryPrice := candle.close
      quantity := s.capital / candle.close } }

def trade (s : Simulation τ) (candle : Candle τ) (signal : ℤ) : Except String (Simulation τ) :=
  match s.position with
  | some position => .ok (if signal = -1 then s.exit position candle else s)
  | none => if signal = 1 then s.enter candle else .ok s

def currentEquity (s : Simulation τ) (close : ℚ) : ℚ :=
  match s.position with
  | some position => s.capital + pnlAt position close
  | none => s.capital

def track (s : Simulation τ) (candle : Candle τ) : Simulation τ :=
  let equity := s.currentEquity candle.close
  let peak := max s.peakEquity equity
  let dd := if peak > 0 then (peak - equity) / peak else 0
  { s with
    peakEquity := peak
    maxDd := max s.maxDd dd
    equityCurve := s.equityCurve ++ [⟨candle.timestamp, equity, dd⟩]
    returns :=
      if s.prevEquity > 0 then s.returns ++ [(equity - s.prevEquity) / s.prevEquity]
      else s.returns
    prevEquity := equity }

/-- One turn of the loop over the candles. -/
def step (s : Simulation τ) (turn : Candle τ × ℤ) : Except String (Simulation τ) := do
  let s ← s.trade turn.1 turn.2
  pure (s.track turn.1)

/-- What is still open is closed at the last candle. -/
def finish (s : Simulation τ) (last : Candle τ) : Simulation τ :=
  match s.position with
  | some position => { s.exit position last with position := s.position }
  | none => s

end Simulation

/-! ### The result -/

/-- `sqrt` is that of the standard library. -/
def sharpe (sqrt : ℚ → ℚ) (returns : List ℚ) : ℚ :=
  let mean := returns.sum / returns.length
  let std := sqrt ((returns.map fun r => (r - mean) ^ 2).sum / (returns.length - 1))
  if returns.length > 1 ∧ std > 0 then mean / std * sqrt 252 else 0

def profitFactor (pnls : List ℚ) : ℚ :=
  let grossProfit := (pnls.filter fun pnl => pnl > 0).sum
  let grossLoss := |(pnls.filter fun pnl => pnl ≤ 0).sum|
  if grossLoss > 0 then grossProfit / grossLoss
  -- an infinite factor
  else if grossProfit = 0 then 0 else 999.99

def result (sqrt : ℚ → ℚ) (s : Simulation τ) (initialCapital : ℚ) : BacktestResult τ :=
  let pnls := s.trades.filterMap Trade.pnl
  let winRate := if pnls = [] then 0 else (pnls.countP fun pnl => pnl > 0 : ℚ) / pnls.length
  { totalReturn := roundTo 6 ((s.capital - initialCapital) / initialCapital)
    sharpeRatio := roundTo 4 (sharpe sqrt s.returns)
    maxDrawdown := roundTo 6 s.maxDd
    winRate := roundTo 4 winRate
    profitFactor := roundTo 4 (profitFactor pnls)
    totalTrades := pnls.length
    trades := s.trades
    equityCurve := s.equityCurve }

def emptyResult : BacktestResult τ where
  totalReturn := 0
  sharpeRatio := 0
  maxDrawdown := 0
  winRate := 0
  profitFactor := 0
  totalTrades := 0

def simulate (candles : List (Candle τ)) (strategyId : String) (initialCapital : ℚ) :
    Except String (Simulation τ) :=
  (candles.zip (generateSignals candles strategyId)).foldlM Simulation.step (start initialCapital)

def runBacktest (sqrt : ℚ → ℚ) (candles : List (Candle τ)) (strategyId : String)
    (initialCapital : ℚ) : Except String (BacktestResult τ) :=
  match candles.getLast? with
  | none => .ok emptyResult
  | some last => do
    let s ← simulate candles strategyId initialCapital
    -- the total return is in parts of the initial capital
    if initialCapital = 0 then .error "ZeroDivisionError"
    else .ok (result sqrt (s.finish last) initialCapital)

/-! ### The capital of one step -/

namespace Simulation

/-- What is invested is the capital. -/
structure AllIn (s : Simulation τ) : Prop where
  capital_pos : 0 < s.capital
  invested : ∀ position, s.position = some position →
    0 < position.entryPrice ∧ s.capital = position.entryPrice * position.quantity

theorem AllIn.equity_of_some {s : Simulation τ} (h : s.AllIn) {position : Trade τ}
    (hposition : s.position = some position) (close : ℚ) :
    s.currentEquity close = close * position.quantity := by
  obtain ⟨-, hcapital⟩ := h.invested position hposition
  simp only [currentEquity, hposition, hcapital, pnlAt]
  ring

theorem equity_of_none {s : Simulation τ} (h : s.position = none) (close : ℚ) :
    s.currentEquity close = s.capital := by
  simp only [currentEquity, h]

theorem AllIn.quantity_pos {s : Simulation τ} (h : s.AllIn) {position : Trade τ}
    (hposition : s.position = some position) : 0 < position.quantity := by
  obtain ⟨hentry, hcapital⟩ := h.invested position hposition
  have hpos := h.capital_pos
  rw [hcapital] at hpos
  exact (mul_pos_iff_of_pos_left hentry).mp hpos

/-- Between two prices the equity grows with the price if there is a position. -/
theorem AllIn.equity_growth {s : Simulation τ} (h : s.AllIn) {last close : ℚ} (hlast : 0 < last) :
    s.currentEquity close =
      s.currentEquity last * if s.position.isSome then close / last else 1 := by
  cases hposition : s.position with
  | none => simp [equity_of_none hposition]
  | some position =>
    rw [h.equity_of_some hposition, h.equity_of_some hposition]
    simp only [Option.isSome_some, if_true]
    field_simp

end Simulation

def Trade.growth (trade : Trade τ) : ℚ := trade.exitPrice.getD 0 / trade.entryPrice

/-- What the closed trades have made of the initial capital. -/
structure Booked (initialCapital : ℚ) (s : Simulation τ) : Prop where
  growth : s.capital = initialCapital * (s.trades.map Trade.growth).prod
  pnl : initialCapital + (s.trades.filterMap Trade.pnl).sum = s.capital

theorem Booked.exit {initialCapital : ℚ} {s : Simulation τ} (h : Booked initialCapital s)
    (hall : s.AllIn) {position : Trade τ} (hposition : s.position = some position)
    (candle : Candle τ) : Booked initialCapital (s.exit position candle) := by
  obtain ⟨hentry, hcapital⟩ := hall.invested position hposition
  constructor
  · simp only [Simulation.exit, List.map_append, List.map_singleton, List.prod_append,
      List.prod_singleton, Trade.growth, Trade.exit, Option.getD_some, ← mul_assoc, ← h.growth]
    rw [hcapital, pnlAt]
    field_simp
    ring
  · simp only [Simulation.exit, List.filterMap_append, List.filterMap_cons, List.filterMap_nil,
      Trade.exit, List.sum_append, List.sum_singleton, ← add_assoc, h.pnl]

/-- What the signals of a candle do to the position: a sale ends it, a purchase begins it. -/
def nextHeld (held : Bool) (signal : ℤ) : Bool :=
  if signal = 1 then true else if signal = -1 then false else held

/-- A trade at a price leaves the equity at this price as it was. -/
theorem trade_spec {initialCapital : ℚ} {s : Simulation τ} (hall : s.AllIn)
    (hbooked : Booked initialCapital s) {candle : Candle τ} (hclose : 0 < candle.close)
    (signal : ℤ) :
    ∃ s', s.trade candle signal = .ok s' ∧ s'.AllIn ∧ Booked initialCapital s' ∧
      s'.position.isSome = nextHeld s.position.isSome signal ∧
      s'.currentEquity candle.close = s.currentEquity candle.close ∧
      s'.equityCurve = s.equityCurve ∧ s'.peakEquity = s.peakEquity ∧ s'.maxDd = s.maxDd := by
  cases hposition : s.position with
  | none =>
    by_cases hbuy : signal = 1
    · have henter : s.trade candle signal = .ok { s with
          position := some {
            entryTime := candle.timestamp
            entryPrice := candle.close
            quantity := s.capital / candle.close } } := by
        simp [Simulation.trade, hposition, hbuy, Simulation.enter, hclose.ne']
      refine ⟨_, henter, ⟨hall.capital_pos, ?_⟩, ⟨hbooked.growth, hbooked.pnl⟩, ?_, ?_, rfl, rfl,
        rfl⟩
      · rintro position ⟨rfl⟩
        exact ⟨hclose, (mul_div_cancel₀ s.capital hclose.ne').symm⟩
      · simp [nextHeld, hbuy]
      · simp [Simulation.currentEquity, hposition, pnlAt]
    · refine ⟨s, by simp [Simulation.trade, hposition, hbuy], hall, hbooked, ?_, rfl, rfl, rfl, rfl⟩
      simp [nextHeld, hposition, hbuy]
  | some position =>
    by_cases hsell : signal = -1
    · refine ⟨s.exit position candle, by simp [Simulation.trade, hposition, hsell], ⟨?_, ?_⟩,
        hbooked.exit hall hposition candle, ?_, ?_, rfl, rfl, rfl⟩
      · have hequity : (s.exit position candle).capital = s.currentEquity candle.close := by
          simp [Simulation.exit, Simulation.currentEquity, hposition]
        rw [hequity, hall.equity_of_some hposition]
        exact mul_pos hclose (hall.quantity_pos hposition)
      · intro position' hposition'
        simp [Simulation.exit] at hposition'
      · simp [nextHeld, hsell, Simulation.exit]
      · simp [Simulation.exit, Simulation.currentEquity, hposition]
    · refine ⟨s, by simp [Simulation.trade, hposition, hsell], hall, hbooked, ?_, rfl, rfl, rfl, rfl⟩
      simp [nextHeld, hposition, hsell]

/-- The curve of the equities so far. -/
structure Charted (initialCapital : ℚ) (equities : List ℚ) (s : Simulation τ) : Prop where
  equities_eq : s.equityCurve.map EquityPoint.equity = equities
  peak_eq : s.peakEquity = equities.foldl max initialCapital
  drawdowns_eq :
    s.equityCurve.map EquityPoint.drawdown = (drawdowns (initialCapital :: equities)).tail
  maxDd_eq : s.maxDd = (s.equityCurve.map EquityPoint.drawdown).foldl max 0

theorem Charted.track {initialCapital : ℚ} (hinitial : 0 < initialCapital) {equities : List ℚ}
    {s : Simulation τ} (h : Charted initialCapital equities s) {candle : Candle τ} {equity : ℚ}
    (hequity : s.currentEquity candle.close = equity) :
    Charted initialCapital (equities ++ [equity]) (s.track candle) := by
  have hpeak : 0 < max (equities.foldl max initialCapital) equity := by
    have hle := (isGreatest_foldl_max initialCapital equities).2 (List.mem_cons_self)
    exact lt_max_of_lt_left (hinitial.trans_le hle)
  constructor
  · simp [Simulation.track, h.equities_eq, hequity]
  · simp [Simulation.track, h.peak_eq, hequity, List.foldl_append]
  · have htail : (drawdowns (initialCapital :: (equities ++ [equity]))).tail =
        (drawdowns (initialCapital :: equities)).tail ++
          [(max (equities.foldl max initialCapital) equity - equity) /
            max (equities.foldl max initialCapital) equity] := by
      have hne : drawdowns (initialCapital :: equities) ≠ [] := by
        rw [← List.length_pos_iff, drawdowns, List.length_zipWith, length_runningMax, min_self]
        exact Nat.succ_pos _
      rw [← List.cons_append, drawdowns_concat, List.tail_append_of_ne_nil hne]
    rw [htail, ← h.drawdowns_eq]
    simp [Simulation.track, h.peak_eq, hequity, hpeak]
  · simp [Simulation.track, h.maxDd_eq, List.foldl_append]

/-! ### The whole simulation -/

section
variable (initialCapital : ℚ) (candles : List (Candle τ)) (signals : List ℤ)

/-- The price at which a candle closes. -/
def closeAt (i : ℕ) : ℚ := (candles[i]?.map Candle.close).getD 0

/-- Whether there is a position when candle `i` comes: the last signal before it that is not 0 is
to buy. -/
def heldBefore : ℕ → Bool
  | 0 => false
  | i + 1 => nextHeld (heldBefore i) (signals[i]?.getD 0)

/-- What candle `i` makes of the equity before it. -/
def growthAt (i : ℕ) : ℚ :=
  if heldBefore signals i then closeAt candles i / closeAt candles (i - 1) else 1

/-- The equity after `k` candles. -/
def wealth (k : ℕ) : ℚ := initialCapital * ∏ i ∈ Finset.range k, growthAt candles signals i

theorem wealth_succ (k : ℕ) :
    wealth initialCapital candles signals (k + 1) =
      wealth initialCapital candles signals k * growthAt candles signals k := by
  rw [wealth, wealth, Finset.prod_range_succ, mul_assoc]

/-- The state after `k` candles. -/
structure After (k : ℕ) (s : Simulation τ) : Prop where
  allIn : s.AllIn
  booked : Booked initialCapital s
  charted : Charted initialCapital
    ((List.range k).map fun i => wealth initialCapital candles signals (i + 1)) s
  held : s.position.isSome = heldBefore signals k
  equity : s.currentEquity (closeAt candles (k - 1)) = wealth initialCapital candles signals k

variable {initialCapital candles signals}

theorem after_start (hinitial : 0 < initialCapital) :
    After initialCapital candles signals 0 (start initialCapital) where
  allIn := ⟨hinitial, by simp [start]⟩
  booked := ⟨by simp [start], by simp [start]⟩
  charted := ⟨by simp [start], by simp [start], by simp [start, drawdowns, runningMax], rfl⟩
  held := rfl
  equity := by simp [start, Simulation.currentEquity, wealth]

theorem closeAt_pos (hpos : ∀ candle ∈ candles, 0 < candle.close) {i : ℕ}
    (hi : i < candles.length) : 0 < closeAt candles i := by
  rw [closeAt, List.getElem?_eq_getElem hi]
  exact hpos _ (List.getElem_mem hi)

theorem After.step (hinitial : 0 < initialCapital) (hpos : ∀ candle ∈ candles, 0 < candle.close)
    {k : ℕ} (hk : k < candles.length) {s : Simulation τ}
    (h : After initialCapital candles signals k s) :
    ∃ s', s.step (candles[k], signals[k]?.getD 0) = .ok s' ∧
      After initialCapital candles signals (k + 1) s' := by
  have hclose : closeAt candles k = candles[k].close := by
    rw [closeAt, List.getElem?_eq_getElem hk]
    rfl
  have hpositive : 0 < candles[k].close := hpos _ (List.getElem_mem hk)
  obtain ⟨traded, htrade, hall, hbooked, hheld, hequity, hcurve, hpeak, hmaxDd⟩ :=
    trade_spec h.allIn h.booked hpositive (signals[k]?.getD 0)
  -- the candle makes of the equity what it makes of the position before its signal
  have hgrowth : s.currentEquity candles[k].close =
      wealth initialCapital candles signals (k + 1) := by
    rw [wealth_succ, ← h.equity, growthAt, ← h.held, ← hclose]
    cases k with
    | zero =>
      have hnone : s.position = none := by
        rw [← Option.not_isSome_iff_eq_none, h.held]
        exact Bool.false_ne_true
      simp [Simulation.equity_of_none hnone, hnone]
    | succ k => exact h.allIn.equity_growth (closeAt_pos hpos (by omega))
  refine ⟨traded.track candles[k], by rw [Simulation.step, htrade]; rfl, ⟨?_, ?_, ?_, ?_, ?_⟩⟩
  · exact ⟨hall.capital_pos, hall.invested⟩
  · exact ⟨hbooked.growth, hbooked.pnl⟩
  · rw [List.range_succ, List.map_append, List.map_singleton]
    have hcharted := h.charted
    have hcharted' : Charted initialCapital
        ((List.range k).map fun i => wealth initialCapital candles signals (i + 1)) traded :=
      ⟨by rw [hcurve, hcharted.equities_eq], by rw [hpeak, hcharted.peak_eq],
        by rw [hcurve, hcharted.drawdowns_eq], by rw [hcurve, hmaxDd, hcharted.maxDd_eq]⟩
    exact hcharted'.track hinitial (hequity.trans hgrowth)
  · rw [heldBefore, ← h.held, ← hheld]
    rfl
  · rw [Nat.add_sub_cancel, hclose, ← hgrowth, ← hequity]
    rfl

theorem after_take (hinitial : 0 < initialCapital) (hpos : ∀ candle ∈ candles, 0 < candle.close)
    (hlength : signals.length = candles.length) {k : ℕ} (hk : k ≤ candles.length) :
    ∃ s, ((candles.zip signals).take k).foldlM Simulation.step (start initialCapital) = .ok s ∧
      After initialCapital candles signals k s := by
  induction k with
  | zero => exact ⟨start initialCapital, rfl, after_start hinitial⟩
  | succ k ih =>
    obtain ⟨s, hs, hafter⟩ := ih (by omega)
    obtain ⟨s', hs', hafter'⟩ := hafter.step hinitial hpos (by omega)
    have hzip : k < (candles.zip signals).length := by
      rw [List.length_zip]
      omega
    have hturn : (candles.zip signals)[k] = (candles[k], signals[k]?.getD 0) := by
      rw [List.getElem_zip, List.getElem?_eq_getElem (by omega)]
      rfl
    refine ⟨s', ?_, hafter'⟩
    rw [List.take_succ_eq_append_getElem hzip, List.foldlM_append, hs, hturn, ok_bind,
      List.foldlM_cons, hs', ok_bind]
    rfl

end

theorem wealth_pos {initialCapital : ℚ} (hinitial : 0 < initialCapital)
    {candles : List (Candle τ)} (hpos : ∀ candle ∈ candles, 0 < candle.close) (signals : List ℤ)
    {k : ℕ} (hk : k ≤ candles.length) : 0 < wealth initialCapital candles signals k := by
  apply mul_pos hinitial
  apply Finset.prod_pos
  intro i hi
  rw [Finset.mem_range] at hi
  rw [growthAt]
  split_ifs
  · exact div_pos (closeAt_pos hpos (by omega)) (closeAt_pos hpos (by omega))
  · exact one_pos

/-! ### Signals look back -/

theorem smaBefore_natCast {closes : List ℚ} {period i : ℕ} (hperiod : period ≤ i)
    (hi : i ≤ closes.length) :
    smaBefore closes period i = ((closes.take i).drop (i - period)).sum / period := by
  have hstart : sliceIndex closes.length (i - period : ℤ) = i - period := by
    rw [sliceIndex, if_neg (by omega)]
    omega
  have hstop : sliceIndex closes.length (i : ℤ) = i := by
    rw [sliceIndex, if_neg (by omega)]
    omega
  rw [smaBefore, slice, hstart, hstop]

/-- One place before there are enough closes, the slice starts at the last of all closes. -/
theorem smaBefore_sub_one {closes : List ℚ} {period : ℕ} (hpos : 0 < period)
    (hperiod : period < closes.length) : smaBefore closes period ((period : ℤ) - 1) = 0 := by
  have hstart : sliceIndex closes.length ((period : ℤ) - 1 - period) = closes.length - 1 := by
    rw [sliceIndex, if_pos (by omega)]
    omega
  have hstop : sliceIndex closes.length ((period : ℤ) - 1) = period - 1 := by
    rw [sliceIndex, if_neg (by omega)]
    omega
  rw [smaBefore, slice, hstart, hstop, List.drop_eq_nil_of_le]
  · simp
  · rw [List.length_take]
    omega

theorem smaBefore_congr {closes closes' : List ℚ} {period i : ℕ} (hpos : 0 < period)
    (hperiod : period ≤ i) (hi : i < closes.length) (hi' : i < closes'.length)
    (htake : closes.take i = closes'.take i) :
    smaBefore closes period i = smaBefore closes' period i ∧
      smaBefore closes period (i - 1) = smaBefore closes' period (i - 1) := by
  constructor
  · rw [smaBefore_natCast hperiod hi.le, smaBefore_natCast hperiod hi'.le, htake]
  · rcases hperiod.eq_or_lt with rfl | hlt
    · rw [smaBefore_sub_one hpos hi, smaBefore_sub_one hpos hi']
    · have hcast : (i : ℤ) - 1 = ((i - 1 : ℕ) : ℤ) := by omega
      have htake' : closes.take (i - 1) = closes'.take (i - 1) := by
        have h := congrArg (List.take (i - 1)) htake
        rwa [List.take_take, List.take_take, min_eq_left (by omega)] at h
      rw [hcast, smaBefore_natCast (by omega) (by omega), smaBefore_natCast (by omega) (by omega),
        htake']

theorem five_le_shortPeriod (strategyId : String) : 5 ≤ shortPeriod strategyId := le_max_left _ _

theorem shortPeriod_add_five_le (strategyId : String) :
    shortPeriod strategyId + 5 ≤ longPeriod strategyId := le_max_left _ _

theorem generateSignals_eq (candles : List (Candle τ)) (strategyId : String) :
    generateSignals candles strategyId = (List.range candles.length).map fun i =>
      if longPeriod strategyId ≤ i then
        signalAt (candles.map Candle.close) (shortPeriod strategyId) (longPeriod strategyId) i
      else 0 := by
  have hfive := five_le_shortPeriod strategyId
  have hlong := shortPeriod_add_five_le strategyId
  unfold generateSignals
  split_ifs with hfew
  · apply List.ext_getElem
    · simp
    · intro i hi _
      rw [List.length_replicate] at hi
      have hearly : ¬ longPeriod strategyId ≤ i := by omega
      simp [hearly]
  · rfl

@[simp] theorem length_generateSignals (candles : List (Candle τ)) (strategyId : String) :
    (generateSignals candles strategyId).length = candles.length := by
  simp [generateSignals_eq]

/-- The signal of a candle is settled by the closes before it. -/
theorem generateSignals_congr {candles candles' : List (Candle τ)} (strategyId : String) {i : ℕ}
    (hi : i < candles.length) (hi' : i < candles'.length)
    (htake : (candles.map Candle.close).take i = (candles'.map Candle.close).take i) :
    (generateSignals candles strategyId)[i]? = (generateSignals candles' strategyId)[i]? := by
  have hfive := five_le_shortPeriod strategyId
  have hlong := shortPeriod_add_five_le strategyId
  rw [generateSignals_eq, generateSignals_eq, List.getElem?_map, List.getElem?_map,
    List.getElem?_range hi, List.getElem?_range hi', Option.map_some, Option.map_some]
  split_ifs with henough
  · have hn : i < (candles.map Candle.close).length := by simpa using hi
    have hn' : i < (candles'.map Candle.close).length := by simpa using hi'
    obtain ⟨hshort, hshort'⟩ := @smaBefore_congr _ _ (shortPeriod strategyId) i (by omega)
      (by omega) hn hn' htake
    obtain ⟨hlong, hlong'⟩ := @smaBefore_congr _ _ (longPeriod strategyId) i (by omega)
      (by omega) hn hn' htake
    rw [signalAt, signalAt, hshort, hshort', hlong, hlong']
  · rfl

theorem generateSignals_append (candles later : List (Candle τ)) (strategyId : String) :
    generateSignals candles strategyId <+: generateSignals (candles ++ later) strategyId := by
  rw [List.prefix_iff_getElem?]
  intro i hi
  rw [length_generateSignals] at hi
  rw [← List.getElem?_eq_getElem (by simpa using hi)]
  apply generateSignals_congr strategyId
  · rw [List.length_append]
    omega
  · exact hi
  · rw [List.map_append, List.take_append_of_le_length]
    rw [List.length_map]
    exact hi.le

/-! ### What later candles cannot change -/

theorem prefix_of_step {s s' : Simulation τ} {turn : Candle τ × ℤ} (h : s.step turn = .ok s') :
    s.equityCurve <+: s'.equityCurve ∧ s.trades <+: s'.trades := by
  obtain ⟨traded, htrade, hs'⟩ := bind_eq_ok_iff.mp h
  obtain rfl : traded.track turn.1 = s' := by simpa [pure, Except.pure] using hs'
  have hkept : traded.equityCurve = s.equityCurve ∧ s.trades <+: traded.trades := by
    unfold Simulation.trade Simulation.enter at htrade
    split at htrade
    · obtain rfl := Except.ok.inj htrade
      split_ifs
      · exact ⟨rfl, List.prefix_append _ _⟩
      · exact ⟨rfl, List.prefix_rfl⟩
    · split_ifs at htrade <;> obtain rfl := Except.ok.inj htrade <;>
        exact ⟨rfl, List.prefix_rfl⟩
  refine ⟨?_, hkept.2⟩
  rw [← hkept.1]
  exact List.prefix_append _ _

theorem prefix_of_foldlM {turns : List (Candle τ × ℤ)} {s s' : Simulation τ}
    (h : turns.foldlM Simulation.step s = .ok s') :
    s.equityCurve <+: s'.equityCurve ∧ s.trades <+: s'.trades := by
  induction turns generalizing s with
  | nil =>
    obtain rfl : s = s' := by simpa [pure, Except.pure] using h
    exact ⟨List.prefix_rfl, List.prefix_rfl⟩
  | cons turn turns ih =>
    rw [List.foldlM_cons] at h
    obtain ⟨next, hnext, hrest⟩ := bind_eq_ok_iff.mp h
    obtain ⟨hcurve, htrades⟩ := prefix_of_step hnext
    obtain ⟨hcurve', htrades'⟩ := ih hrest
    exact ⟨hcurve.trans hcurve', htrades.trans htrades'⟩

theorem trades_finish (s : Simulation τ) (last : Candle τ) :
    s.trades <+: (s.finish last).trades ∧ (s.finish last).trades.dropLast <+: s.trades := by
  unfold Simulation.finish
  cases s.position with
  | none => exact ⟨List.prefix_rfl, List.dropLast_prefix _⟩
  | some position =>
    refine ⟨List.prefix_append _ _, ?_⟩
    simp only [Simulation.exit, List.dropLast_concat]
    exact List.prefix_rfl

theorem equityCurve_finish (s : Simulation τ) (last : Candle τ) :
    (s.finish last).equityCurve = s.equityCurve := by
  unfold Simulation.finish
  cases s.position <;> rfl

theorem prefix_of_simulate {candles later : List (Candle τ)} {strategyId : String}
    {initialCapital : ℚ} {s s' : Simulation τ}
    (h : simulate candles strategyId initialCapital = .ok s)
    (h' : simulate (candles ++ later) strategyId initialCapital = .ok s') :
    s.equityCurve <+: s'.equityCurve ∧ s.trades <+: s'.trades := by
  obtain ⟨rest, hrest⟩ := generateSignals_append candles later strategyId
  rw [simulate, ← hrest, List.zip_append (by simp), List.foldlM_append] at h'
  rw [simulate] at h
  rw [h, ok_bind] at h'
  exact prefix_of_foldlM h'

theorem runBacktest_cases {sqrt : ℚ → ℚ} {candles : List (Candle τ)} {strategyId : String}
    {initialCapital : ℚ} {r : BacktestResult τ}
    (h : runBacktest sqrt candles strategyId initialCapital = .ok r) :
    candles = [] ∧ r = emptyResult ∨
      ∃ s last, simulate candles strategyId initialCapital = .ok s ∧
        r = result sqrt (s.finish last) initialCapital := by
  unfold runBacktest at h
  cases hlast : candles.getLast? with
  | none =>
    rw [hlast] at h
    exact .inl ⟨List.getLast?_eq_none_iff.mp hlast, (Except.ok.inj h).symm⟩
  | some last =>
    rw [hlast] at h
    obtain ⟨s, hs, hresult⟩ := bind_eq_ok_iff.mp h
    split_ifs at hresult
    exact .inr ⟨s, last, hs, (Except.ok.inj hresult).symm⟩

/-! ### What a backtest returns -/

theorem finish_spec {initialCapital : ℚ} {s : Simulation τ} (hall : s.AllIn)
    (hbooked : Booked initialCapital s) (last : Candle τ) :
    Booked initialCapital (s.finish last) ∧
      (s.finish last).capital = s.currentEquity last.close := by
  unfold Simulation.finish Simulation.currentEquity
  cases hposition : s.position with
  | none => exact ⟨hbooked, rfl⟩
  | some position =>
    have hexit := hbooked.exit hall hposition last
    exact ⟨⟨hexit.growth, hexit.pnl⟩, rfl⟩

theorem Charted.isGreatest {initialCapital : ℚ} {equities : List ℚ} {s : Simulation τ}
    (h : Charted initialCapital equities s)
    (hpos : ∀ equity ∈ initialCapital :: equities, 0 < equity) :
    IsGreatest (relativeLosses (initialCapital :: equities)) s.maxDd := by
  apply isGreatest_relativeLosses hpos
  rw [drawdowns_cons, h.maxDd_eq, h.drawdowns_eq]
  exact isGreatest_foldl_max 0 _

/-- On positive prices the equity is that of a portfolio which is all in the asset after a signal
to buy and all out of it after one to sell. The profits of the trades add up to what is gained,
their growths multiply to it, and the drawdown is the largest loss from any point of the curve. -/
theorem runBacktest_spec (sqrt : ℚ → ℚ) {candles : List (Candle τ)} (hne : candles ≠ [])
    (hpos : ∀ candle ∈ candles, 0 < candle.close) {initialCapital : ℚ}
    (hinitial : 0 < initialCapital) (strategyId : String) :
    ∃ r, runBacktest sqrt candles strategyId initialCapital = .ok r ∧
      r.equityCurve.map EquityPoint.equity = (List.range candles.length).map (fun i =>
        wealth initialCapital candles (generateSignals candles strategyId) (i + 1)) ∧
      (∃ loss, IsGreatest (relativeLosses
          (initialCapital :: r.equityCurve.map EquityPoint.equity)) loss ∧
        r.maxDrawdown = roundTo 6 loss) ∧
      (∃ final, wealth initialCapital candles (generateSignals candles strategyId)
          candles.length = final ∧
        (r.trades.filterMap Trade.pnl).sum = final - initialCapital ∧
        (r.trades.map Trade.growth).prod = final / initialCapital ∧
        r.totalReturn = roundTo 6 (final / initialCapital - 1)) := by
  obtain ⟨s, hs, hafter⟩ := after_take hinitial hpos
    (length_generateSignals candles strategyId) (le_refl candles.length)
  rw [List.take_of_length_le (by simp)] at hs
  have hlast : candles.getLast? = some (candles.getLast hne) :=
    List.getLast?_eq_getLast_of_ne_nil hne
  obtain ⟨hbooked, hcapital⟩ := finish_spec hafter.allIn hafter.booked (candles.getLast hne)
  have hclose : closeAt candles (candles.length - 1) = (candles.getLast hne).close := by
    rw [closeAt, ← List.getLast?_eq_getElem?, hlast]
    rfl
  have hfinal := hafter.equity
  rw [hclose, ← hcapital] at hfinal
  refine ⟨result sqrt (s.finish (candles.getLast hne)) initialCapital, ?_, ?_, ?_, _, rfl, ?_, ?_,
    ?_⟩
  · simp only [runBacktest, hlast, simulate, hs, ok_bind, if_neg hinitial.ne']
  · rw [result, equityCurve_finish, hafter.charted.equities_eq]
  · refine ⟨s.maxDd, ?_, ?_⟩
    · rw [result, equityCurve_finish, hafter.charted.equities_eq]
      apply hafter.charted.isGreatest
      intro equity hequity
      rcases List.mem_cons.mp hequity with rfl | hmem
      · exact hinitial
      · obtain ⟨i, hi, rfl⟩ := List.mem_map.mp hmem
        exact wealth_pos hinitial hpos _ (List.mem_range.mp hi)
    · rw [result]
      unfold Simulation.finish
      cases s.position <;> rfl
  · rw [← hfinal, ← hbooked.pnl]
    exact (add_sub_cancel_left _ _).symm
  · rw [← hfinal, hbooked.growth, mul_div_cancel_left₀ _ hinitial.ne']
    rfl
  · rw [← hfinal, result, sub_div, div_self hinitial.ne']

def twoCandles : List (Candle ℕ) := [⟨0, 100⟩, ⟨1, 110⟩]

theorem twoCandles_spec :
    ∃ r, runBacktest (fun _ => 0) twoCandles "sma" 10000 = .ok r ∧
      r.equityCurve.map EquityPoint.equity = (List.range twoCandles.length).map (fun i =>
        wealth 10000 twoCandles (generateSignals twoCandles "sma") (i + 1)) ∧
      (∃ loss, IsGreatest (relativeLosses (10000 :: r.equityCurve.map EquityPoint.equity)) loss ∧
        r.maxDrawdown = roundTo 6 loss) ∧
      (∃ final, wealth 10000 twoCandles (generateSignals twoCandles "sma")
          twoCandles.length = final ∧
        (r.trades.filterMap Trade.pnl).sum = final - 10000 ∧
        (r.trades.map Trade.growth).prod = final / 10000 ∧
        r.totalReturn = roundTo 6 (final / 10000 - 1)) := by
  apply runBacktest_spec
  · simp [twoCandles]
  · simp [twoCandles]
  · norm_num

def curveOf (equities : List ℚ) : BacktestResult ℕ :=
  { emptyResult with equityCurve := equities.mapIdx fun i equity => ⟨i, equity, 0⟩ }

end TradeStream.BacktestApi
