import TradeStream.BacktestRunner

/-! The metrics of `BacktestRunnerImpl` and the score made of them, in exact arithmetic:
what becomes of the score when all prices are multiplied by one number. -/
namespace TradeStream.BacktestRunner

variable {α : Type*} [Field α] [LinearOrder α]

/-- The numerals of the metrics are found by name. -/
scoped instance atLeastTwo_two : Nat.AtLeastTwo 2 := ⟨by norm_num⟩

scoped instance atLeastTwo_three : Nat.AtLeastTwo 3 := ⟨by norm_num⟩

scoped instance atLeastTwo_ten : Nat.AtLeastTwo 10 := ⟨by norm_num⟩

scoped instance atLeastTwo_hundred : Nat.AtLeastTwo 100 := ⟨by norm_num⟩

/-- The trading days of a year. -/
scoped instance atLeastTwo_tradingDays : Nat.AtLeastTwo 252 := ⟨by norm_num⟩

/-- The minutes of a day. -/
scoped instance atLeastTwo_minutes : Nat.AtLeastTwo 1440 := ⟨by norm_num⟩

/-- What the runner calls outside of its own code: `kotlin.math`, and the criteria of
ta4j on closed positions. -/
structure Runtime (α : Type*) where
  sqrt : α → α
  pow : α → α → α
  profit : Position α → α
  grossProfitLoss : List (Position α) → α
  grossProfitLossRatio : List (Position α) → α
  grossReturn : List (Position α) → α

structure BacktestResult (α : Type*) where
  cumulativeReturn : α
  annualizedReturn : α
  sharpeRatio : α
  sortinoRatio : α
  maxDrawdown : α
  volatility : α
  winRate : α
  profitFactor : α
  numberOfTrades : ℕ
  averageTradeDuration : α
  alpha : α
  beta : α
  strategyScore : α

/-- `average` of a list that is not empty. -/
def average (values : List α) : α := values.sum / values.length

/-- The root of the mean square distance from the mean. -/
def deviation (runtime : Runtime α) (values : List α) : α :=
  runtime.sqrt (average (values.map fun x => (x - average values) ^ 2))

/-- The relative changes from bar to bar. -/
def barReturns (series : Bars α) : List α :=
  (List.range' 1 (series.barCount - 1)).map fun i =>
    (series.closePrice i - series.closePrice (i - 1)) / series.closePrice (i - 1)

def calculateVolatility (runtime : Runtime α) (series : Bars α) : α :=
  if series.barCount < 2 then 0 else deviation runtime (barReturns series)

/-- One bar of the loop over the largest drawdown so far and the peak. -/
def drawdownBar (series : Bars α) (acc : α × α) (i : ℕ) : α × α :=
  let price := series.closePrice i
  let peak := if acc.2 < price then price else acc.2
  (max acc.1 ((peak - price) / peak), peak)

def calculateMaxDrawdown (series : Bars α) : α :=
  if series.barCount = 0 then 0
  else
    ((List.range' 1 (series.barCount - 1)).foldl (drawdownBar series)
      (0, series.closePrice 0)).1

def calculateWinRate (runtime : Runtime α) (record : TradingRecord α) : α :=
  if record.positions = [] then 0
  else (record.positions.countP fun p => 0 < runtime.profit p) / record.positions.length

def calculateAverageTradeDuration (record : TradingRecord α) : α :=
  if record.positions = [] then 0
  else
    ((record.positions.map fun p => (p.exit.index : α) - p.entry.index).sum) /
      record.positions.length

def calculateAnnualizedReturn (runtime : Runtime α) (series : Bars α)
    (record : TradingRecord α) : α :=
  let totalReturn := runtime.grossReturn record.positions
  let barsPerYear := 252 * 1440
  let years := (series.barCount : α) / barsPerYear
  runtime.pow (1 + totalReturn) (1 / years) - 1

def calculateSharpeRatio (returns volatility : α) : α :=
  let riskFreeRate := 2 / 100
  if volatility = 0 then 0 else (returns - riskFreeRate) / volatility

def calculateSortinoRatio (runtime : Runtime α) (series : Bars α) (record : TradingRecord α) : α :=
  let negativeReturns := (barReturns series).filter fun x => x < 0
  if negativeReturns = [] then 0
  else
    let downsideDeviation := deviation runtime negativeReturns
    let totalReturn := runtime.grossReturn record.positions
    let riskFreeRate := 2 / 100
    if downsideDeviation = 0 then 0 else (totalReturn - riskFreeRate) / downsideDeviation

/-- Clamped to the unit interval, from the bounds -1 and 2. -/
def normalize (value : α) : α := max 0 (min ((value - -1) / (2 - -1)) 1)

def calculateScore (sharpeRatio maxDrawdown winRate annualizedReturn profitFactor : α) : α :=
  25 / 100 * normalize sharpeRatio + 20 / 100 * (1 - maxDrawdown) + 20 / 100 * winRate +
    20 / 100 * normalize annualizedReturn + 15 / 100 * normalize profitFactor

/-- What `runBacktest` computes of a series and the trades on it. -/
def calculateMetrics (runtime : Runtime α) (series : Bars α) (record : TradingRecord α) :
    BacktestResult α :=
  let cumulativeReturn := runtime.grossProfitLoss record.positions
  let profitFactor := runtime.grossProfitLossRatio record.positions
  let annualizedReturn := calculateAnnualizedReturn runtime series record
  let volatility := calculateVolatility runtime series
  let maxDrawdown := calculateMaxDrawdown series
  let winRate := calculateWinRate runtime record
  let sharpeRatio := calculateSharpeRatio cumulativeReturn volatility
  { cumulativeReturn
    annualizedReturn
    sharpeRatio
    sortinoRatio := calculateSortinoRatio runtime series record
    maxDrawdown
    volatility
    winRate
    profitFactor
    numberOfTrades := record.positions.length
    averageTradeDuration := calculateAverageTradeDuration record
    alpha := 0
    beta := 1
    strategyScore :=
      calculateScore sharpeRatio maxDrawdown winRate annualizedReturn profitFactor }

/-! ### Prices multiplied by one number -/

/-- The same bars in another unit of price. -/
def Bars.scale (c : α) (series : Bars α) : Bars α :=
  ⟨series.barCount, fun i => c * series.closePrice i⟩

/-- The record of trades at fixed bars: entries and exits of the closed positions, and the
entry of the opened one. -/
def recordAt (series : Bars α) (closed : List (ℕ × ℕ)) (opened : Option ℕ) : TradingRecord α :=
  ⟨closed.map fun p => ⟨tradeAt series p.1, tradeAt series p.2⟩, opened.map (tradeAt series)⟩

omit [LinearOrder α] in
theorem runBar_recordAt (strategy : Strategy) (series series' : Bars α) (closed : List (ℕ × ℕ))
    (opened : Option ℕ) (i : ℕ) :
    ∃ closed' opened',
      runBar strategy series (recordAt series closed opened) i = recordAt series closed' opened' ∧
        runBar strategy series' (recordAt series' closed opened) i =
          recordAt series' closed' opened' := by
  cases opened with
  | none =>
    by_cases henter : strategy.shouldEnter i = true
    · exact ⟨closed, some i, by simp [runBar, henter, TradingRecord.enter, recordAt],
        by simp [runBar, henter, TradingRecord.enter, recordAt]⟩
    · exact ⟨closed, none, by simp [runBar, henter, TradingRecord.isOpened, recordAt],
        by simp [runBar, henter, TradingRecord.isOpened, recordAt]⟩
  | some j =>
    by_cases henter : strategy.shouldEnter i = true
    · exact ⟨closed, some j, by simp [runBar, henter, TradingRecord.enter, recordAt],
        by simp [runBar, henter, TradingRecord.enter, recordAt]⟩
    · by_cases hexit : strategy.shouldExit i = true
      · exact ⟨closed ++ [(j, i)], none,
          by simp [runBar, henter, hexit, TradingRecord.isOpened, TradingRecord.exit, recordAt],
          by simp [runBar, henter, hexit, TradingRecord.isOpened, TradingRecord.exit, recordAt]⟩
      · exact ⟨closed, some j, by simp [runBar, henter, hexit, recordAt],
          by simp [runBar, henter, hexit, recordAt]⟩

omit [LinearOrder α] in
/-- The bars at which a strategy trades do not depend on the prices. -/
theorem runStrategy_recordAt (strategy : Strategy) {series series' : Bars α}
    (hcount : series'.barCount = series.barCount) :
    ∃ closed opened, runStrategy strategy series = recordAt series closed opened ∧
      runStrategy strategy series' = recordAt series' closed opened := by
  have hbars : stableBars strategy series' = stableBars strategy series := by
    rw [stableBars, stableBars, hcount]
  have hloop : ∀ (bars : List ℕ) closed opened, ∃ closed' opened',
      bars.foldl (runBar strategy series) (recordAt series closed opened) =
          recordAt series closed' opened' ∧
        bars.foldl (runBar strategy series') (recordAt series' closed opened) =
          recordAt series' closed' opened' := by
    intro bars
    induction bars with
    | nil => exact fun closed opened => ⟨closed, opened, rfl, rfl⟩
    | cons i bars ih =>
      intro closed opened
      obtain ⟨closed', opened', h, h'⟩ :=
        runBar_recordAt strategy series series' closed opened i
      rw [List.foldl_cons, List.foldl_cons, h, h']
      exact ih closed' opened'
  rw [runStrategy, runStrategy, hbars]
  exact hloop _ [] none

/-- The change of price over a position. -/
def Position.priceRatio (p : Position α) : α := p.exit.pricePerAsset / p.entry.pricePerAsset

/-- What the runner is promised of the criteria: gross profits are absolute, and the other
two are made of ratios, of prices and of profits. -/
structure Runtime.Documented (runtime : Runtime α) : Prop where
  sqrt_nonneg : ∀ x, 0 ≤ runtime.sqrt x
  profit_eq : ∀ p : Position α,
    runtime.profit p = (p.exit.pricePerAsset - p.entry.pricePerAsset) * p.entry.amount
  grossProfitLoss_eq : ∀ ps, runtime.grossProfitLoss ps = (ps.map runtime.profit).sum
  grossProfitLossRatio_congr : ∀ ps qs, ∀ c > 0,
    qs.map runtime.profit = ps.map (fun p => c * runtime.profit p) →
      runtime.grossProfitLossRatio qs = runtime.grossProfitLossRatio ps
  grossReturn_congr : ∀ ps qs : List (Position α),
    qs.map Position.priceRatio = ps.map Position.priceRatio →
      runtime.grossReturn qs = runtime.grossReturn ps

section
variable {c : α} (series : Bars α)

omit [LinearOrder α] in
theorem barReturns_scale (hc : c ≠ 0) : barReturns (series.scale c) = barReturns series := by
  unfold barReturns
  apply List.map_congr_left
  intro i _
  simp only [Bars.scale]
  rw [← mul_sub, mul_div_mul_left _ _ hc]

omit [LinearOrder α] in
theorem calculateVolatility_scale (runtime : Runtime α) (hc : c ≠ 0) :
    calculateVolatility runtime (series.scale c) = calculateVolatility runtime series := by
  rw [calculateVolatility, calculateVolatility, barReturns_scale series hc]
  rfl

omit [LinearOrder α] in
theorem priceRatio_scale (hc : c ≠ 0) (closed : List (ℕ × ℕ)) (opened : Option ℕ) :
    (recordAt (series.scale c) closed opened).positions.map Position.priceRatio =
      (recordAt series closed opened).positions.map Position.priceRatio := by
  simp only [recordAt, List.map_map]
  apply List.map_congr_left
  intro p _
  exact mul_div_mul_left _ _ hc

variable {runtime : Runtime α} (h : runtime.Documented) (closed : List (ℕ × ℕ))
  (opened : Option ℕ)
include h

theorem profit_scale (p : ℕ × ℕ) :
    runtime.profit ⟨tradeAt (series.scale c) p.1, tradeAt (series.scale c) p.2⟩ =
      c * runtime.profit ⟨tradeAt series p.1, tradeAt series p.2⟩ := by
  rw [h.profit_eq, h.profit_eq]
  simp only [tradeAt, Bars.scale]
  ring

theorem grossProfitLoss_scale :
    runtime.grossProfitLoss (recordAt (series.scale c) closed opened).positions =
      c * runtime.grossProfitLoss (recordAt series closed opened).positions := by
  rw [h.grossProfitLoss_eq, h.grossProfitLoss_eq, recordAt, recordAt, List.map_map, List.map_map,
    ← List.sum_map_mul_left]
  apply congrArg List.sum
  apply List.map_congr_left
  intro p _
  exact profit_scale series h p

theorem grossProfitLossRatio_scale (hc : 0 < c) :
    runtime.grossProfitLossRatio (recordAt (series.scale c) closed opened).positions =
      runtime.grossProfitLossRatio (recordAt series closed opened).positions := by
  apply h.grossProfitLossRatio_congr _ _ c hc
  rw [recordAt, recordAt, List.map_map, List.map_map]
  apply List.map_congr_left
  intro p _
  exact profit_scale series h p

theorem calculateAnnualizedReturn_scale (hc : c ≠ 0) :
    calculateAnnualizedReturn runtime (series.scale c)
        (recordAt (series.scale c) closed opened) =
      calculateAnnualizedReturn runtime series (recordAt series closed opened) := by
  unfold calculateAnnualizedReturn
  rw [h.grossReturn_congr _ _ (priceRatio_scale series hc closed opened)]
  rfl

end

section
variable [IsStrictOrderedRing α] {c : α} (series : Bars α)

/-- The largest drawdown is kept, and the peak goes with the prices. -/
theorem drawdownBar_scale (hc : 0 < c) (acc : α × α) (i : ℕ) :
    drawdownBar (series.scale c) (acc.1, c * acc.2) i =
      ((drawdownBar series acc i).1, c * (drawdownBar series acc i).2) := by
  have hratio : ∀ a b : α, (c * a - c * b) / (c * a) = (a - b) / a := by
    intro a b
    rw [← mul_sub, mul_div_mul_left _ _ hc.ne']
  have hhigher : c * acc.2 < c * series.closePrice i ↔ acc.2 < series.closePrice i :=
    mul_lt_mul_iff_of_pos_left hc
  by_cases hlt : acc.2 < series.closePrice i
  · simp [drawdownBar, Bars.scale, hlt, hhigher.mpr hlt]
  · simp [drawdownBar, Bars.scale, hlt, hhigher.not.mpr hlt, hratio]

theorem calculateMaxDrawdown_scale (hc : 0 < c) :
    calculateMaxDrawdown (series.scale c) = calculateMaxDrawdown series := by
  -- from any peak on, since the loop changes it
  have hloop : ∀ (bars : List ℕ) (acc : α × α),
      bars.foldl (drawdownBar (series.scale c)) (acc.1, c * acc.2) =
        ((bars.foldl (drawdownBar series) acc).1, c * (bars.foldl (drawdownBar series) acc).2) := by
    intro bars
    induction bars with
    | nil => exact fun _ => rfl
    | cons i bars ih =>
      intro acc
      rw [List.foldl_cons, List.foldl_cons, drawdownBar_scale series hc]
      exact ih (drawdownBar series acc i)
  have hlargest := congrArg Prod.fst
    (hloop (List.range' 1 (series.barCount - 1)) (0, series.closePrice 0))
  unfold calculateMaxDrawdown
  change (if series.barCount = 0 then 0 else _) = _
  split_ifs
  · rfl
  · exact hlargest

variable {runtime : Runtime α} (h : runtime.Documented) (closed : List (ℕ × ℕ))
  (opened : Option ℕ)
include h

theorem calculateWinRate_scale (hc : 0 < c) :
    calculateWinRate runtime (recordAt (series.scale c) closed opened) =
      calculateWinRate runtime (recordAt series closed opened) := by
  -- the sign of a profit does not depend on the unit
  have hwins : (recordAt (series.scale c) closed opened).positions.countP
        (fun p => 0 < runtime.profit p) =
      (recordAt series closed opened).positions.countP fun p => 0 < runtime.profit p := by
    rw [recordAt, recordAt, List.countP_map, List.countP_map]
    apply List.countP_congr
    intro p _
    simp only [Function.comp, decide_eq_true_eq, profit_scale series h p,
      mul_pos_iff_of_pos_left hc]
  unfold calculateWinRate
  rw [hwins]
  simp [recordAt]

end

/-! ### The score -/

section
variable [IsStrictOrderedRing α]

theorem clamp_eq_iff {a b : α} :
    max 0 (min a 1) = max 0 (min b 1) ↔ a = b ∨ 1 ≤ a ∧ 1 ≤ b ∨ a ≤ 0 ∧ b ≤ 0 := by
  -- between the bounds the order is kept
  have hstrict : ∀ {x y : α}, x < y → x < 1 → 0 < y → max 0 (min x 1) < max 0 (min y 1) := by
    intro x y hlt hx hy
    rw [min_eq_left hx.le]
    apply max_lt
    · exact lt_max_of_lt_right (lt_min hy zero_lt_one)
    · exact lt_max_of_lt_right (lt_min hlt hx)
  have hbound : ∀ {x y : α}, x < y → max 0 (min x 1) = max 0 (min y 1) →
      1 ≤ x ∧ 1 ≤ y ∨ x ≤ 0 ∧ y ≤ 0 := by
    intro x y hlt heq
    rcases le_or_gt 1 x with hx | hx
    · exact Or.inl ⟨hx, hx.trans hlt.le⟩
    · rcases le_or_gt y 0 with hy | hy
      · exact Or.inr ⟨hlt.le.trans hy, hy⟩
      · exact absurd heq (hstrict hlt hx hy).ne
  constructor
  · intro heq
    rcases lt_trichotomy a b with hlt | hab | hgt
    · exact Or.inr (hbound hlt heq)
    · exact Or.inl hab
    · right
      simpa only [and_comm] using hbound hgt heq.symm
  · rintro (rfl | ⟨ha, hb⟩ | ⟨ha, hb⟩)
    · rfl
    · rw [min_eq_right ha, min_eq_right hb]
    · rw [max_eq_left ((min_le_left a 1).trans ha), max_eq_left ((min_le_left b 1).trans hb)]

theorem normalize_eq_iff {a b : α} :
    normalize a = normalize b ↔ a = b ∨ 2 ≤ a ∧ 2 ≤ b ∨ a ≤ -1 ∧ b ≤ -1 := by
  have hthree : (2 - -1 : α) = 3 := by norm_num
  have hone : ∀ x : α, 1 ≤ (x - -1) / 3 ↔ 2 ≤ x := by
    intro x
    rw [le_div_iff₀ (by norm_num)]
    constructor <;> intro hx <;> linarith
  have hzero : ∀ x : α, (x - -1) / 3 ≤ 0 ↔ x ≤ -1 := by
    intro x
    rw [div_le_iff₀ (by norm_num)]
    constructor <;> intro hx <;> linarith
  have heq : (a - -1) / 3 = (b - -1) / 3 ↔ a = b := by
    rw [div_left_inj' (by norm_num), sub_left_inj]
  rw [normalize, normalize, hthree, clamp_eq_iff, hone, hone, hzero, hzero, heq]

/-- The score depends on the unit of price through the absolute profit `P` alone, which the
Sharpe ratio sets against the volatility `V`. -/
def ScoreKept (c P V : α) : Prop :=
  c = 1 ∨ P = 0 ∨ V = 0 ∨ (2 / 100 + 2 * V ≤ P ∧ 2 / 100 + 2 * V ≤ c * P) ∨
    P ≤ 2 / 100 - V ∧ c * P ≤ 2 / 100 - V

theorem normalize_sharpe_eq_iff {c P V : α} (hV : 0 ≤ V) :
    normalize (calculateSharpeRatio (c * P) V) = normalize (calculateSharpeRatio P V) ↔
      ScoreKept c P V := by
  rw [normalize_eq_iff, calculateSharpeRatio, calculateSharpeRatio, ScoreKept]
  by_cases hzero : V = 0
  · simp [hzero]
  · have hpos : 0 < V := lt_of_le_of_ne hV (Ne.symm hzero)
    have heq : (c * P - 2 / 100) / V = (P - 2 / 100) / V ↔ c = 1 ∨ P = 0 := by
      rw [div_left_inj' hzero, sub_left_inj, mul_left_eq_self₀]
    have hhigh : ∀ x : α, 2 ≤ (x - 2 / 100) / V ↔ 2 / 100 + 2 * V ≤ x := by
      intro x
      rw [le_div_iff₀ hpos, le_sub_iff_add_le']
    have hlow : ∀ x : α, (x - 2 / 100) / V ≤ -1 ↔ x ≤ 2 / 100 - V := by
      intro x
      rw [div_le_iff₀ hpos, neg_one_mul, sub_le_iff_le_add', sub_eq_add_neg]
    rw [if_neg hzero, if_neg hzero, heq, hhigh, hhigh, hlow, hlow]
    simp only [hzero, false_or]
    tauto

theorem calculateScore_eq_iff {s s' m w a f : α} :
    calculateScore s m w a f = calculateScore s' m w a f ↔ normalize s = normalize s' := by
  unfold calculateScore
  rw [add_left_inj, add_left_inj, add_left_inj, add_left_inj, mul_right_inj' (by norm_num)]

end

section
variable [IsStrictOrderedRing α] {runtime : Runtime α}

theorem strategyScore_scale (h : runtime.Documented) (series : Bars α)
    (closed : List (ℕ × ℕ)) (opened : Option ℕ) {c : α} (hc : 0 < c) :
    (calculateMetrics runtime (series.scale c)
        (recordAt (series.scale c) closed opened)).strategyScore =
      calculateScore
        (calculateSharpeRatio
          (c * runtime.grossProfitLoss (recordAt series closed opened).positions)
          (calculateVolatility runtime series))
        (calculateMaxDrawdown series)
        (calculateWinRate runtime (recordAt series closed opened))
        (calculateAnnualizedReturn runtime series (recordAt series closed opened))
        (runtime.grossProfitLossRatio (recordAt series closed opened).positions) := by
  unfold calculateMetrics
  rw [grossProfitLoss_scale series h, grossProfitLossRatio_scale series h closed opened hc,
    calculateVolatility_scale series runtime hc.ne', calculateMaxDrawdown_scale series hc,
    calculateWinRate_scale series h closed opened hc,
    calculateAnnualizedReturn_scale series h closed opened hc.ne']

theorem strategyScore_scale_eq_iff (h : runtime.Documented) (series : Bars α)
    (closed : List (ℕ × ℕ)) (opened : Option ℕ) {c : α} (hc : 0 < c) :
    (calculateMetrics runtime (series.scale c)
        (recordAt (series.scale c) closed opened)).strategyScore =
      (calculateMetrics runtime series (recordAt series closed opened)).strategyScore ↔
        ScoreKept c (runtime.grossProfitLoss (recordAt series closed opened).positions)
          (calculateVolatility runtime series) := by
  have hV : 0 ≤ calculateVolatility runtime series := by
    unfold calculateVolatility
    split_ifs
    · exact le_rfl
    · exact h.sqrt_nonneg _
  rw [strategyScore_scale h series closed opened hc]
  exact calculateScore_eq_iff.trans (normalize_sharpe_eq_iff hV)

end

/-! ### Criteria as documented -/

section

/-- The average profit over the average loss: 0 without a profit, 1 without a loss. -/
def profitLossRatio (profits : List α) : α :=
  let gains := profits.filter fun x => 0 < x
  let losses := profits.filter fun x => x < 0
  if gains = [] then 0
  else if losses = [] then 1
  else |average gains / average losses|

def documentedRuntime (sqrt : α → α) (pow : α → α → α) : Runtime α :=
  let profit := fun p : Position α =>
    (p.exit.pricePerAsset - p.entry.pricePerAsset) * p.entry.amount
  { sqrt
    pow
    profit
    grossProfitLoss := fun ps => (ps.map profit).sum
    grossProfitLossRatio := fun ps => profitLossRatio (ps.map profit)
    grossReturn := fun ps => (ps.map Position.priceRatio).prod }

omit [LinearOrder α] in
theorem average_map_mul (c : α) (values : List α) :
    average (values.map (c * ·)) = c * average values := by
  rw [average, average, List.sum_map_mul_left, List.map_id', List.length_map, mul_div_assoc]

variable [IsStrictOrderedRing α]

theorem profitLossRatio_map_mul {c : α} (hc : 0 < c) (profits : List α) :
    profitLossRatio (profits.map (c * ·)) = profitLossRatio profits := by
  have hgains : (profits.map (c * ·)).filter (fun x => 0 < x) =
      (profits.filter fun x => 0 < x).map (c * ·) := by
    rw [List.filter_map]
    simp [Function.comp_def, mul_pos_iff_of_pos_left hc]
  have hlosses : (profits.map (c * ·)).filter (fun x => x < 0) =
      (profits.filter fun x => x < 0).map (c * ·) := by
    have hneg : ∀ x, c * x < 0 ↔ x < 0 := by
      intro x
      rw [← not_le, ← not_le, mul_nonneg_iff_of_pos_left hc]
    rw [List.filter_map]
    simp [Function.comp_def, hneg]
  unfold profitLossRatio
  simp only [hgains, hlosses, List.map_eq_nil_iff, average_map_mul, mul_div_mul_left _ _ hc.ne']

theorem documentedRuntime_documented {sqrt : α → α} (hsqrt : ∀ x, 0 ≤ sqrt x)
    (pow : α → α → α) : (documentedRuntime sqrt pow).Documented where
  sqrt_nonneg := hsqrt
  profit_eq := fun _ => rfl
  grossProfitLoss_eq := fun _ => rfl
  grossProfitLossRatio_congr := by
    intro ps qs c hc hqs
    have hmap : qs.map (documentedRuntime sqrt pow).profit =
        (ps.map (documentedRuntime sqrt pow).profit).map (c * ·) := by
      rw [hqs, List.map_map]
      rfl
    change profitLossRatio (qs.map (documentedRuntime sqrt pow).profit) = _
    rw [hmap, profitLossRatio_map_mul hc]
    rfl
  grossReturn_congr := fun _ _ h => congrArg List.prod h

end

/-- The score is kept in another unit of price just when the Sharpe ratio is, as far as
its bounds tell it: the profit is zero, or the volatility, or the ratio stays beyond one
bound. -/
theorem strategyScore_scale_iff [IsStrictOrderedRing α] {runtime : Runtime α}
    (h : runtime.Documented) (series : Bars α)
    (closed : List (ℕ × ℕ)) (opened : Option ℕ) {c : α} (hc : 0 < c) :
    (calculateMetrics runtime (series.scale c)
        (recordAt (series.scale c) closed opened)).strategyScore =
      (calculateMetrics runtime series (recordAt series closed opened)).strategyScore ↔
        ScoreKept c (runtime.grossProfitLoss (recordAt series closed opened).positions)
          (calculateVolatility runtime series) := by
  exact strategyScore_scale_eq_iff h series closed opened hc

/-- Three bars, of which the second is half as high again as the first. -/
noncomputable def risingBars : Bars ℝ := ⟨3, fun i => if i = 0 then 1 else 3 / 2⟩

noncomputable def realRuntime : Runtime ℝ := documentedRuntime Real.sqrt fun x y => x ^ y

theorem risingBars_scale_iff :
    (calculateMetrics realRuntime (risingBars.scale 2)
        (recordAt (risingBars.scale 2) [(0, 1)] none)).strategyScore =
      (calculateMetrics realRuntime risingBars (recordAt risingBars [(0, 1)] none)).strategyScore ↔
        ScoreKept 2 (realRuntime.grossProfitLoss (recordAt risingBars [(0, 1)] none).positions)
          (calculateVolatility realRuntime risingBars) :=
  strategyScore_scale_iff (documentedRuntime_documented Real.sqrt_nonneg _) risingBars [(0, 1)]
    none (by norm_num)

/-- A tenth of the prices: the ratio falls from 1.92 to 0.12. -/
theorem risingBars_score_ne :
    (calculateMetrics realRuntime (risingBars.scale (1 / 10))
        (recordAt (risingBars.scale (1 / 10)) [(0, 1)] none)).strategyScore ≠
      (calculateMetrics realRuntime risingBars
        (recordAt risingBars [(0, 1)] none)).strategyScore := by
  have hprofit :
      realRuntime.grossProfitLoss (recordAt risingBars [(0, 1)] none).positions = 1 / 2 := by
    norm_num [realRuntime, documentedRuntime, recordAt, tradeAt, risingBars]
  have hreturns : barReturns risingBars = [1 / 2, 0] := by
    simp [barReturns, risingBars, List.range']
    norm_num
  have hvolatility : calculateVolatility realRuntime risingBars = 1 / 4 := by
    have hsquare : average ([1 / 2, 0].map fun x : ℝ => (x - average [1 / 2, 0]) ^ 2) =
        (1 / 4) ^ 2 := by
      norm_num [average]
    rw [calculateVolatility, if_neg (by norm_num [risingBars]), hreturns, deviation, hsquare]
    exact Real.sqrt_sq (by norm_num)
  have hdocumented : realRuntime.Documented :=
    documentedRuntime_documented Real.sqrt_nonneg _
  rw [Ne, strategyScore_scale_eq_iff hdocumented risingBars [(0, 1)] none (by norm_num),
    hprofit, hvolatility, ScoreKept]
  norm_num

end TradeStream.BacktestRunner
