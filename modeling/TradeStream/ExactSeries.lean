import TradeStream.SeriesLibrary
import TradeStream.StrategyConfigValidation

/-! The series library in exact arithmetic: a number is rational, or not a number. What is
made of a bar is computed from the bars up to it. -/
namespace TradeStream.Backtesting.ExactSeries
open TradeStream.Causality

/-- A number, or `nan`. -/
abbrev Value := Option ℚ

/-- A division by zero has no number here. -/
def divide (x y : ℚ) : Value := if y = 0 then none else some (x / y)

def mean (xs : List ℚ) : ℚ := xs.sum / xs.length

/-- A function of numbers, on values that all are. -/
def onNumbers (f : List ℚ → ℚ) (xs : List Value) : Value := (xs.mapM id).map f

/-- The place of the first value that no other one is beyond. -/
def placeOf (beyond : ℚ → ℚ → Bool) (xs : List ℚ) : ℕ :=
  xs.findIdx fun x => xs.all fun y => !beyond y x

def largest (xs : List ℚ) : ℚ := xs.foldl max (xs.headD 0)

def smallest (xs : List ℚ) : ℚ := xs.foldl min (xs.headD 0)

def float64 : Float64 Value where
  nan := none
  lit := some
  add x y := x.bind fun x => y.map fun y => x + y
  sub x y := x.bind fun x => y.map fun y => x - y
  mul x y := x.bind fun x => y.map fun y => x * y
  div x y := x.bind fun x => y.bind fun y => divide x y
  neg x := x.map fun x => -x
  abs x := x.map fun x => |x|
  lt x y := ((x.bind fun x => y.map fun y => decide (x < y))).getD false
  le x y := ((x.bind fun x => y.map fun y => decide (x ≤ y))).getD false
  sum := onNumbers List.sum
  mean := onNumbers mean
  dot xs ys := onNumbers List.sum (xs.zipWith (fun x y => x.bind fun x => y.map fun y => x * y) ys)
  rowMax xs := if xs.reduceOption = [] then none else some (largest xs.reduceOption)
  argmax xs := placeOf (fun y x => x < y) xs.reduceOption
  argmin xs := placeOf (fun y x => y < x) xs.reduceOption

/-- Texts are ASCII, and the numbers in them whole. -/
def runtime : SeriesRuntime Value where
  toFloat64 := float64
  isWord c := c.isAlphanum || c = '_'
  parseFloat s := (Configurable.wholeNumber? s).map fun n => some n
  boolFloat b := some (if b then 1 else 0)
  upper s := String.ofList (s.toList.map Char.toUpper)
  upper_of_upper := Configurable.asciiRuntime.toUpperCase_of_upper
  truncate
    | none => .error .valueError
    | some x => .ok (if x < 0 then ⌈x⌉ else ⌊x⌋)
  parseInt := Configurable.wholeNumber?

/-! ### Windows -/

def lastOf (window : ℤ) (xs : List Value) : List Value := xs.drop (xs.length - window.toNat)

/-- A bar with fewer bars than the window has no value. -/
def windowed (window : ℤ) (f : List Value → Value) : List Value → List Value :=
  ofHistory fun past => if window.toNat ≤ past.length then f (lastOf window past) else none

def aggregate : Aggregation → List ℚ → ℚ
  | .mean => mean
  | .sum => List.sum
  | .max => largest
  | .min => smallest

/-- `y = (1 - α) y + α x` with `α = 2 / (span + 1)`, from the first value on. -/
def exponential (span : ℤ) (past : List Value) : Value :=
  past.foldl (fun y x =>
    match y, x with
    | none, x => x
    | some y, none => some y
    | some y, some x => some ((1 - 2 / (span + 1)) * y + 2 / (span + 1) * x)) none

def movingAverage (window : ℤ) (ewm : Bool) (xs : List Value) : List Value :=
  if ewm then
    ofHistory (fun past => if window.toNat ≤ past.length then exponential window past else none) xs
  else windowed window (onNumbers mean) xs

def moves (xs : List ℚ) : List ℚ := xs.tail.zipWith (· - ·) xs

def strength (xs : List ℚ) : Value :=
  let gain := ((moves xs).map fun x => max x 0).sum
  let loss := ((moves xs).map fun x => max (-x) 0).sum
  divide (100 * gain) (gain + loss)

/-- A rational near the square root, and the root of a square. -/
def root (x : ℚ) : ℚ := (Nat.sqrt (x.num.toNat * x.den) : ℚ) / x.den

def deviation (xs : List ℚ) : ℚ := root (mean (xs.map fun x => (x - mean xs) ^ 2))

def before (xs : List Value) : List Value := shift none 1 xs

def difference (xs ys : List Value) : List Value := xs.zipWith float64.sub ys

def quotient (xs ys : List Value) : List Value := xs.zipWith float64.div ys

def crossed (a b : List Value) : List Bool :=
  both ((before a).zipWith float64.le (before b)) (b.zipWith float64.lt a)

def windowOf : PyValue Value → Except PyError ℤ := runtime.int

def macd (fast slow signal : ℤ) (xs : List Value) : Macd Value :=
  let line := difference (movingAverage fast false xs) (movingAverage slow false xs)
  let average := movingAverage signal false line
  ⟨line, average, difference line average, crossed line average, crossed average line⟩

def stoch (k d : ℤ) (high low close : List Value) : Stoch Value :=
  let lowest := windowed k (onNumbers smallest) low
  let highest := windowed k (onNumbers largest) high
  let percentK := (quotient (difference close lowest) (difference highest lowest)).map
    (float64.mul (some 100))
  ⟨percentK, movingAverage d false percentK⟩

def trueRange (high low close : List Value) : List Value :=
  (difference high low).zipWith (fun range gap => float64.rowMax [range, gap.1, gap.2])
    (((difference high (before close)).map float64.abs).zip
      ((difference low (before close)).map float64.abs))

def bbands (period : ℤ) (alpha : Value) (xs : List Value) : Bands Value :=
  let middle := movingAverage period false xs
  let width := (windowed period (onNumbers deviation) xs).map (float64.mul alpha)
  ⟨middle.zipWith float64.add width, middle, difference middle width⟩

/-- The volume with the sign of the close's move, from the first bar on. -/
def balance (past : List (Value × Value)) : Value :=
  onNumbers List.sum <| (past.zipWith (fun bar last =>
    if float64.lt last.1 bar.1 then bar.2
    else if float64.lt bar.1 last.1 then float64.neg bar.2
    else some 0) ((none, none) :: past))

section
variable {t : ℕ} {xs xs' ys ys' : List Value}

theorem windowed_agree (h : AgreeUpTo t xs xs') (window : ℤ) (f : List Value → Value) :
    AgreeUpTo t (windowed window f xs) (windowed window f xs') :=
  h.ofHistory _

theorem movingAverage_agree (h : AgreeUpTo t xs xs') (window : ℤ) (ewm : Bool) :
    AgreeUpTo t (movingAverage window ewm xs) (movingAverage window ewm xs') := by
  cases ewm with
  | true =>
    simp only [movingAverage, ↓reduceIte]
    exact h.ofHistory _
  | false => exact windowed_agree h window _

theorem before_agree (h : AgreeUpTo t xs xs') : AgreeUpTo t (before xs) (before xs') :=
  h.shift none Int.one_nonneg

theorem difference_agree (h : AgreeUpTo t xs xs') (h' : AgreeUpTo t ys ys') :
    AgreeUpTo t (difference xs ys) (difference xs' ys') :=
  h.zipWith h' _

theorem crossed_agree (h : AgreeUpTo t xs xs') (h' : AgreeUpTo t ys ys') :
    AgreeUpTo t (crossed xs ys) (crossed xs' ys') :=
  both_agree ((before_agree h).zipWith (before_agree h') _) (h'.zipWith h _)

theorem macd_agree (h : AgreeUpTo t xs xs') (fast slow signal : ℤ) :
    Macd.Agree t (macd fast slow signal xs) (macd fast slow signal xs') := by
  have hline := difference_agree (movingAverage_agree h fast false)
    (movingAverage_agree h slow false)
  have haverage := movingAverage_agree hline signal false
  exact ⟨hline, haverage, difference_agree hline haverage, crossed_agree hline haverage,
    crossed_agree haverage hline⟩

theorem bbands_agree (h : AgreeUpTo t xs xs') (period : ℤ) (alpha : Value) :
    Bands.Agree t (bbands period alpha xs) (bbands period alpha xs') := by
  have hmiddle := movingAverage_agree h period false
  have hwidth := (windowed_agree h period (onNumbers deviation)).map (float64.mul alpha)
  exact ⟨hmiddle.zipWith hwidth _, hmiddle, difference_agree hmiddle hwidth⟩

section
variable {high high' low low' close close' : List Value}

theorem stoch_agree (hhigh : AgreeUpTo t high high') (hlow : AgreeUpTo t low low')
    (hclose : AgreeUpTo t close close') (k d : ℤ) :
    Stoch.Agree t (stoch k d high low close) (stoch k d high' low' close') := by
  have hlowest := windowed_agree hlow k (onNumbers smallest)
  have hhighest := windowed_agree hhigh k (onNumbers largest)
  have hpercent := ((difference_agree hclose hlowest).zipWith
    (difference_agree hhighest hlowest) float64.div).map (float64.mul (some 100))
  exact ⟨hpercent, movingAverage_agree hpercent d false⟩

theorem trueRange_agree (hhigh : AgreeUpTo t high high') (hlow : AgreeUpTo t low low')
    (hclose : AgreeUpTo t close close') :
    AgreeUpTo t (trueRange high low close) (trueRange high' low' close') := by
  have hup := (difference_agree hhigh (before_agree hclose)).map float64.abs
  have hdown := (difference_agree hlow (before_agree hclose)).map float64.abs
  exact (difference_agree hhigh hlow).zipWith (hup.zip hdown) _

end

end

/-- Windows that are not numbers are refused. -/
def library : SeriesLibrary Value where
  rolling window agg xs :=
    if window < 0 then .error .valueError
    else .ok (windowed window (onNumbers (aggregate agg)) xs)
  rollingApply window f xs := if window < 0 then .error .valueError else .ok (windowed window f xs)
  ewmMean span xs := if span < 1 then .error .valueError else .ok (ofHistory (exponential span) xs)
  ma window ewm xs := .ok (movingAverage window ewm xs)
  rsi window xs := .ok (windowed (window + 1) (fun past => (past.mapM id).bind strength) xs)
  macd fast slow signal xs := do
    let fast ← windowOf fast
    let slow ← windowOf slow
    let signal ← windowOf signal
    return macd fast slow signal xs
  stoch k d high low close := .ok (stoch k d high low close)
  atr window high low close := .ok (movingAverage window true (trueRange high low close))
  bbands window alpha xs := .ok (bbands window alpha xs)
  obv close volume := .ok (ofHistory balance (close.zip volume))
  rolling_neg window agg xs h := by rw [if_pos h]
  rolling_causal window agg t xs ys h := by
    split_ifs
    · exact .error _
    · exact .ok (windowed_agree h window _)
  rollingApply_causal window f t xs ys h := by
    split_ifs
    · exact .error _
    · exact .ok (windowed_agree h window f)
  ewmMean_causal span t xs ys h := by
    split_ifs
    · exact .error _
    · exact .ok (h.ofHistory _)
  ma_causal window ewm t xs ys h := .ok (movingAverage_agree h window ewm)
  rsi_causal window t xs ys h := .ok (windowed_agree h _ _)
  macd_causal fast slow signal t xs ys h :=
    SameResult.bind_same fun fast _ => SameResult.bind_same fun slow _ =>
      SameResult.bind_same fun signal _ => .ok (macd_agree h fast slow signal)
  stoch_causal k d t _ _ _ _ _ _ hhigh hlow hclose := .ok (stoch_agree hhigh hlow hclose k d)
  atr_causal window t _ _ _ _ _ _ hhigh hlow hclose :=
    .ok (movingAverage_agree (trueRange_agree hhigh hlow hclose) window true)
  bbands_causal window alpha t xs ys h := .ok (bbands_agree h window alpha)
  obv_causal h h' := .ok ((h.zip h').ofHistory balance)

end TradeStream.Backtesting.ExactSeries
