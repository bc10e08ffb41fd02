import TradeStream.Causality
import TradeStream.YamlStrategyLoader

/-! What the backtesting service takes from pandas and vectorbt: float64 arithmetic, the
element-wise operations on series, and the operations with a window, which are causal. -/
namespace TradeStream.Backtesting
open TradeStream.Causality

/-- Numbers of float64, and what is computed from the values of a window. -/
structure Float64 (D : Type) where
  nan : D
  /-- A literal of the source. -/
  lit : ℚ → D
  add : D → D → D
  sub : D → D → D
  mul : D → D → D
  div : D → D → D
  neg : D → D
  abs : D → D
  lt : D → D → Bool
  le : D → D → Bool
  sum : List D → D
  mean : List D → D
  dot : List D → List D → D
  /-- The largest of a row, numbers before `nan`. -/
  rowMax : List D → D
  argmax : List D → ℕ
  argmin : List D → ℕ

structure SeriesRuntime (D : Type) extends PythonRuntime D, Float64 D where
  /-- `int` of a float, which `nan` and the infinities do not have. -/
  truncate : D → Except PyError ℤ
  /-- `int` of a text; `none` stands for a `ValueError`. -/
  parseInt : String → Option ℤ

structure Bar (D : Type) where
  openPrice : D
  high : D
  low : D
  close : D
  volume : D

abbrev Params (D : Type) := String → Option (PyValue D)

section
variable {D : Type} (runtime : SeriesRuntime D)

namespace SeriesRuntime

def int : PyValue D → Except PyError ℤ
  | .bool b => .ok (if b then 1 else 0)
  | .number x => runtime.truncate x
  | .string s =>
    match runtime.parseInt s with
    | some n => .ok n
    | none => .error .valueError
  | .none | .container _ => .error .typeError

/-- `IndicatorParams.get_int`. -/
def getInt (params : Params D) (key : String) (default : ℤ) : Except PyError ℤ :=
  match params key with
  | some value => runtime.int value
  | none => .ok default

/-- `IndicatorParams.get_float`. -/
def getFloat (params : Params D) (key : String) (default : ℚ) : Except PyError D :=
  match params key with
  | some value => runtime.float value
  | none => .ok (runtime.lit default)

/-- A value that a series is compared with. -/
def operand : PyValue D → Except PyError D
  | .number x => .ok x
  | .bool b => .ok (runtime.boolFloat b)
  | .none | .string _ | .container _ => .error .typeError

/-- An integer as an argument of vectorbt. -/
def ofInt (n : ℤ) : PyValue D := .number (runtime.lit n)

/-! ### Element by element -/

/-- `series.shift(n)`. -/
def shift (n : ℤ) (xs : List D) : List D := Causality.shift runtime.nan n xs

/-- `series.diff()`. -/
def diff (xs : List D) : List D := xs.zipWith runtime.sub (runtime.shift 1 xs)

def plus (xs ys : List D) : List D := xs.zipWith runtime.add ys

def minus (xs ys : List D) : List D := xs.zipWith runtime.sub ys

def times (xs ys : List D) : List D := xs.zipWith runtime.mul ys

def dividedBy (xs ys : List D) : List D := xs.zipWith runtime.div ys

/-- `c * series`. -/
def scale (c : ℚ) (xs : List D) : List D := xs.map (runtime.mul (runtime.lit c))

/-- `series / c`. -/
def dividedByConst (c : ℚ) (xs : List D) : List D := xs.map fun x => runtime.div x (runtime.lit c)

/-- `series.where(condition, 0)`. -/
def orZero (condition : List Bool) (xs : List D) : List D :=
  condition.zipWith (fun holds x => if holds then x else runtime.lit 0) xs

def gt (xs ys : List D) : List Bool := xs.zipWith (fun x y => runtime.lt y x) ys

def ge (xs ys : List D) : List Bool := xs.zipWith (fun x y => runtime.le y x) ys

def less (xs ys : List D) : List Bool := xs.zipWith runtime.lt ys

def lessEq (xs ys : List D) : List Bool := xs.zipWith runtime.le ys

def gtConst (xs : List D) (c : D) : List Bool := xs.map fun x => runtime.lt c x

def geConst (xs : List D) (c : D) : List Bool := xs.map fun x => runtime.le c x

def lessConst (xs : List D) (c : D) : List Bool := xs.map fun x => runtime.lt x c

def lessEqConst (xs : List D) (c : D) : List Bool := xs.map fun x => runtime.le x c

section
variable {runtime} {t : ℕ} {xs xs' ys ys' : List D}

theorem shift_agree (h : AgreeUpTo t xs xs') {n : ℤ} (hn : 0 ≤ n) :
    AgreeUpTo t (runtime.shift n xs) (runtime.shift n xs') :=
  h.shift runtime.nan hn

/-- The bar before. -/
theorem shift_one_agree (h : AgreeUpTo t xs xs') :
    AgreeUpTo t (runtime.shift 1 xs) (runtime.shift 1 xs') :=
  shift_agree h Int.one_nonneg

theorem diff_agree (h : AgreeUpTo t xs xs') :
    AgreeUpTo t (runtime.diff xs) (runtime.diff xs') :=
  h.zipWith (shift_one_agree h) runtime.sub

theorem plus_agree (h : AgreeUpTo t xs xs') (h' : AgreeUpTo t ys ys') :
    AgreeUpTo t (runtime.plus xs ys) (runtime.plus xs' ys') :=
  h.zipWith h' runtime.add

theorem minus_agree (h : AgreeUpTo t xs xs') (h' : AgreeUpTo t ys ys') :
    AgreeUpTo t (runtime.minus xs ys) (runtime.minus xs' ys') :=
  h.zipWith h' runtime.sub

theorem times_agree (h : AgreeUpTo t xs xs') (h' : AgreeUpTo t ys ys') :
    AgreeUpTo t (runtime.times xs ys) (runtime.times xs' ys') :=
  h.zipWith h' runtime.mul

theorem dividedBy_agree (h : AgreeUpTo t xs xs') (h' : AgreeUpTo t ys ys') :
    AgreeUpTo t (runtime.dividedBy xs ys) (runtime.dividedBy xs' ys') :=
  h.zipWith h' runtime.div

theorem scale_agree (h : AgreeUpTo t xs xs') (c : ℚ) :
    AgreeUpTo t (runtime.scale c xs) (runtime.scale c xs') :=
  h.map (runtime.mul (runtime.lit c))

theorem dividedByConst_agree (h : AgreeUpTo t xs xs') (c : ℚ) :
    AgreeUpTo t (runtime.dividedByConst c xs) (runtime.dividedByConst c xs') :=
  h.map fun x => runtime.div x (runtime.lit c)

theorem orZero_agree {condition condition' : List Bool} (h : AgreeUpTo t condition condition')
    (h' : AgreeUpTo t xs xs') :
    AgreeUpTo t (runtime.orZero condition xs) (runtime.orZero condition' xs') :=
  h.zipWith h' _

theorem gt_agree (h : AgreeUpTo t xs xs') (h' : AgreeUpTo t ys ys') :
    AgreeUpTo t (runtime.gt xs ys) (runtime.gt xs' ys') :=
  h.zipWith h' _

theorem ge_agree (h : AgreeUpTo t xs xs') (h' : AgreeUpTo t ys ys') :
    AgreeUpTo t (runtime.ge xs ys) (runtime.ge xs' ys') :=
  h.zipWith h' _

theorem less_agree (h : AgreeUpTo t xs xs') (h' : AgreeUpTo t ys ys') :
    AgreeUpTo t (runtime.less xs ys) (runtime.less xs' ys') :=
  h.zipWith h' runtime.lt

theorem lessEq_agree (h : AgreeUpTo t xs xs') (h' : AgreeUpTo t ys ys') :
    AgreeUpTo t (runtime.lessEq xs ys) (runtime.lessEq xs' ys') :=
  h.zipWith h' runtime.le

end

end SeriesRuntime

end

/-- `a & b` of two series of truth values. -/
def both (a b : List Bool) : List Bool := a.zipWith (· && ·) b

def either (a b : List Bool) : List Bool := a.zipWith (· || ·) b

/-- `series.diff().fillna(False)` of truth values: where they change. -/
def changes (a : List Bool) : List Bool :=
  a.zipWith (fun now before => (before.map (xor now)).getD false) (shift none 1 (a.map some))

section
variable {t : ℕ} {a a' b b' : List Bool}

theorem both_agree (h : AgreeUpTo t a a') (h' : AgreeUpTo t b b') :
    AgreeUpTo t (both a b) (both a' b') :=
  h.zipWith h' _

theorem either_agree (h : AgreeUpTo t a a') (h' : AgreeUpTo t b b') :
    AgreeUpTo t (either a b) (either a' b') :=
  h.zipWith h' _

theorem changes_agree (h : AgreeUpTo t a a') : AgreeUpTo t (changes a) (changes a') :=
  h.zipWith ((h.map some).shift none Int.one_nonneg) _

end

/-! ### Operations with a window -/

inductive Aggregation where
  | mean
  | sum
  | max
  | min

structure Macd (D : Type) where
  macd : List D
  signal : List D
  hist : List D
  crossedAbove : List Bool
  crossedBelow : List Bool

structure Stoch (D : Type) where
  percentK : List D
  percentD : List D

structure Bands (D : Type) where
  upper : List D
  middle : List D
  lower : List D

section
variable {D : Type} (t : ℕ)

structure Macd.Agree (a b : Macd D) : Prop where
  macd : AgreeUpTo t a.macd b.macd
  signal : AgreeUpTo t a.signal b.signal
  hist : AgreeUpTo t a.hist b.hist
  crossedAbove : AgreeUpTo t a.crossedAbove b.crossedAbove
  crossedBelow : AgreeUpTo t a.crossedBelow b.crossedBelow

structure Stoch.Agree (a b : Stoch D) : Prop where
  percentK : AgreeUpTo t a.percentK b.percentK
  percentD : AgreeUpTo t a.percentD b.percentD

structure Bands.Agree (a b : Bands D) : Prop where
  upper : AgreeUpTo t a.upper b.upper
  middle : AgreeUpTo t a.middle b.middle
  lower : AgreeUpTo t a.lower b.lower

end

/-- `rolling`, `ewm(adjust=False)` and the indicators of vectorbt. What they make of a bar
depends on the bars up to it, and whether they raise on their parameters. -/
structure SeriesLibrary (D : Type) where
  rolling : ℤ → Aggregation → List D → Except PyError (List D)
  rollingApply : ℤ → (List D → D) → List D → Except PyError (List D)
  /-- `ewm(span=span, adjust=False).mean()`. -/
  ewmMean : ℤ → List D → Except PyError (List D)
  ma : ℤ → Bool → List D → Except PyError (List D)
  rsi : ℤ → List D → Except PyError (List D)
  /-- For the windows of the fast, the slow and the signal average. -/
  macd : PyValue D → PyValue D → PyValue D → List D → Except PyError (Macd D)
  /-- For high, low and close. -/
  stoch : ℤ → ℤ → List D → List D → List D → Except PyError (Stoch D)
  atr : ℤ → List D → List D → List D → Except PyError (List D)
  bbands : ℤ → D → List D → Except PyError (Bands D)
  /-- For close and volume. -/
  obv : List D → List D → Except PyError (List D)
  /-- A window is 0 or more bars. -/
  rolling_neg : ∀ window agg xs, window < 0 → rolling window agg xs = .error .valueError
  rolling_causal : ∀ window agg {t xs ys}, AgreeUpTo t xs ys →
    SameResult (AgreeUpTo t) (rolling window agg xs) (rolling window agg ys)
  rollingApply_causal : ∀ window f {t xs ys}, AgreeUpTo t xs ys →
    SameResult (AgreeUpTo t) (rollingApply window f xs) (rollingApply window f ys)
  ewmMean_causal : ∀ span {t xs ys}, AgreeUpTo t xs ys →
    SameResult (AgreeUpTo t) (ewmMean span xs) (ewmMean span ys)
  ma_causal : ∀ window ewm {t xs ys}, AgreeUpTo t xs ys →
    SameResult (AgreeUpTo t) (ma window ewm xs) (ma window ewm ys)
  rsi_causal : ∀ window {t xs ys}, AgreeUpTo t xs ys →
    SameResult (AgreeUpTo t) (rsi window xs) (rsi window ys)
  macd_causal : ∀ fast slow signal {t xs ys}, AgreeUpTo t xs ys →
    SameResult (Macd.Agree t) (macd fast slow signal xs) (macd fast slow signal ys)
  stoch_causal : ∀ k d {t high high' low low' close close'}, AgreeUpTo t high high' →
    AgreeUpTo t low low' → AgreeUpTo t close close' →
    SameResult (Stoch.Agree t) (stoch k d high low close) (stoch k d high' low' close')
  atr_causal : ∀ window {t high high' low low' close close'}, AgreeUpTo t high high' →
    AgreeUpTo t low low' → AgreeUpTo t close close' →
    SameResult (AgreeUpTo t) (atr window high low close) (atr window high' low' close')
  bbands_causal : ∀ window alpha {t xs ys}, AgreeUpTo t xs ys →
    SameResult (Bands.Agree t) (bbands window alpha xs) (bbands window alpha ys)
  obv_causal : ∀ {t close close' volume volume'}, AgreeUpTo t close close' →
    AgreeUpTo t volume volume' → SameResult (AgreeUpTo t) (obv close volume) (obv close' volume')

end TradeStream.Backtesting
