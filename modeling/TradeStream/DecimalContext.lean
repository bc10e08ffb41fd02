import Mathlib.Data.Int.Log
import TradeStream.Fallible
import TradeStream.RoundDecimal

/-! Arithmetic of decimals in a context. Every operation rounds its exact result once, to the
context's precision and half to even; a signal that is trapped is an exception. -/
namespace TradeStream.DecimalContext
open TradeStream.Fallible TradeStream.RoundDecimal

/-- A number is kept by its value: not its exponent, nor the sign of a zero. -/
inductive Decimal where
  | finite (x : ℚ)
  | infinity (negative : Bool)
  | nan (signaling : Bool)
deriving DecidableEq

/-- The signals trapped by default, but for a division by zero. -/
inductive Signal where
  | invalidOperation
  | overflow
deriving DecidableEq

structure Context where
  prec : ℕ
  emin : ℤ
  emax : ℤ

def Context.default : Context where
  prec := 28
  emin := -999999
  emax := 999999

/-- The exponent of the first digit. -/
def adjusted (x : ℚ) : ℤ := Int.log 10 |x|

namespace Context
variable (c : Context)

def etiny : ℤ := c.emin - c.prec + 1

def round (x : ℚ) : Except Signal ℚ :=
  let exponent := max (adjusted x - c.prec + 1) c.etiny
  let rounded : ℚ := roundHalfEven (x / 10 ^ exponent) * 10 ^ exponent
  if c.emax < adjusted rounded then .error .overflow else .ok rounded

end Context

namespace Decimal

/-- Python's `<`, `==` and `>` between numbers, all of which signal on a NaN. -/
def compare : Decimal → Decimal → Except Signal Ordering
  | .finite x, .finite y => .ok (cmp x y)
  | .finite _, .infinity negative => .ok (if negative then .gt else .lt)
  | .infinity negative, .finite _ => .ok (if negative then .lt else .gt)
  -- the negative infinity is the smaller
  | .infinity n, .infinity m => .ok (cmp m n)
  | .nan _, _ | _, .nan _ => .error .invalidOperation

def lessEq (a b : Decimal) : Except Signal Bool := do return (← compare a b).isLE

def greater (a b : Decimal) : Except Signal Bool := do return (← compare a b).isGT

def neg : Decimal → Decimal
  | .finite x => .finite (-x)
  | .infinity negative => .infinity (!negative)
  | .nan signaling => .nan signaling

end Decimal

namespace Context
variable (c : Context)

def add : Decimal → Decimal → Except Signal Decimal
  | .nan true, _ | _, .nan true => .error .invalidOperation
  | .nan false, _ | _, .nan false => .ok (.nan false)
  | .infinity n, .infinity m => if n = m then .ok (.infinity n) else .error .invalidOperation
  | .infinity n, .finite _ | .finite _, .infinity n => .ok (.infinity n)
  | .finite x, .finite y => (c.round (x + y)).map .finite

def sub (a b : Decimal) : Except Signal Decimal := c.add a b.neg

def mul : Decimal → Decimal → Except Signal Decimal
  | .nan true, _ | _, .nan true => .error .invalidOperation
  | .nan false, _ | _, .nan false => .ok (.nan false)
  | .infinity n, .infinity m => .ok (.infinity (n != m))
  | .infinity n, .finite x | .finite x, .infinity n =>
    if x = 0 then .error .invalidOperation else .ok (.infinity (n != decide (x < 0)))
  | .finite x, .finite y => (c.round (x * y)).map .finite

/-- Division by a number of one's own, that is positive. -/
def divBy (a : Decimal) (n : ℕ) : Except Signal Decimal :=
  match a with
  | .nan true => .error .invalidOperation
  | .nan false => .ok (.nan false)
  | .infinity negative => .ok (.infinity negative)
  | .finite x => (c.round (x / n)).map .finite

def abs : Decimal → Except Signal Decimal
  | .nan true => .error .invalidOperation
  | .nan false => .ok (.nan false)
  | .infinity _ => .ok (.infinity false)
  | .finite x => (c.round |x|).map .finite

/-- `quantize` to some decimals, ties away from zero: the digits must fit the precision. -/
def quantize (digits : ℕ) : Decimal → Except Signal Decimal
  | .nan false => .ok (.nan false)
  | .nan true | .infinity _ => .error .invalidOperation
  | .finite x =>
    if c.etiny ≤ -digits ∧ -digits ≤ c.emax ∧ (roundHalfAway (x * 10 ^ digits)).natAbs < 10 ^ c.prec ∧
        adjusted (storeTo digits x) ≤ c.emax then
      .ok (.finite (storeTo digits x))
    else .error .invalidOperation

end Context

/-! ### When the result is a number -/

section
variable {c : Context} {a b : Decimal} {z : ℚ}

@[simp] theorem finite_compare_finite (x y : ℚ) :
    (Decimal.finite x).compare (.finite y) = .ok (cmp x y) := rfl

theorem map_finite_eq_ok_iff {r : Except Signal ℚ} :
    r.map Decimal.finite = .ok (.finite z) ↔ r = .ok z := by
  rw [map_eq_ok_iff]
  simp only [Decimal.finite.injEq, exists_eq_right]

theorem add_eq_finite_iff : c.add a b = .ok (.finite z) ↔
    ∃ x y, a = .finite x ∧ b = .finite y ∧ c.round (x + y) = .ok z := by
  rcases a with x | n | (_ | _) <;> rcases b with y | m | (_ | _) <;>
    simp [Context.add, map_finite_eq_ok_iff]
  split_ifs <;> simp

theorem neg_eq_finite_iff {x : ℚ} : a.neg = .finite x ↔ a = .finite (-x) := by
  cases a <;> simp [Decimal.neg, neg_eq_iff_eq_neg]

theorem sub_eq_finite_iff : c.sub a b = .ok (.finite z) ↔
    ∃ x y, a = .finite x ∧ b = .finite y ∧ c.round (x - y) = .ok z := by
  rw [Context.sub, add_eq_finite_iff]
  constructor
  · rintro ⟨x, y, hx, hy, hround⟩
    exact ⟨x, -y, hx, neg_eq_finite_iff.mp hy, by rwa [sub_neg_eq_add]⟩
  · rintro ⟨x, y, hx, rfl, hround⟩
    exact ⟨x, -y, hx, rfl, by rwa [← sub_eq_add_neg]⟩

theorem mul_eq_finite_iff : c.mul a b = .ok (.finite z) ↔
    ∃ x y, a = .finite x ∧ b = .finite y ∧ c.round (x * y) = .ok z := by
  rcases a with x | n | (_ | _) <;> rcases b with y | m | (_ | _) <;>
    simp [Context.mul, map_finite_eq_ok_iff]
  all_goals split_ifs <;> simp

theorem divBy_eq_finite_iff {n : ℕ} : c.divBy a n = .ok (.finite z) ↔
    ∃ x, a = .finite x ∧ c.round (x / n) = .ok z := by
  rcases a with x | m | (_ | _) <;> simp [Context.divBy, map_finite_eq_ok_iff]

theorem quantize_eq_ok {digits : ℕ} {x : ℚ} {y : Decimal}
    (h : c.quantize digits (.finite x) = .ok y) : y = .finite (storeTo digits x) := by
  rw [Context.quantize] at h
  split_ifs at h
  exact (Except.ok.inj h).symm

theorem finite_of_quantize {digits : ℕ} (h : c.quantize digits a = .ok (.finite z)) :
    ∃ x, a = .finite x ∧ z = storeTo digits x := by
  rcases a with x | n | (_ | _)
  · exact ⟨x, rfl, Decimal.finite.inj (quantize_eq_ok h)⟩
  all_goals simp [Context.quantize] at h

end

end TradeStream.DecimalContext
