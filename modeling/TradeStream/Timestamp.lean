import Mathlib

/-! `google.protobuf.Timestamp`. -/
namespace TradeStream

structure Timestamp where
  seconds : ℤ
  nanos : ℤ
  deriving DecidableEq, Repr

/-- The range that protobuf documents for a `Timestamp`: the years 1 to 9999. -/
def Timestamp.Valid (ts : Timestamp) : Prop :=
  -62135596800 ≤ ts.seconds ∧ ts.seconds ≤ 253402300799 ∧ 0 ≤ ts.nanos ∧ ts.nanos < 1000000000

instance (ts : Timestamp) : Decidable ts.Valid :=
  inferInstanceAs (Decidable (_ ∧ _))

theorem Timestamp.valid_epoch : (⟨0, 0⟩ : Timestamp).Valid := by decide

/-- Chronological order of timestamps, to the nanosecond. -/
def Timestamp.NotAfter (a b : Timestamp) : Prop :=
  a.seconds < b.seconds ∨ a.seconds = b.seconds ∧ a.nanos ≤ b.nanos

instance (a b : Timestamp) : Decidable (a.NotAfter b) :=
  inferInstanceAs (Decidable (_ ∨ _))

end TradeStream
