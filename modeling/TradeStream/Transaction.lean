import Mathlib

/-! One transaction of a database that refuses every statement after a failed one. -/
namespace TradeStream.Transaction

variable {S : Type*}

/-- What becomes of a statement on its own: the server accepts it or rejects it, or
the client fails before it is sent. -/
inductive Reply where
  | accepted
  | rejected
  | unsent
  deriving DecidableEq, Repr

/-- The statements in effect within the transaction, and whether one has failed. -/
structure Session (S : Type*) where
  applied : List S
  aborted : Bool

namespace Session

def begin : Session S := ⟨[], false⟩

/-- The session after a statement, and whether the statement returned normally. -/
def execute (s : Session S) (stmt : S) : Reply → Session S × Bool
  | .unsent => (s, false)
  | .rejected => (⟨s.applied, true⟩, false)
  | .accepted => if s.aborted then (s, false) else (⟨s.applied ++ [stmt], false⟩, true)

/-- The statements that are durable once the transaction has ended. -/
def commit (s : Session S) : List S := if s.aborted then [] else s.applied

@[simp] theorem execute_aborted (s : Session S) (stmt : S) (r : Reply) :
    (s.execute stmt r).1.aborted = (s.aborted || decide (r = .rejected)) := by
  cases r with
  | unsent => simp [execute]
  | rejected => simp [execute]
  | accepted =>
    cases h : s.aborted with
    | true => simp [execute, h]
    | false => simp [execute, h]

@[simp] theorem execute_succeeds (s : Session S) (stmt : S) (r : Reply) :
    (s.execute stmt r).2 = (!s.aborted && decide (r = .accepted)) := by
  cases r with
  | unsent => simp [execute]
  | rejected => simp [execute]
  | accepted =>
    cases h : s.aborted with
    | true => simp [execute, h]
    | false => simp [execute, h]

@[simp] theorem execute_applied (s : Session S) (stmt : S) (r : Reply) :
    (s.execute stmt r).1.applied =
      s.applied ++ if (s.execute stmt r).2 then [stmt] else [] := by
  cases r with
  | unsent => simp [execute]
  | rejected => simp [execute]
  | accepted =>
    cases h : s.aborted with
    | true => simp [execute, h]
    | false => simp [execute, h]

theorem commit_of_aborted {s : Session S} (h : s.aborted = true) : s.commit = [] := by
  rw [commit, if_pos h]

theorem commit_of_not_aborted {s : Session S} (h : s.aborted = false) : s.commit = s.applied := by
  rw [commit, h]
  rfl

end Session

end TradeStream.Transaction
