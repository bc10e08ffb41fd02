import Mathlib

/-! A list cut into batches as a loop cuts it that hands over a batch when it is full, and what
is left at the end. -/
namespace TradeStream.Batching

variable {α σ : Type*} (size : ℕ)

/-- The batches of what is pending and what is to come. -/
def batchesFrom : List α → List α → List (List α)
  | pending, [] => if pending = [] then [] else [pending]
  | pending, x :: rest =>
    if size ≤ (pending ++ [x]).length then (pending ++ [x]) :: batchesFrom [] rest
    else batchesFrom (pending ++ [x]) rest

def batches (l : List α) : List (List α) := batchesFrom size [] l

/-- One turn of the loop: what is pending, and the state of what processes the batches. -/
def take (process : σ → List α → σ) (s : List α × σ) (x : α) : List α × σ :=
  if size ≤ (s.1 ++ [x]).length then ([], process s.2 (s.1 ++ [x])) else (s.1 ++ [x], s.2)

def finish (process : σ → List α → σ) (s : List α × σ) : σ :=
  if s.1 = [] then s.2 else process s.2 s.1

theorem finish_foldl_take (process : σ → List α → σ) (pending l : List α) (s : σ) :
    finish process (l.foldl (take size process) (pending, s)) =
      (batchesFrom size pending l).foldl process s := by
  induction l generalizing pending s with
  | nil =>
    rw [List.foldl_nil, finish, batchesFrom]
    split_ifs <;> rfl
  | cons x rest ih =>
    rw [List.foldl_cons, take, batchesFrom]
    split_ifs
    · exact ih [] _
    · exact ih _ s

theorem flatten_batchesFrom (pending l : List α) :
    (batchesFrom size pending l).flatten = pending ++ l := by
  induction l generalizing pending with
  | nil =>
    rw [batchesFrom, List.append_nil]
    split_ifs with h
    · rw [h, List.flatten_nil]
    · exact List.flatten_singleton
  | cons x rest ih =>
    rw [batchesFrom]
    split_ifs
    · rw [List.flatten_cons, ih, List.nil_append, List.append_assoc, List.singleton_append]
    · rw [ih, List.append_assoc, List.singleton_append]

/-- The batches are the list, in order. -/
theorem flatten_batches (l : List α) : (batches size l).flatten = l :=
  flatten_batchesFrom size [] l

theorem length_of_mem_batchesFrom {pending l batch : List α}
    (hpending : pending.length < max 1 size) (h : batch ∈ batchesFrom size pending l) :
    batch.length ≤ max 1 size ∧ batch ≠ [] := by
  induction l generalizing pending with
  | nil =>
    rw [batchesFrom] at h
    split_ifs at h with hnil
    · cases h
    · rw [List.mem_singleton.mp h]
      exact ⟨hpending.le, hnil⟩
  | cons x rest ih =>
    have hlen : (pending ++ [x]).length = pending.length + 1 := List.length_append
    rw [batchesFrom] at h
    split_ifs at h with hfull
    · rcases List.mem_cons.mp h with rfl | hmem
      · exact ⟨by omega, List.append_ne_nil_of_right_ne_nil _ (List.cons_ne_nil x [])⟩
      · exact ih (by simp) hmem
    · exact ih (by omega) h

theorem length_of_mem_batches {l batch : List α} (h : batch ∈ batches size l) :
    batch.length ≤ max 1 size ∧ batch ≠ [] :=
  length_of_mem_batchesFrom size (by simp) h

end TradeStream.Batching
