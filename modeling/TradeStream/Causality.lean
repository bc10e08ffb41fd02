import Mathlib

/-! Computations on series of bars that look at no later bar: from two series that agree up
to a bar they make two that agree up to it, or fail alike. -/
namespace TradeStream.Causality

universe u
variable {α β γ σ : Type u} {ε : Type u} {t : ℕ}

/-- Both series have bar `t`, and they are the same up to it. -/
structure AgreeUpTo (t : ℕ) (xs ys : List α) : Prop where
  lt_left : t < xs.length
  lt_right : t < ys.length
  take_eq : xs.take (t + 1) = ys.take (t + 1)

namespace AgreeUpTo
variable {xs ys : List α}

theorem refl (h : t < xs.length) : AgreeUpTo t xs xs := ⟨h, h, rfl⟩

theorem symm (h : AgreeUpTo t xs ys) : AgreeUpTo t ys xs :=
  ⟨h.lt_right, h.lt_left, h.take_eq.symm⟩

theorem take_eq_of_le (h : AgreeUpTo t xs ys) {i : ℕ} (hi : i ≤ t + 1) : xs.take i = ys.take i := by
  have htake := congrArg (List.take i) h.take_eq
  rwa [List.take_take, List.take_take, min_eq_left hi] at htake

theorem map (h : AgreeUpTo t xs ys) (f : α → β) : AgreeUpTo t (xs.map f) (ys.map f) where
  lt_left := by simpa using h.lt_left
  lt_right := by simpa using h.lt_right
  take_eq := by rw [← List.map_take, ← List.map_take, h.take_eq]

theorem zipWith {xs' ys' : List β} (h : AgreeUpTo t xs ys) (h' : AgreeUpTo t xs' ys')
    (f : α → β → γ) : AgreeUpTo t (xs.zipWith f xs') (ys.zipWith f ys') where
  lt_left := by
    rw [List.length_zipWith]
    exact lt_min h.lt_left h'.lt_left
  lt_right := by
    rw [List.length_zipWith]
    exact lt_min h.lt_right h'.lt_right
  take_eq := by rw [List.take_zipWith, List.take_zipWith, h.take_eq, h'.take_eq]

theorem zip {xs' ys' : List β} (h : AgreeUpTo t xs ys) (h' : AgreeUpTo t xs' ys') :
    AgreeUpTo t (xs.zip xs') (ys.zip ys') :=
  h.zipWith h' Prod.mk

theorem head_eq {a b : α} (h : AgreeUpTo t (a :: xs) (b :: ys)) : a = b := by
  have htake := h.take_eq
  rw [List.take_succ_cons, List.take_succ_cons, List.cons.injEq] at htake
  exact htake.1

/-- The state after each bar of a loop that starts from the first one. -/
theorem scanl {a b : α} (h : AgreeUpTo t (a :: xs) (b :: ys)) (f : σ → α → σ) (s : σ) :
    AgreeUpTo t (xs.scanl f s) (ys.scanl f s) where
  lt_left := by simpa [List.length_scanl] using h.lt_left
  lt_right := by simpa [List.length_scanl] using h.lt_right
  take_eq := by
    have htake := h.take_eq
    rw [List.take_succ_cons, List.take_succ_cons, List.cons.injEq] at htake
    rw [List.take_scanl, List.take_scanl]
    simp only [htake.2]

end AgreeUpTo

/-! ### Shifts -/

/-- `Series.shift`: later for a positive number of bars, earlier for a negative one. -/
def shift (fill : α) (n : ℤ) (xs : List α) : List α :=
  if 0 ≤ n then (List.replicate n.toNat fill ++ xs).take xs.length
  else xs.drop (-n).toNat ++ List.replicate (min (-n).toNat xs.length) fill

theorem AgreeUpTo.shift {xs ys : List α} (h : AgreeUpTo t xs ys) (fill : α) {n : ℤ}
    (hn : 0 ≤ n) : AgreeUpTo t (shift fill n xs) (shift fill n ys) := by
  have hle := h.lt_left
  have hle' := h.lt_right
  refine ⟨?_, ?_, ?_⟩
  · rw [Causality.shift, if_pos hn, List.length_take, List.length_append]
    omega
  · rw [Causality.shift, if_pos hn, List.length_take, List.length_append]
    omega
  · -- a bar shows the fill or a bar before it
    rw [Causality.shift, Causality.shift, if_pos hn, if_pos hn, List.take_take, List.take_take,
      min_eq_left (by omega), min_eq_left (by omega), List.take_append, List.take_append,
      h.take_eq_of_le (by omega)]

/-! ### Series made bar by bar from what is before -/

def ofHistory (f : List α → β) (xs : List α) : List β :=
  (List.range xs.length).map fun i => f (xs.take (i + 1))

theorem AgreeUpTo.ofHistory {xs ys : List α} (h : AgreeUpTo t xs ys) (f : List α → β) :
    AgreeUpTo t (ofHistory f xs) (ofHistory f ys) where
  lt_left := by simpa [Causality.ofHistory] using h.lt_left
  lt_right := by simpa [Causality.ofHistory] using h.lt_right
  take_eq := by
    have hle := h.lt_left
    have hle' := h.lt_right
    rw [Causality.ofHistory, Causality.ofHistory, ← List.map_take, ← List.map_take,
      List.take_range, List.take_range, min_eq_left (by omega), min_eq_left (by omega)]
    refine List.map_congr_left fun i hi => ?_
    rw [h.take_eq_of_le (by have := List.mem_range.mp hi; omega)]

/-! ### Computations that may fail -/

/-- Two runs with results that are related, or with the same error. -/
inductive SameResult (R : α → β → Prop) : Except ε α → Except ε β → Prop
  | ok {a : α} {b : β} (h : R a b) : SameResult R (.ok a) (.ok b)
  | error (e : ε) : SameResult R (.error e) (.error e)

namespace SameResult
variable {R : α → β → Prop} {α' β' : Type u} {S : α' → β' → Prop}

theorem bind {x : Except ε α} {y : Except ε β} {f : α → Except ε α'} {g : β → Except ε β'}
    (h : SameResult R x y) (hfg : ∀ a b, R a b → SameResult S (f a) (g b)) :
    SameResult S (x >>= f) (y >>= g) := by
  cases h with
  | ok h => exact hfg _ _ h
  | error e => exact .error e

/-- What does not depend on the series is the same in both runs. -/
theorem bind_same {x : Except ε γ} {f : γ → Except ε α'} {g : γ → Except ε β'}
    (hfg : ∀ c, x = .ok c → SameResult S (f c) (g c)) : SameResult S (x >>= f) (x >>= g) := by
  cases x with
  | ok c => exact hfg c rfl
  | error e => exact .error e

theorem map {x : Except ε α} {y : Except ε β} (h : SameResult R x y) {f : α → α'} {g : β → β'}
    (hfg : ∀ a b, R a b → S (f a) (g b)) : SameResult S (x.map f) (y.map g) := by
  cases h with
  | ok h => exact .ok (hfg _ _ h)
  | error e => exact .error e

theorem ite (p : Prop) [Decidable p] {x x' : Except ε α} {y y' : Except ε β}
    (h : SameResult R x y) (h' : SameResult R x' y') :
    SameResult R (if p then x else x') (if p then y else y') := by
  by_cases hp : p
  · rwa [if_pos hp, if_pos hp]
  · rwa [if_neg hp, if_neg hp]

/-- A loop whose states are related. -/
theorem foldlM {f : α → γ → Except ε α} {g : β → γ → Except ε β} {l : List γ} {a : α} {b : β}
    (h : R a b) (hstep : ∀ c ∈ l, ∀ a b, R a b → SameResult R (f a c) (g b c)) :
    SameResult R (l.foldlM f a) (l.foldlM g b) := by
  induction l generalizing a b with
  | nil => exact .ok h
  | cons c l ih =>
    rw [List.forall_mem_cons] at hstep
    rw [List.foldlM_cons, List.foldlM_cons]
    exact (hstep.1 a b h).bind fun a b h => ih h hstep.2

end SameResult

end TradeStream.Causality
