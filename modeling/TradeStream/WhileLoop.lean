import Mathlib

/-! A `while` loop that need not end. Its body goes on to a new state or leaves with
a result. -/
namespace TradeStream.WhileLoop

variable {σ β : Type*}

/-- The loop, cut off after `fuel` rounds. -/
def runLoop (body : σ → σ ⊕ β) : ℕ → σ → Option β
  | 0, _ => none
  | fuel + 1, s =>
    match body s with
    | .inl s' => runLoop body fuel s'
    | .inr b => some b

def Returns (body : σ → σ ⊕ β) (s : σ) (b : β) : Prop := ∃ fuel, runLoop body fuel s = some b

variable {body : σ → σ ⊕ β} {s s' : σ} {b b' : β}

/-- More rounds than it takes change nothing. -/
theorem runLoop_of_le {fuel fuel' : ℕ} (h : runLoop body fuel s = some b)
    (hle : fuel ≤ fuel') : runLoop body fuel' s = some b := by
  induction fuel generalizing s fuel' with
  | zero => simp [runLoop] at h
  | succ fuel ih =>
    obtain ⟨fuel'', rfl⟩ : ∃ n, fuel' = n + 1 := ⟨fuel' - 1, by omega⟩
    cases hbody : body s with
    | inl s' =>
      rw [runLoop, hbody] at h ⊢
      exact ih h (by omega)
    | inr b' =>
      rw [runLoop, hbody] at h ⊢
      exact h

theorem returns_of_leaves (h : body s = .inr b) : Returns body s b' ↔ b' = b := by
  constructor
  · rintro ⟨fuel, hrun⟩
    cases fuel with
    | zero => simp [runLoop] at hrun
    | succ fuel => simpa [runLoop, h] using hrun.symm
  · rintro rfl
    exact ⟨1, by simp [runLoop, h]⟩

theorem returns_of_continues (h : body s = .inl s') : Returns body s b ↔ Returns body s' b := by
  constructor
  · rintro ⟨fuel, hrun⟩
    cases fuel with
    | zero => simp [runLoop] at hrun
    | succ fuel => exact ⟨fuel, by simpa [runLoop, h] using hrun⟩
  · rintro ⟨fuel, hrun⟩
    exact ⟨fuel + 1, by simpa [runLoop, h] using hrun⟩

theorem Returns.unique (h : Returns body s b) (h' : Returns body s b') : b = b' := by
  obtain ⟨fuel, hrun⟩ := h
  induction fuel generalizing s with
  | zero => simp [runLoop] at hrun
  | succ fuel ih =>
    cases hbody : body s with
    | inl s' =>
      rw [returns_of_continues hbody] at h'
      exact ih h' (by simpa [runLoop, hbody] using hrun)
    | inr c =>
      obtain rfl : b' = c := (returns_of_leaves hbody).mp h'
      simpa [runLoop, hbody] using hrun.symm

/-- What the body keeps holds when the loop returns. -/
theorem Returns.of_invariant {I : σ → Prop} {Q : β → Prop} (h : Returns body s b) (hs : I s)
    (hI : ∀ s s', I s → body s = .inl s' → I s') (hQ : ∀ s b, I s → body s = .inr b → Q b) :
    Q b := by
  obtain ⟨fuel, hrun⟩ := h
  induction fuel generalizing s with
  | zero => simp [runLoop] at hrun
  | succ fuel ih =>
    cases hbody : body s with
    | inl s' => exact ih (hI s s' hs hbody) (by simpa [runLoop, hbody] using hrun)
    | inr b' =>
      obtain rfl : b' = b := by simpa [runLoop, hbody] using hrun
      exact hQ s b' hs hbody

/-- The states the loop goes through. -/
def Reaches (body : σ → σ ⊕ β) : σ → σ → Prop :=
  Relation.ReflTransGen fun s s' => body s = .inl s'

theorem Returns.exists_leaves (h : Returns body s b) :
    ∃ s', Reaches body s s' ∧ body s' = .inr b := by
  obtain ⟨fuel, hrun⟩ := h
  induction fuel generalizing s with
  | zero => simp [runLoop] at hrun
  | succ fuel ih =>
    cases hbody : body s with
    | inl s' =>
      obtain ⟨s'', hreaches, hleaves⟩ := ih (by simpa [runLoop, hbody] using hrun)
      exact ⟨s'', hreaches.head hbody, hleaves⟩
    | inr b' =>
      obtain rfl : b' = b := by simpa [runLoop, hbody] using hrun
      exact ⟨s, Relation.ReflTransGen.refl, hbody⟩

theorem Reaches.returns_iff (h : Reaches body s s') : Returns body s b ↔ Returns body s' b := by
  induction h with
  | refl => exact Iff.rfl
  | tail _ hbody ih => exact ih.trans (returns_of_continues hbody)

/-- A loop in which every round that goes on makes something less returns. -/
theorem exists_returns (I : σ → Prop) (m : σ → ℕ)
    (hI : ∀ s s', I s → body s = .inl s' → I s' ∧ m s' < m s) (hs : I s) :
    ∃ b, Returns body s b := by
  induction hn : m s using Nat.strongRecOn generalizing s with
  | ind n ih =>
    cases hbody : body s with
    | inl s' =>
      obtain ⟨hs', hless⟩ := hI s s' hs hbody
      obtain ⟨b, hb⟩ := ih (m s') (hn ▸ hless) hs' rfl
      exact ⟨b, (returns_of_continues hbody).mpr hb⟩
    | inr b => exact ⟨b, (returns_of_leaves hbody).mpr rfl⟩

/-- A loop that always goes on returns nothing. -/
theorem not_returns_of_invariant {I : σ → Prop} (hI : ∀ s, I s → ∃ s', body s = .inl s' ∧ I s')
    (hs : I s) : ¬ Returns body s b := by
  rintro ⟨fuel, hrun⟩
  induction fuel generalizing s with
  | zero => simp [runLoop] at hrun
  | succ fuel ih =>
    obtain ⟨s', hbody, hs'⟩ := hI s hs
    exact ih hs' (by simpa [runLoop, hbody] using hrun)

end TradeStream.WhileLoop
