import Mathlib

/-! Computations that may fail, by when they succeed: one rule for a sequence and one for
a loop. -/
namespace TradeStream.Fallible

universe u v
variable {ε : Type u} {α β σ : Type v}

def Succeeds (x : Except ε α) : Prop := ∃ a, x = .ok a

@[simp] theorem succeeds_ok (a : α) : Succeeds (.ok a : Except ε α) := ⟨a, rfl⟩

@[simp] theorem succeeds_pure (a : α) : Succeeds (pure a : Except ε α) := ⟨a, rfl⟩

@[simp] theorem not_succeeds_error (e : ε) : ¬ Succeeds (.error e : Except ε α) := by
  rintro ⟨a, h⟩
  cases h

theorem ok_bind (a : α) (f : α → Except ε β) : (Except.ok a >>= f) = f a := rfl

theorem bind_eq_ok_iff {x : Except ε α} {f : α → Except ε β} {b : β} :
    x >>= f = .ok b ↔ ∃ a, x = .ok a ∧ f a = .ok b := by
  cases x with
  | error e => simp [bind, Except.bind]
  | ok a => simp [bind, Except.bind]

theorem succeeds_bind_iff {x : Except ε α} {f : α → Except ε β} :
    Succeeds (x >>= f) ↔ ∃ a, x = .ok a ∧ Succeeds (f a) := by
  cases x with
  | error e => simp [bind, Except.bind, Succeeds]
  | ok a => simp [bind, Except.bind]

/-- A sequence whose second part succeeds on the same terms whatever the first returns. -/
theorem succeeds_bind_iff_and {x : Except ε α} {f : α → Except ε β} {P : Prop}
    (h : ∀ a, x = .ok a → (Succeeds (f a) ↔ P)) : Succeeds (x >>= f) ↔ Succeeds x ∧ P := by
  rw [succeeds_bind_iff]
  constructor
  · rintro ⟨a, hx, hf⟩
    exact ⟨⟨a, hx⟩, (h a hx).mp hf⟩
  · rintro ⟨⟨a, hx⟩, hP⟩
    exact ⟨a, hx, (h a hx).mpr hP⟩

@[simp] theorem succeeds_bind_pure_iff {x : Except ε α} {g : α → β} :
    Succeeds (x >>= fun a => pure (g a)) ↔ Succeeds x := by
  rw [succeeds_bind_iff]
  simp only [succeeds_pure, and_true]
  rfl

theorem map_eq_ok_iff {x : Except ε α} {f : α → β} {b : β} :
    x.map f = .ok b ↔ ∃ a, x = .ok a ∧ f a = b := by
  cases x <;> simp [Except.map]

theorem succeeds_map_iff {x : Except ε α} {f : α → β} :
    Succeeds (x.map f) ↔ Succeeds x := by
  cases x with
  | error e => simp [Except.map]
  | ok a => simp [Except.map]

theorem mapM_eq_ok_map {f : α → Except ε β} {g : α → β} {l : List α}
    (h : ∀ a ∈ l, f a = .ok (g a)) : l.mapM f = .ok (l.map g) := by
  induction l with
  | nil => rfl
  | cons a l ih =>
    rw [List.forall_mem_cons] at h
    rw [List.mapM_cons, h.1, ih h.2]
    rfl

section
variable {f : σ → α → Except ε σ} {Inv : List α → σ → Prop}

/-- The loop rule. `Inv` ties the state to the elements that the loop is past. -/
theorem foldlM_invariant
    (hstep : ∀ before a s s', Inv before s → f s a = .ok s' → Inv (before ++ [a]) s')
    {before l : List α} {s s' : σ} (hs : Inv before s) (h : l.foldlM f s = .ok s') :
    Inv (before ++ l) s' := by
  induction l generalizing before s with
  | nil =>
    have hss : s = s' := by simpa [pure, Except.pure] using h
    rw [List.append_nil, ← hss]
    exact hs
  | cons a l ih =>
    rw [List.foldlM_cons, bind_eq_ok_iff] at h
    obtain ⟨t, ht, hl⟩ := h
    have hinv := ih (hstep before a s t hs ht) hl
    rwa [List.append_assoc, List.singleton_append] at hinv

/-- Every step of a loop that succeeds did so. -/
theorem succeeds_step_of_foldlM {l : List α} {s s' : σ} (h : l.foldlM f s = .ok s') :
    ∀ a ∈ l, ∃ t, Succeeds (f t a) := by
  induction l generalizing s with
  | nil => exact fun a ha => absurd ha List.not_mem_nil
  | cons first l ih =>
    rw [List.foldlM_cons, bind_eq_ok_iff] at h
    obtain ⟨t, ht, hl⟩ := h
    intro a ha
    rcases List.mem_cons.mp ha with rfl | hmem
    · exact ⟨s, t, ht⟩
    · exact ih hl a hmem

/-- The loop succeeds when each step does, from what it is past. -/
theorem succeeds_foldlM_iff {Ok : List α → α → Prop}
    (hok : ∀ before a s, Inv before s → (Succeeds (f s a) ↔ Ok before a))
    (hstep : ∀ before a s s', Inv before s → f s a = .ok s' → Inv (before ++ [a]) s')
    (before : List α) {l : List α} {s : σ} (hs : Inv before s) :
    Succeeds (l.foldlM f s) ↔ ∀ l₁ a l₂, l = l₁ ++ a :: l₂ → Ok (before ++ l₁) a := by
  -- the invariant carries the elements that are done, since `Ok` may depend on them
  induction l generalizing before s with
  | nil => simp
  | cons a l ih =>
    rw [List.foldlM_cons, succeeds_bind_iff]
    constructor
    · rintro ⟨t, ht, hl⟩
      intro l₁ b l₂ heq
      cases l₁ with
      | nil =>
        obtain ⟨rfl, rfl⟩ : a = b ∧ l = l₂ := by simpa using heq
        rw [List.append_nil]
        exact (hok before a s hs).mp ⟨t, ht⟩
      | cons c l₁ =>
        obtain ⟨rfl, hrest⟩ : a = c ∧ l = l₁ ++ b :: l₂ := by simpa using heq
        have hb := (ih (before ++ [a]) (hstep before a s t hs ht)).mp hl l₁ b l₂ hrest
        rwa [List.append_assoc, List.singleton_append] at hb
    · intro hall
      have ha : Ok before a := by simpa using hall [] a l rfl
      obtain ⟨t, ht⟩ := (hok before a s hs).mpr ha
      refine ⟨t, ht, (ih (before ++ [a]) (hstep before a s t hs ht)).mpr ?_⟩
      intro l₁ b l₂ heq
      have hb := hall (a :: l₁) b l₂ (by rw [heq, List.cons_append])
      rwa [List.append_assoc, List.singleton_append]

/-- A loop whose steps succeed on terms of their own, whatever the state. -/
theorem succeeds_foldlM_iff_forall_mem {Ok : α → Prop}
    (hok : ∀ s a, Succeeds (f s a) ↔ Ok a) (l : List α) (s : σ) :
    Succeeds (l.foldlM f s) ↔ ∀ a ∈ l, Ok a := by
  have hloop : Succeeds (l.foldlM f s) ↔ ∀ l₁ a l₂, l = l₁ ++ a :: l₂ → Ok a :=
    @succeeds_foldlM_iff _ _ _ f (fun _ _ => True) (fun _ => Ok) (fun _ a s _ => hok s a)
      (fun _ _ _ _ _ _ => trivial) [] l s trivial
  rw [hloop]
  constructor
  · intro hall a ha
    obtain ⟨l₁, l₂, heq⟩ := List.append_of_mem ha
    exact hall l₁ a l₂ heq
  · rintro hall l₁ a l₂ rfl
    exact hall a (List.mem_append_right l₁ List.mem_cons_self)

end

section
variable {f : α → Option (List β)}

/-- A loop that gathers what its body reports, and fails where the body does. -/
def gather (f : α → Option (List β)) : List α → Option (List β)
  | [] => some []
  | a :: l =>
    match f a with
    | none => none
    | some report => (gather f l).map (report ++ ·)

theorem isSome_gather_iff {l : List α} :
    (gather f l).isSome = true ↔ ∀ a ∈ l, (f a).isSome = true := by
  induction l with
  | nil => simp [gather]
  | cons a l ih =>
    rw [gather, List.forall_mem_cons, ← ih]
    cases f a <;> simp

theorem gather_eq_some_nil_iff {l : List α} : gather f l = some [] ↔ ∀ a ∈ l, f a = some [] := by
  induction l with
  | nil => simp [gather]
  | cons a l ih =>
    rw [gather, List.forall_mem_cons, ← ih]
    cases f a with
    | none => simp
    | some report => cases gather f l <;> simp

theorem forall_mem_zipIdx_iff {l : List α} {p : α → Prop} :
    (∀ x ∈ l.zipIdx, p x.1) ↔ ∀ a ∈ l, p a := by
  have hmap := List.zipIdx_map_fst 0 l
  constructor
  · intro h a ha
    rw [← hmap] at ha
    obtain ⟨x, hx, rfl⟩ := List.mem_map.mp ha
    exact h x hx
  · intro h x hx
    apply h
    rw [← hmap]
    exact List.mem_map_of_mem hx

end

end TradeStream.Fallible
