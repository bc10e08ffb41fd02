import Mathlib

/-! A relation that is kept as a dictionary of sets, without an entry for an empty set. A set is
a list of its elements, in the order in which it is iterated. -/
namespace TradeStream.RelationIndex

variable {α β : Type*}

abbrev Index (α β : Type*) := α → Option (List β)

/-- `d.get(a, set())`. -/
def elements (d : Index α β) (a : α) : List β := (d a).getD []

/-- The dictionary of the relation `r`. -/
structure Represents (d : Index α β) (r : α → β → Prop) : Prop where
  mem_iff : ∀ a b, b ∈ elements d a ↔ r a b
  nodup : ∀ a, (elements d a).Nodup
  nonempty : ∀ a, d a ≠ some []

section
variable [DecidableEq α]

theorem elements_update (d : Index α β) (a a' : α) (s : Option (List β)) :
    elements (Function.update d a s) a' = if a' = a then s.getD [] else elements d a' := by
  by_cases ha : a' = a
  · subst ha
    simp [elements]
  · simp [elements, ha]

/-- A dictionary with another set under one key. -/
theorem Represents.update {d : Index α β} {r r' : α → β → Prop} (h : Represents d r) {a : α}
    {s : Option (List β)} (hself : ∀ b, b ∈ s.getD [] ↔ r' a b)
    (hother : ∀ a' ≠ a, ∀ b, r a' b ↔ r' a' b) (hnodup : (s.getD []).Nodup) (hs : s ≠ some []) :
    Represents (Function.update d a s) r' where
  mem_iff a' b := by
    rw [elements_update]
    split_ifs with ha
    · rw [ha, hself]
    · rw [h.mem_iff, hother a' ha]
  nodup a' := by
    rw [elements_update]
    split_ifs
    · exact hnodup
    · exact h.nodup a'
  nonempty a' := by
    rw [Function.update_apply]
    split_ifs
    · exact hs
    · exact h.nonempty a'

/-- `d.pop(a, set())`. -/
def remove (d : Index α β) (a : α) : Index α β := Function.update d a none

theorem represents_remove {d : Index α β} {r : α → β → Prop} (h : Represents d r) (a : α) :
    Represents (remove d a) fun a' b => r a' b ∧ a' ≠ a := by
  apply h.update
  · simp
  · intro a' ha b
    simp [ha]
  · exact List.nodup_nil
  · simp

variable [DecidableEq β]

/-- `d[a].add(b)`, which makes the set that is missing. -/
def add (d : Index α β) (a : α) (b : β) : Index α β :=
  Function.update d a (some ((elements d a).insert b))

/-- `d[a].discard(b)`, and `del d[a]` where that leaves nothing in the set. -/
def discard (d : Index α β) (a : α) (b : β) : Index α β :=
  Function.update d a
    (if (elements d a).erase b = [] then none else some ((elements d a).erase b))

theorem represents_add {d : Index α β} {r : α → β → Prop} (h : Represents d r) (a : α) (b : β) :
    Represents (add d a b) fun a' b' => r a' b' ∨ a' = a ∧ b' = b := by
  apply h.update
  · intro b'
    rw [Option.getD_some, List.mem_insert_iff, h.mem_iff, or_comm]
    simp
  · intro a' ha b'
    simp [ha]
  · exact (h.nodup a).insert
  · intro hempty
    exact List.ne_nil_of_mem (List.mem_insert_self (a := b)) (Option.some.inj hempty)

theorem represents_discard {d : Index α β} {r : α → β → Prop} (h : Represents d r) (a : α)
    (b : β) : Represents (discard d a b) fun a' b' => r a' b' ∧ ¬ (a' = a ∧ b' = b) := by
  have hget : ∀ s : List β, (if s = [] then none else some s : Option (List β)).getD [] = s := by
    intro s
    split_ifs with hs
    · exact hs.symm
    · rfl
  apply h.update
  · intro b'
    rw [hget, (h.nodup a).mem_erase_iff, h.mem_iff, and_comm]
    simp
  · intro a' ha b'
    simp [ha]
  · rw [hget]
    exact (h.nodup a).erase b
  · split_ifs with hs
    · simp
    · simpa using hs

/-- One element taken out of the sets of some keys, one key after another. -/
theorem represents_foldl_discard {d : Index α β} {r : α → β → Prop} (h : Represents d r)
    (keys : List α) (b : β) :
    Represents (keys.foldl (fun d a => discard d a b) d)
      fun a' b' => r a' b' ∧ ¬ (a' ∈ keys ∧ b' = b) := by
  induction keys generalizing d r with
  | nil => simpa using h
  | cons a keys ih =>
    have hrel : (fun a' b' => (r a' b' ∧ ¬ (a' = a ∧ b' = b)) ∧ ¬ (a' ∈ keys ∧ b' = b)) =
        fun a' b' => r a' b' ∧ ¬ (a' ∈ a :: keys ∧ b' = b) := by
      funext a' b'
      simp only [List.mem_cons, eq_iff_iff]
      tauto
    rw [List.foldl_cons, ← hrel]
    exact ih (represents_discard h a b)

end

/-- The size of a set is the number of elements related to its key. -/
theorem Represents.length_elements {d : Index α β} {r : α → β → Prop} (h : Represents d r)
    (a : α) : ((elements d a).length : ℕ∞) = Set.encard {b | r a b} := by
  classical
  have hset : {b | r a b} = ((elements d a).toFinset : Set β) := by
    ext b
    simp [h.mem_iff a b]
  rw [hset, Set.encard_coe_eq_coe_finsetCard, List.toFinset_card_of_nodup (h.nodup a)]

end TradeStream.RelationIndex
