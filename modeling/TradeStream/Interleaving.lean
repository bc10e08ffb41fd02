import Mathlib

/-! Processes that take turns at one shared state, a statement at a time. -/
namespace TradeStream.Interleaving

variable {ι E D P : Type*}

structure World (ι D P : Type*) where
  db : D
  processes : ι → P

/-- The next statement of a process, and what it finds when it is executed. -/
structure Turn (ι E : Type*) where
  process : ι
  input : E

/-- How many processes are where `A` wants them. -/
noncomputable def tally (A : ι → P → Prop) (processes : ι → P) : ℕ∞ :=
  Set.encard {i | A i (processes i)}

section
variable [DecidableEq ι] (execute : ι → E → D → P → D × P)

def World.step (world : World ι D P) (turn : Turn ι E) : World ι D P :=
  let (db, process) :=
    execute turn.process turn.input world.db (world.processes turn.process)
  ⟨db, Function.update world.processes turn.process process⟩

theorem db_step (world : World ι D P) (i : ι) (e : E) :
    (world.step execute ⟨i, e⟩).db = (execute i e world.db (world.processes i)).1 := rfl

theorem processes_step (world : World ι D P) (i : ι) (e : E) :
    (world.step execute ⟨i, e⟩).processes =
      Function.update world.processes i (execute i e world.db (world.processes i)).2 := rfl

theorem processes_step_self (world : World ι D P) (i : ι) (e : E) :
    (world.step execute ⟨i, e⟩).processes i = (execute i e world.db (world.processes i)).2 := by
  rw [processes_step, Function.update_self]

theorem processes_step_of_ne (world : World ι D P) {i j : ι} (h : j ≠ i) (e : E) :
    (world.step execute ⟨i, e⟩).processes j = world.processes j := by
  rw [processes_step, Function.update_of_ne h]

/-- A fact about each process holds after a turn if it holds of the process whose turn it
was, and no other process loses it. -/
theorem forall_processes_step {K : ι → D → P → Prop} {world : World ι D P}
    (h : ∀ j, K j world.db (world.processes j)) (i : ι) (e : E)
    (hown : K i (execute i e world.db (world.processes i)).1
      (execute i e world.db (world.processes i)).2)
    (hother : ∀ j ≠ i, K j world.db (world.processes j) →
      K j (execute i e world.db (world.processes i)).1 (world.processes j)) (j : ι) :
    K j (world.step execute ⟨i, e⟩).db ((world.step execute ⟨i, e⟩).processes j) := by
  rw [db_step]
  by_cases hj : j = i
  · subst hj
    rwa [processes_step_self]
  · rw [processes_step_of_ne execute world hj]
    exact hother j hj (h j)

end

section
variable [DecidableEq ι] {A : ι → P → Prop} {processes : ι → P} {i : ι} {process : P}

theorem tally_update_of_iff (h : A i process ↔ A i (processes i)) :
    tally A (Function.update processes i process) = tally A processes := by
  have hset : {j | A j (Function.update processes i process j)} = {j | A j (processes j)} := by
    ext j
    by_cases hj : j = i
    · subst hj
      simpa using h
    · simp [hj]
  rw [tally, hset, tally]

theorem tally_update_of_not (hbefore : ¬ A i (processes i)) (hafter : A i process) :
    tally A (Function.update processes i process) = tally A processes + 1 := by
  have hset : {j | A j (Function.update processes i process j)} =
      insert i {j | A j (processes j)} := by
    ext j
    by_cases hj : j = i
    · subst hj
      simpa using hafter
    · simp [hj]
  have hnot : i ∉ {j | A j (processes j)} := hbefore
  rw [tally, hset, Set.encard_insert_of_notMem hnot, tally]

theorem tally_update_add_one (hbefore : A i (processes i)) (hafter : ¬ A i process) :
    tally A (Function.update processes i process) + 1 = tally A processes := by
  have hself : ¬ A i (Function.update processes i process i) := by
    rwa [Function.update_self]
  have h := tally_update_of_not hself hbefore
  rw [Function.update_idem, Function.update_eq_self] at h
  exact h.symm

theorem tally_update_le (h : A i process → A i (processes i)) :
    tally A (Function.update processes i process) ≤ tally A processes := by
  apply Set.encard_le_encard
  intro j hj
  by_cases hji : j = i
  · subst hji
    simp only [Set.mem_ofPred_eq, Function.update_self] at hj
    exact h hj
  · simpa [Function.update_of_ne hji] using hj

theorem tally_update_le_add_one :
    tally A (Function.update processes i process) ≤ tally A processes + 1 := by
  by_cases hafter : A i process → A i (processes i)
  · exact (tally_update_le hafter).trans le_self_add
  · obtain ⟨hprocess, hbefore⟩ := Classical.not_imp.mp hafter
    exact (tally_update_of_not hbefore hprocess).le

end

theorem tally_eq_zero {A : ι → P → Prop} {processes : ι → P} (h : ∀ i, ¬ A i (processes i)) :
    tally A processes = 0 := by
  rw [tally, Set.encard_eq_zero]
  ext i
  simpa using h i

/-- A number of the database, with the processes that still have to add to it. -/
noncomputable def booked (value : D → ℕ) (A : ι → P → Prop) (world : World ι D P) : ℕ∞ :=
  value world.db + tally A world.processes

section
variable [DecidableEq ι] {value : D → ℕ} {A : ι → P → Prop} {world : World ι D P} {i : ι} {db : D}
  {process : P} {a b : ℕ}

theorem booked_of_iff (hvalue : value db + a = value world.db + b)
    (h : A i process ↔ A i (world.processes i)) :
    booked value A ⟨db, Function.update world.processes i process⟩ + a =
      booked value A world + b := by
  have hcast : (value db : ℕ∞) + a = value world.db + b := by exact_mod_cast hvalue
  rw [booked, booked, tally_update_of_iff h, add_right_comm, hcast, add_right_comm]

theorem booked_of_gain (hvalue : value db + a = value world.db + b)
    (hbefore : ¬ A i (world.processes i)) (hafter : A i process) :
    booked value A ⟨db, Function.update world.processes i process⟩ + a =
      booked value A world + (b + 1 : ℕ) := by
  have hcast : (value db : ℕ∞) + a = value world.db + b := by exact_mod_cast hvalue
  rw [booked, booked, tally_update_of_not hbefore hafter, add_right_comm, hcast]
  push_cast
  ring

theorem booked_of_loss (hvalue : value db + a = value world.db + b)
    (hbefore : A i (world.processes i)) (hafter : ¬ A i process) :
    booked value A ⟨db, Function.update world.processes i process⟩ + (a + 1 : ℕ) =
      booked value A world + b := by
  have hcast : (value db : ℕ∞) + a = value world.db + b := by exact_mod_cast hvalue
  rw [booked, booked, ← tally_update_add_one hbefore hafter, add_right_comm _ _ (b : ℕ∞), ← hcast]
  push_cast
  ring

end

end TradeStream.Interleaving
