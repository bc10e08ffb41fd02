import Mathlib

/-! Conditions on the steps of a run, each on a step and the state it is taken in. A
run goes on after a step only where `goesOn` says so. -/
namespace TradeStream.RunSteps

variable {σ ι : Type*} {step : σ → ι → σ} {goesOn : σ → ι → Prop}

variable (step goesOn) in
/-- `C` holds of every step that the run takes. -/
def EachStep (C : σ → ι → Prop) : σ → List ι → Prop
  | _, [] => True
  | s, i :: rest => C s i ∧ (goesOn s i → EachStep C (step s i) rest)

/-- The exact condition of each step is the exact condition of the run. `I` always
holds; `P` is what a step that meets the condition keeps. -/
theorem eachStep_iff {I P : σ → Prop} {Q C : σ → ι → Prop}
    (hI : ∀ s i, I s → I (step s i)) (hQ : ∀ s i, I s → P s → (Q s i ↔ C s i))
    (hP : ∀ s i, I s → P s → Q s i → P (step s i)) {s : σ} (hs : I s) (hPs : P s)
    (l : List ι) : EachStep step goesOn Q s l ↔ EachStep step goesOn C s l := by
  induction l generalizing s with
  | nil => exact Iff.rfl
  | cons i rest ih =>
    simp only [EachStep, ← hQ s i hs hPs]
    apply and_congr_right
    intro hq
    exact imp_congr_right fun _ => ih (hI s i hs) (hP s i hs hPs hq)

theorem eachStep_of_invariant {I : σ → Prop} {C : σ → ι → Prop}
    (hI : ∀ s i, I s → I (step s i)) (hC : ∀ s i, I s → C s i) {s : σ} (hs : I s)
    (l : List ι) : EachStep step goesOn C s l := by
  induction l generalizing s with
  | nil => exact trivial
  | cons i rest ih => exact ⟨hC s i hs, fun _ => ih (hI s i hs)⟩

/-- The steps of a run with one step more. -/
theorem forall_step_append_singleton_iff {Q : List ι → ι → Prop} {l : List ι} {i : ι} :
    (∀ earlier j, earlier ++ [j] <+: l ++ [i] → Q earlier j) ↔
      (∀ earlier j, earlier ++ [j] <+: l → Q earlier j) ∧ Q l i := by
  constructor
  · intro h
    refine ⟨?_, h l i List.prefix_rfl⟩
    exact fun earlier j hpre => h earlier j (hpre.trans (List.prefix_append l [i]))
  · rintro ⟨hearlier, hlast⟩ earlier j hpre
    rcases List.prefix_concat_iff.mp hpre with heq | hpre
    · obtain ⟨rfl, hji⟩ := List.append_inj' heq rfl
      rwa [List.singleton_inj.mp hji]
    · exact hearlier earlier j hpre

section
variable (step)

theorem eachStep_iff_forall_step (C : σ → ι → Prop) (s : σ) (l : List ι) :
    EachStep step (fun _ _ => True) C s l ↔
      ∀ earlier i, earlier ++ [i] <+: l → C (earlier.foldl step s) i := by
  induction l generalizing s with
  | nil => simp [EachStep]
  | cons a rest ih =>
    simp only [EachStep, true_implies, ih]
    constructor
    · rintro ⟨hhead, htail⟩ earlier i hpre
      cases earlier with
      | nil =>
        obtain rfl : i = a := by simpa using hpre
        exact hhead
      | cons b earlier =>
        rw [List.cons_append, List.cons_prefix_cons] at hpre
        obtain ⟨rfl, hpre⟩ := hpre
        exact htail earlier i hpre
    · intro h
      refine ⟨h [] a (by simp), ?_⟩
      intro earlier i hpre
      exact h (a :: earlier) i (by simpa using hpre)

/-- The rule for a run that no step ends. -/
theorem forall_prefix_iff {I P : σ → Prop} {Q C : σ → ι → Prop}
    (hI : ∀ s i, I s → I (step s i)) (hQ : ∀ s i, I s → P s → (Q s i ↔ C s i))
    (hP : ∀ s i, I s → P s → Q s i → P (step s i)) {s : σ} (hs : I s) (hPs : P s)
    (l : List ι) :
    (∀ earlier i, earlier ++ [i] <+: l → Q (earlier.foldl step s) i) ↔
      ∀ earlier i, earlier ++ [i] <+: l → C (earlier.foldl step s) i := by
  rw [← eachStep_iff_forall_step, ← eachStep_iff_forall_step]
  exact eachStep_iff hI hQ hP hs hPs l

/-- What holds first, and after every step, holds in every state reached. -/
theorem forall_reached_iff {P : σ → Prop} {s : σ} (hs : P s) (l : List ι) :
    (∀ reached, reached <+: l → P (reached.foldl step s)) ↔
      ∀ earlier i, earlier ++ [i] <+: l → P (step (earlier.foldl step s) i) := by
  constructor
  · intro h earlier i hpre
    have hreached := h (earlier ++ [i]) hpre
    rwa [List.foldl_append] at hreached
  · intro h reached hpre
    rcases List.eq_nil_or_concat reached with rfl | ⟨earlier, i, rfl⟩
    · exact hs
    · rw [List.concat_eq_append] at hpre ⊢
      rw [List.foldl_append]
      exact h earlier i hpre

/-- What every step that meets the condition keeps is kept by a run whose steps meet it. -/
theorem forall_reached_of_forall_step {I : σ → Prop} {C : σ → ι → Prop}
    (hI : ∀ s i, I s → C s i → I (step s i)) {s : σ} (hs : I s) {l : List ι}
    (hC : ∀ earlier i, earlier ++ [i] <+: l → C (earlier.foldl step s) i) :
    ∀ reached, reached <+: l → I (reached.foldl step s) := by
  intro reached
  induction reached using List.reverseRecOn with
  | nil => exact fun _ => hs
  | append_singleton earlier i ih =>
    intro hpre
    rw [List.foldl_append]
    exact hI _ i (ih ((List.prefix_append earlier [i]).trans hpre)) (hC earlier i hpre)

/-- The two together: `C` is the exact condition for a step to keep `P`, so that it is
the exact condition for a run to keep it. -/
theorem forall_reached_iff_forall_step {I P : σ → Prop} {C : σ → ι → Prop}
    (hI : ∀ s i, I s → I (step s i)) (hC : ∀ s i, I s → P s → (P (step s i) ↔ C s i))
    {s : σ} (hs : I s) (hPs : P s) (l : List ι) :
    (∀ reached, reached <+: l → P (reached.foldl step s)) ↔
      ∀ earlier i, earlier ++ [i] <+: l → C (earlier.foldl step s) i := by
  rw [forall_reached_iff step hPs]
  exact forall_prefix_iff step hI hC (fun _ _ _ _ hnext => hnext) hs hPs l

/-- `P` after a run says `P` at the start and `C` of each step, if it does so for one. -/
theorem foldl_iff_eachStep {P : σ → Prop} {C : σ → ι → Prop}
    (h : ∀ s i, P (step s i) ↔ P s ∧ C s i) (s : σ) (l : List ι) :
    P (l.foldl step s) ↔ P s ∧ EachStep step (fun _ _ => True) C s l := by
  induction l generalizing s with
  | nil => simp [EachStep]
  | cons i rest ih =>
    rw [List.foldl_cons, ih, h, and_assoc]
    simp only [EachStep, true_implies]

/-- The same where `I` always holds. -/
theorem foldl_iff_and_forall_step {I P : σ → Prop} {C : σ → ι → Prop}
    (hI : ∀ s i, I s → I (step s i)) (h : ∀ s i, I s → (P (step s i) ↔ P s ∧ C s i)) {s : σ}
    (hs : I s) (l : List ι) :
    P (l.foldl step s) ↔
      P s ∧ ∀ earlier i, earlier ++ [i] <+: l → C (earlier.foldl step s) i := by
  induction l using List.reverseRecOn with
  | nil => simp
  | append_singleton l i ih =>
    have hinv : I (l.foldl step s) := by
      apply List.foldlRecOn
      · exact hs
      · exact fun s hs i _ => hI s i hs
    rw [List.foldl_append, List.foldl_cons, List.foldl_nil, h _ i hinv, ih, and_assoc]
    apply and_congr_right
    intro _
    exact (forall_step_append_singleton_iff (Q := fun earlier j => C (earlier.foldl step s) j)).symm

/-- The same where `P` holds at the start. -/
theorem foldl_iff_forall_step {I P : σ → Prop} {C : σ → ι → Prop}
    (hI : ∀ s i, I s → I (step s i)) (h : ∀ s i, I s → (P (step s i) ↔ P s ∧ C s i)) {s : σ}
    (hs : I s) (hPs : P s) (l : List ι) :
    P (l.foldl step s) ↔ ∀ earlier i, earlier ++ [i] <+: l → C (earlier.foldl step s) i := by
  rw [foldl_iff_and_forall_step step hI h hs]
  exact and_iff_right hPs

end

end TradeStream.RunSteps
