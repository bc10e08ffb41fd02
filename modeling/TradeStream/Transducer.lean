import Mathlib

/-! Deterministic machines that read a list of inputs and append a list of
outputs at each one. Everything here is independent of what is computed. -/
namespace TradeStream.Transducer

variable {σ τ ι κ ω : Type*}

/-- Feed the inputs one after another, concatenating the outputs. -/
def run (step : σ → ι → σ × List ω) : σ → List ι → σ × List ω
  | s, [] => (s, [])
  | s, i :: is => ((run step (step s i).1 is).1, (step s i).2 ++ (run step (step s i).1 is).2)

@[simp] theorem run_nil (step : σ → ι → σ × List ω) (s : σ) : run step s [] = (s, []) := rfl

theorem run_append (step : σ → ι → σ × List ω) (s : σ) (is js : List ι) :
    run step s (is ++ js) =
      ((run step (run step s is).1 js).1,
        (run step s is).2 ++ (run step (run step s is).1 js).2) := by
  induction is generalizing s with
  | nil => simp
  | cons i is ih => simp only [List.cons_append, run, ih, List.append_assoc]

theorem run_concat (step : σ → ι → σ × List ω) (s : σ) (is : List ι) (i : ι) :
    run step s (is ++ [i]) =
      ((step (run step s is).1 i).1, (run step s is).2 ++ (step (run step s is).1 i).2) := by
  rw [run_append]
  simp [run]

/-- A machine with one output at each input. -/
def single (update : σ → ι → σ × ω) (s : σ) (i : ι) : σ × List ω :=
  ((update s i).1, [(update s i).2])

/-- Its outputs are those at the states before each input. -/
theorem getElem?_run_single (update : σ → ι → σ × ω) (s : σ) (is : List ι) (n : ℕ) :
    (run (single update) s is).2[n]? =
      is[n]?.map fun i => (update (run (single update) s (is.take n)).1 i).2 := by
  induction is generalizing s n with
  | nil => simp
  | cons i is ih =>
    cases n with
    | zero => rfl
    | succ n =>
      rw [run, single, List.singleton_append, List.getElem?_cons_succ, ih, List.getElem?_cons_succ]
      rfl

/-- A component of a machine that sees only some of the inputs and some of the
outputs is itself a machine, run on the inputs it sees. `Q` is an invariant of
the whole that the component may rely on. -/
theorem run_project (step : σ → ι → σ × List ω) (part : τ → κ → τ × List ω) (Q : σ → Prop)
    (view : σ → τ) (sees : ι → Option κ) (keep : ω → Bool)
    (hQ : ∀ s i, Q s → Q (step s i).1)
    (hskip : ∀ s i, Q s → sees i = none →
      view (step s i).1 = view s ∧ (step s i).2.filter keep = [])
    (hstep : ∀ s i k, Q s → sees i = some k →
      view (step s i).1 = (part (view s) k).1 ∧ (step s i).2.filter keep = (part (view s) k).2)
    (s : σ) (is : List ι) (hs : Q s) :
    view (run step s is).1 = (run part (view s) (is.filterMap sees)).1 ∧
      (run step s is).2.filter keep = (run part (view s) (is.filterMap sees)).2 := by
  induction is generalizing s with
  | nil => exact ⟨rfl, rfl⟩
  | cons i is ih =>
    obtain ⟨hv, ho⟩ := ih (step s i).1 (hQ s i hs)
    -- An unseen input leaves the view alone and puts out nothing that is kept.
    cases hi : sees i with
    | none =>
      obtain ⟨h1, h2⟩ := hskip s i hs hi
      simp only [run, List.filterMap_cons, hi, List.filter_append, h2, List.nil_append]
      rw [hv, ho, h1]
      exact ⟨rfl, rfl⟩
    | some k =>
      obtain ⟨h1, h2⟩ := hstep s i k hs hi
      simp only [run, List.filterMap_cons, hi, List.filter_append, h2]
      rw [hv, ho, h1]
      exact ⟨rfl, rfl⟩

/-- What every step preserves, every run preserves. -/
theorem run_invariant (step : σ → ι → σ × List ω) (P : σ → Prop)
    (hstep : ∀ s i, P s → P (step s i).1) (s : σ) (is : List ι) (hs : P s) :
    P (run step s is).1 := by
  induction is generalizing s with
  | nil => exact hs
  | cons i is ih => exact ih _ (hstep s i hs)

end TradeStream.Transducer
