import Mathlib

/-! Partial assignments of values to keys, laid over one another. -/
namespace TradeStream.Layers

variable {K V : Type*}

abbrev Layer (K V : Type*) := K → Option V

/-- What `upper` defines, and `lower` elsewhere. -/
def overlay (upper lower : Layer K V) : Layer K V := fun k => (upper k).or (lower k)

def bottom : Layer K V := fun _ => none

theorem bottom_overlay (layer : Layer K V) : overlay bottom layer = layer := by
  funext k
  rfl

/-- A layer changes nothing below it. -/
theorem overlay_eq_right_iff {upper lower : Layer K V} :
    overlay upper lower = lower ↔ ∀ k v, upper k = some v → lower k = some v := by
  rw [funext_iff]
  apply forall_congr'
  intro k
  cases h : upper k with
  | none => simp [overlay, h]
  | some v => simp [overlay, h, eq_comm]

/-- A layer hides the one below it, as far as that changes anything. -/
theorem overlay_overlay_eq_iff {new old lower : Layer K V} :
    overlay new (overlay old lower) = overlay new lower ↔
      ∀ k v, old k = some v → new k = none → lower k = some v := by
  rw [funext_iff]
  apply forall_congr'
  intro k
  cases hnew : new k with
  | none =>
    cases hold : old k with
    | none => simp [overlay, hnew, hold]
    | some v => simp [overlay, hnew, hold, eq_comm]
  | some v => simp [overlay, hnew]

section
variable [DecidableEq K]

def assign (layer : Layer K V) (entry : K × V) : Layer K V :=
  Function.update layer entry.1 (some entry.2)

/-- The layer that a list of assignments leaves: of those to a key, the last. -/
def ofEntries (entries : List (K × V)) : Layer K V := fun k =>
  ((entries.filter fun entry => entry.1 = k).getLast?).map Prod.snd

/-- One assignment after another is the layer of all of them. -/
theorem foldl_assign (entries : List (K × V)) (layer : Layer K V) :
    entries.foldl assign layer = overlay (ofEntries entries) layer := by
  induction entries using List.reverseRecOn with
  | nil => rfl
  | append_singleton entries entry ih =>
    rw [List.foldl_append, ih]
    funext k
    by_cases hk : entry.1 = k
    · subst hk
      simp [assign, overlay, ofEntries]
    · simp [assign, overlay, ofEntries, hk, Ne.symm hk]

end

end TradeStream.Layers
