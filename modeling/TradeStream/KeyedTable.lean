import Mathlib

/-! A table with a unique key, written by upserts. -/
namespace TradeStream.KeyedTable

variable {K R : Type*} [DecidableEq K] (key : R → K) (update : R → R → R)

/-- The rows of a table, one for each key. -/
abbrev Table (K R : Type*) := AList fun _ : K => R

/-- `INSERT .. ON CONFLICT (key) DO UPDATE`: `update old r` replaces the row `old`
that has the key of `r`. -/
def upsert (table : Table K R) (r : R) : Table K R :=
  match table.lookup (key r) with
  | none => table.insert (key r) r
  | some old => table.insert (key r) (update old r)

def absorb (old : Option R) (r : R) : Option R :=
  some (match old with
    | none => r
    | some old => update old r)

theorem lookup_upsert (table : Table K R) (r : R) (k : K) :
    (upsert key update table r).lookup k =
      if key r = k then absorb update (table.lookup k) r else table.lookup k := by
  by_cases hk : key r = k
  · subst hk
    rw [if_pos rfl, upsert]
    cases h : table.lookup (key r) with
    | none => simp [absorb]
    | some old => simp [absorb]
  · rw [if_neg hk, upsert]
    cases table.lookup (key r) with
    | none => exact AList.lookup_insert_ne (Ne.symm hk)
    | some old => exact AList.lookup_insert_ne (Ne.symm hk)

/-- Over a sequence of upserts a key sees the rows with that key only. -/
theorem lookup_foldl_upsert (rows : List R) (table : Table K R) (k : K) :
    (rows.foldl (upsert key update) table).lookup k =
      (rows.filter fun r => key r = k).foldl (absorb update) (table.lookup k) := by
  induction rows generalizing table with
  | nil => rfl
  | cons r rows ih =>
    rw [List.foldl_cons, ih, lookup_upsert]
    by_cases hk : key r = k
    · rw [if_pos hk, List.filter_cons_of_pos (by simpa using hk), List.foldl_cons]
    · rw [if_neg hk, List.filter_cons_of_neg (by simpa using hk)]

omit [DecidableEq K] in
theorem foldl_absorb_map {R' : Type*} (update' : R' → R' → R') (e : R → R')
    (hupdate : ∀ a b, e (update a b) = update' (e a) (e b)) (rows : List R) (old : Option R) :
    (rows.foldl (absorb update) old).map e = (rows.map e).foldl (absorb update') (old.map e) := by
  induction rows generalizing old with
  | nil => rfl
  | cons r rows ih =>
    rw [List.foldl_cons, ih, List.map_cons, List.foldl_cons]
    cases old with
    | none => rfl
    | some old => simp [absorb, hupdate]

/-- A view of the rows that keeps the key and commutes with the update turns the
table of the rows into the table of the views. -/
theorem lookup_foldl_upsert_map {R' : Type*} (key' : R' → K) (update' : R' → R' → R')
    (e : R → R') (hkey : ∀ r, key' (e r) = key r)
    (hupdate : ∀ a b, e (update a b) = update' (e a) (e b)) (rows : List R) (k : K) :
    ((rows.foldl (upsert key update) ∅).lookup k).map e =
      ((rows.map e).foldl (upsert key' update') ∅).lookup k := by
  have hcomp : (fun r' => decide (key' r' = k)) ∘ e = fun r => decide (key r = k) := by
    funext r
    simp [hkey]
  rw [lookup_foldl_upsert, lookup_foldl_upsert, foldl_absorb_map update update' e hupdate,
    List.filter_map, hcomp]
  rfl

section LastWrite
variable (hself : ∀ r, update r r = r) (hlast : ∀ a b c, update (update a b) c = update a c)
include hself hlast

omit [DecidableEq K] in
theorem foldl_absorb_some (first : R) (rows : List R) :
    rows.foldl (absorb update) (some first) =
      some (update first ((first :: rows).getLast (List.cons_ne_nil _ _))) := by
  induction rows using List.reverseRecOn with
  | nil => rw [List.foldl_nil, List.getLast_singleton, hself]
  | append_singleton rows r ih =>
    rw [List.foldl_append, ih, List.foldl_cons, List.foldl_nil, absorb, hlast]
    simp

/-- Where an update takes nothing over from earlier ones, a row holds what its first
write put there, updated by its last. -/
theorem lookup_foldl_upsert_empty (rows : List R) (k : K) :
    (rows.foldl (upsert key update) ∅).lookup k =
      (rows.filter fun r => key r = k).head?.bind fun first =>
        (rows.filter fun r => key r = k).getLast?.map (update first) := by
  rw [lookup_foldl_upsert, AList.lookup_empty]
  cases rows.filter fun r => key r = k with
  | nil => rfl
  | cons first rest =>
    have h := foldl_absorb_some update hself hlast first rest
    rw [List.foldl_cons, absorb, h, List.head?_cons, Option.bind_some,
      List.getLast?_eq_some_getLast (List.cons_ne_nil _ _), Option.map_some]

end LastWrite

/-! ### How many rows there are of a kind -/

section Count
variable (p : R → Bool)

def countRows (table : Table K R) : ℕ := table.entries.countP fun entry => p entry.2

theorem countP_kerase (k : K) (entries : List (Sigma fun _ : K => R)) :
    entries.countP (fun entry => p entry.2) =
      (entries.kerase k).countP (fun entry => p entry.2) +
        ((entries.dlookup k).toList.countP p) := by
  induction entries with
  | nil => rfl
  | cons entry entries ih =>
    obtain ⟨k', row⟩ := entry
    by_cases hk : k = k'
    · subst hk
      have herase : List.kerase k (⟨k, row⟩ :: entries) = entries := List.kerase_cons_eq rfl
      rw [herase, List.dlookup_cons_eq, List.countP_cons]
      simp
    · rw [List.kerase_cons_ne hk, List.dlookup_cons_ne _ _ hk, List.countP_cons, List.countP_cons, ih]
      omega

/-- A row counts before it is replaced as the new one does afterwards. -/
theorem countRows_insert (table : Table K R) (k : K) (row : R) :
    countRows p (table.insert k row) + (table.lookup k).toList.countP p =
      countRows p table + [row].countP p := by
  have hold := countP_kerase p k table.entries
  rw [countRows, countRows, AList.entries_insert, List.countP_cons, hold]
  simp only [AList.lookup, List.countP_singleton]
  omega

end Count

end TradeStream.KeyedTable
