import Mathlib

/-! A dictionary in insertion order, filled from a list: of the elements with one key the
last is kept, those before it are shadowed. -/
namespace TradeStream.InsertionDict
open scoped List

variable {κ β γ : Type*} [DecidableEq κ]

/-- `d[k] = v`: a key that is there keeps its place. -/
def setItem (d : List (κ × γ)) (k : κ) (v : γ) : List (κ × γ) :=
  if k ∈ d.map Prod.fst then d.map fun e => if e.1 = k then (k, v) else e
  else d ++ [(k, v)]

/-- `d[key a] = val a` for each element in turn. -/
def dictOf (key : β → κ) (val : β → γ) (l : List β) : List (κ × γ) :=
  l.foldl (fun d a => setItem d (key a) (val a)) []

/-- The last element of each key. -/
def lastBy (key : β → κ) : List β → List β
  | [] => []
  | a :: l => if key a ∈ l.map key then lastBy key l else a :: lastBy key l

/-- The elements with a later one of their key. -/
def shadowedBy (key : β → κ) : List β → List β
  | [] => []
  | a :: l => if key a ∈ l.map key then a :: shadowedBy key l else shadowedBy key l

variable (key : β → κ)

/-- Each element is the last of its key, or shadowed. -/
theorem perm_lastBy_append_shadowedBy (l : List β) : lastBy key l ++ shadowedBy key l ~ l := by
  induction l with
  | nil => exact List.Perm.nil
  | cons a l ih =>
    rw [lastBy, shadowedBy]
    split_ifs with hmem
    · exact List.perm_middle.trans (ih.cons a)
    · exact ih.cons a

theorem mem_of_mem_lastBy {l : List β} {a : β} (h : a ∈ lastBy key l) : a ∈ l :=
  (perm_lastBy_append_shadowedBy key l).subset (List.mem_append_left _ h)

theorem mem_map_lastBy_iff (l : List β) (k : κ) : k ∈ (lastBy key l).map key ↔ k ∈ l.map key := by
  induction l with
  | nil => exact Iff.rfl
  | cons a l ih =>
    rw [lastBy, List.map_cons, List.mem_cons]
    split_ifs with hmem
    · rw [ih]
      constructor
      · exact Or.inr
      · rintro (rfl | hk)
        · exact hmem
        · exact hk
    · rw [List.map_cons, List.mem_cons, ih]

theorem nodup_map_lastBy (l : List β) : ((lastBy key l).map key).Nodup := by
  induction l with
  | nil => exact List.nodup_nil
  | cons a l ih =>
    rw [lastBy]
    split_ifs with hmem
    · exact ih
    · rw [List.map_cons, List.nodup_cons, mem_map_lastBy_iff]
      exact ⟨hmem, ih⟩

theorem shadowedBy_eq_nil_iff (l : List β) : shadowedBy key l = [] ↔ (l.map key).Nodup := by
  induction l with
  | nil => exact iff_of_true rfl List.nodup_nil
  | cons a l ih =>
    rw [shadowedBy, List.map_cons, List.nodup_cons]
    split_ifs with hmem
    · exact iff_of_false id (fun h => h.1 hmem)
    · rw [ih, and_iff_right hmem]

/-- One more element shadows those of its key. -/
theorem lastBy_append_singleton (l : List β) (a : β) :
    lastBy key (l ++ [a]) = (lastBy key l).filter (fun b => key b ≠ key a) ++ [a] := by
  induction l with
  | nil => rfl
  | cons b l ih =>
    have hmem : key b ∈ (l ++ [a]).map key ↔ key b ∈ l.map key ∨ key b = key a := by
      rw [List.map_append, List.mem_append, List.map_singleton, List.mem_singleton]
    rw [List.cons_append, lastBy, lastBy, ih]
    -- `b` was shadowed before, is so by `a`, or stays
    by_cases hold : key b ∈ l.map key
    · rw [if_pos (hmem.mpr (Or.inl hold)), if_pos hold]
    · rw [if_neg hold]
      by_cases hnew : key b = key a
      · rw [if_pos (hmem.mpr (Or.inr hnew)), List.filter_cons_of_neg (by simpa using hnew)]
      · have hnot : ¬ key b ∈ (l ++ [a]).map key := by
          rw [hmem]
          exact not_or.mpr ⟨hold, hnew⟩
        rw [if_neg hnot, List.filter_cons_of_pos (by simpa using hnew), List.cons_append]

/-! ### The dictionary -/

section
variable {d : List (κ × γ)} {k : κ}

theorem filter_key_ne_eq (h : k ∉ d.map Prod.fst) : d.filter (fun e => e.1 ≠ k) = d := by
  apply List.filter_eq_self.mpr
  intro e he
  have hne : e.1 ≠ k := fun heq => h (heq ▸ List.mem_map_of_mem he)
  simpa using hne

theorem replace_key_eq (h : k ∉ d.map Prod.fst) (v : γ) :
    (d.map fun e => if e.1 = k then (k, v) else e) = d := by
  have hid (e : κ × γ) (he : e ∈ d) : (if e.1 = k then (k, v) else e) = e := by
    rw [if_neg]
    exact fun heq => h (heq ▸ List.mem_map_of_mem he)
  rw [List.map_congr_left hid, List.map_id']

/-- Its own place apart, an item set is an item at the end, in the stead of that of its key. -/
theorem setItem_perm (h : (d.map Prod.fst).Nodup) (k : κ) (v : γ) :
    setItem d k v ~ d.filter (fun e => e.1 ≠ k) ++ [(k, v)] := by
  rw [setItem]
  split_ifs with hmem
  · -- the item of the key is replaced where it stands
    induction d with
    | nil => simp at hmem
    | cons e d ih =>
      obtain ⟨hnotMem, hnodup⟩ := List.nodup_cons.mp h
      rw [List.map_cons]
      by_cases he : e.1 = k
      · have hnone : k ∉ d.map Prod.fst := he ▸ hnotMem
        rw [if_pos he, replace_key_eq hnone, List.filter_cons_of_neg (by simpa using he),
          filter_key_ne_eq hnone]
        exact (List.perm_append_singleton _ _).symm
      · have hrest : k ∈ d.map Prod.fst := (List.mem_cons.mp hmem).resolve_left (Ne.symm he)
        rw [if_neg he, List.filter_cons_of_pos (by simpa using he)]
        exact (ih hnodup hrest).cons e
  · rw [filter_key_ne_eq hmem]

theorem mem_keys_setItem (d : List (κ × γ)) (k : κ) (v : γ) :
    k ∈ (setItem d k v).map Prod.fst := by
  rw [setItem]
  split_ifs with hmem
  · obtain ⟨e, he, hk⟩ := List.mem_map.mp hmem
    exact List.mem_map.mpr ⟨(k, v), List.mem_map.mpr ⟨e, he, if_pos hk⟩, rfl⟩
  · simp

/-- An item is the one that was set, or one of another key. -/
theorem eq_or_mem_of_mem_setItem {v : γ} {e : κ × γ} (h : e ∈ setItem d k v) :
    e = (k, v) ∨ e ∈ d ∧ e.1 ≠ k := by
  rw [setItem] at h
  split_ifs at h with hmem
  · obtain ⟨e', he', heq⟩ := List.mem_map.mp h
    split_ifs at heq with hk
    · exact Or.inl heq.symm
    · exact Or.inr (heq ▸ ⟨he', hk⟩)
  · rcases List.mem_append.mp h with hold | hnew
    · exact Or.inr ⟨hold, fun hk => hmem (List.mem_map.mpr ⟨e, hold, hk⟩)⟩
    · exact Or.inl (List.mem_singleton.mp hnew)

theorem nodup_keys_setItem (h : (d.map Prod.fst).Nodup) (k : κ) (v : γ) :
    ((setItem d k v).map Prod.fst).Nodup := by
  rw [setItem]
  split_ifs with hmem
  · have hkeys : (d.map fun e => if e.1 = k then (k, v) else e).map Prod.fst =
        d.map Prod.fst := by
      rw [List.map_map]
      apply List.map_congr_left
      intro e _
      by_cases he : e.1 = k <;> simp [he]
    rwa [hkeys]
  · rw [List.map_append, List.map_singleton, ← List.concat_eq_append]
    exact h.concat hmem

theorem lookup_setItem_self (d : List (κ × γ)) (k : κ) (v : γ) :
    (setItem d k v).lookup k = some v := by
  obtain ⟨e, he, hk⟩ := List.mem_map.mp (mem_keys_setItem d k v)
  cases hlookup : (setItem d k v).lookup k with
  | none => exact absurd hk.symm (by simpa using List.lookup_eq_none_iff.mp hlookup e he)
  | some w =>
    obtain ⟨before, after, hsplit, -⟩ := List.lookup_eq_some_iff.mp hlookup
    have hw : (k, w) ∈ setItem d k v := by simp [hsplit]
    rcases eq_or_mem_of_mem_setItem hw with heq | ⟨-, hne⟩
    · rw [(Prod.mk.inj heq).2]
    · exact absurd rfl hne

/-- An item set again is the one set last. -/
theorem setItem_setItem (d : List (κ × γ)) (k : κ) (v w : γ) :
    setItem (setItem d k v) k w = setItem d k w := by
  rw [setItem, if_pos (mem_keys_setItem d k v), setItem, setItem]
  split_ifs with hmem
  · rw [List.map_map]
    apply List.map_congr_left
    intro e _
    by_cases he : e.1 = k <;> simp [he]
  · rw [List.map_append, replace_key_eq hmem]
    simp

/-- What is made of the values of the items. -/
theorem map_setItem {δ : Type*} (f : γ → δ) (d : List (κ × γ)) (k : κ) (v : γ) :
    (setItem d k v).map (fun e => (e.1, f e.2)) =
      setItem (d.map fun e => (e.1, f e.2)) k (f v) := by
  have hkeys : (d.map fun e => (e.1, f e.2)).map Prod.fst = d.map Prod.fst := by
    rw [List.map_map]
    rfl
  rw [setItem, setItem, hkeys]
  split_ifs with hmem
  · rw [List.map_map, List.map_map]
    apply List.map_congr_left
    intro e _
    by_cases he : e.1 = k <;> simp [he]
  · rw [List.map_append]
    rfl

end

theorem dictOf_append_singleton (val : β → γ) (l : List β) (a : β) :
    dictOf key val (l ++ [a]) = setItem (dictOf key val l) (key a) (val a) := by
  rw [dictOf, List.foldl_append, List.foldl_cons, List.foldl_nil, dictOf]

/-- The items are those of the last elements. -/
theorem dictOf_perm (val : β → γ) (l : List β) :
    dictOf key val l ~ (lastBy key l).map fun a => (key a, val a) := by
  induction l using List.reverseRecOn with
  | nil => exact List.Perm.nil
  | append_singleton l a ih =>
    have hkeys : ((dictOf key val l).map Prod.fst).Nodup := by
      rw [(ih.map Prod.fst).nodup_iff, List.map_map]
      exact nodup_map_lastBy key l
    rw [dictOf_append_singleton, lastBy_append_singleton, List.map_append, List.map_singleton]
    refine (setItem_perm hkeys _ _).trans (List.Perm.append_right _ ?_)
    refine (ih.filter _).trans ?_
    rw [List.filter_map]
    exact List.Perm.refl _

theorem nodup_keys_dictOf (val : β → γ) (l : List β) :
    ((dictOf key val l).map Prod.fst).Nodup := by
  rw [((dictOf_perm key val l).map Prod.fst).nodup_iff, List.map_map]
  exact nodup_map_lastBy key l

theorem length_dictOf (val : β → γ) (l : List β) :
    (dictOf key val l).length = (lastBy key l).length := by
  rw [(dictOf_perm key val l).length_eq, List.length_map]

theorem lookup_eq_some_of_mem {d : List (κ × γ)} (hnodup : (d.map Prod.fst).Nodup) {k : κ}
    {v : γ} (h : (k, v) ∈ d) : d.lookup k = some v := by
  induction d with
  | nil => cases h
  | cons e d ih =>
    obtain ⟨hnotMem, hnodup⟩ := List.nodup_cons.mp hnodup
    rcases List.mem_cons.mp h with rfl | hmem
    · exact List.lookup_cons_self
    · have hne : k ≠ e.1 := by
        intro heq
        exact hnotMem (heq ▸ List.mem_map_of_mem hmem)
      have hbeq : (k == e.1) = false := beq_false_of_ne hne
      rw [List.lookup_cons, hbeq]
      exact ih hnodup hmem

/-- A key has the value of its last element. -/
theorem lookup_dictOf (val : β → γ) {l : List β} {a : β} (h : a ∈ lastBy key l) :
    (dictOf key val l).lookup (key a) = some (val a) := by
  apply lookup_eq_some_of_mem (nodup_keys_dictOf key val l)
  rw [(dictOf_perm key val l).mem_iff]
  exact List.mem_map_of_mem h

/-- Everything is kept of elements with different keys. -/
theorem length_dictOf_eq_iff (val : β → γ) (l : List β) :
    (dictOf key val l).length = l.length ↔ (l.map key).Nodup := by
  rw [length_dictOf, ← shadowedBy_eq_nil_iff, ← List.length_eq_zero_iff,
    ← (perm_lastBy_append_shadowedBy key l).length_eq, List.length_append]
  omega

/-- One item is left of elements with one key. -/
theorem length_dictOf_eq_one_iff (val : β → γ) {l : List β} (h : l ≠ []) :
    (dictOf key val l).length = 1 ↔ ∀ a ∈ l, ∀ b ∈ l, key a = key b := by
  rw [length_dictOf]
  constructor
  · intro hone a ha b hb
    obtain ⟨c, hc⟩ := List.length_eq_one_iff.mp hone
    have hkey (x : β) (hx : x ∈ l) : key x = key c := by
      have hmem := (mem_map_lastBy_iff key l (key x)).mpr (List.mem_map_of_mem hx)
      rwa [hc, List.map_singleton, List.mem_singleton] at hmem
    rw [hkey a ha, hkey b hb]
  · intro hsame
    have hnodup := nodup_map_lastBy key l
    obtain ⟨a, ha⟩ := List.exists_mem_of_ne_nil l h
    -- the keys that are left are all the same, and no two of them are
    have hall (k : κ) (hk : k ∈ (lastBy key l).map key) : k = key a := by
      obtain ⟨b, hb, rfl⟩ := List.mem_map.mp hk
      exact hsame b (mem_of_mem_lastBy key hb) a ha
    have hmem : key a ∈ (lastBy key l).map key :=
      (mem_map_lastBy_iff key l _).mpr (List.mem_map_of_mem ha)
    rw [List.eq_replicate_of_mem hall, List.nodup_replicate, List.length_map] at hnodup
    have hpos := List.length_pos_of_mem hmem
    rw [List.length_map] at hpos
    omega

/-! ### Groups -/

/-- `d[key a].append(a)`, for a list that is there or a new one. -/
def appendTo (d : List (κ × List β)) (a : β) : List (κ × List β) :=
  if key a ∈ d.map Prod.fst then d.map fun e => if e.1 = key a then (e.1, e.2 ++ [a]) else e
  else d ++ [(key a, [a])]

/-- The elements by their key, in the order of first appearance. -/
def groupsOf (l : List β) : List (κ × List β) := l.foldl (appendTo key) []

theorem map_fst_appendTo (d : List (κ × List β)) (a : β) :
    (appendTo key d a).map Prod.fst =
      if key a ∈ d.map Prod.fst then d.map Prod.fst else d.map Prod.fst ++ [key a] := by
  rw [appendTo]
  split_ifs
  · rw [List.map_map]
    apply List.map_congr_left
    intro e _
    rw [Function.comp_apply]
    split_ifs <;> rfl
  · rw [List.map_append, List.map_singleton]

theorem groupsOf_append_singleton (l : List β) (a : β) :
    groupsOf key (l ++ [a]) = appendTo key (groupsOf key l) a := by
  rw [groupsOf, List.foldl_append, List.foldl_cons, List.foldl_nil, groupsOf]

theorem mem_map_fst_groupsOf_iff (l : List β) (k : κ) :
    k ∈ (groupsOf key l).map Prod.fst ↔ k ∈ l.map key := by
  induction l using List.reverseRecOn with
  | nil => exact Iff.rfl
  | append_singleton l a ih =>
    rw [groupsOf_append_singleton, map_fst_appendTo, List.map_append, List.mem_append,
      List.map_singleton, List.mem_singleton]
    split_ifs with hmem
    · rw [ih]
      constructor
      · exact Or.inl
      · rintro (hk | rfl)
        · exact hk
        · exact ih.mp hmem
    · rw [List.mem_append, ih, List.mem_singleton]

theorem nodup_map_fst_groupsOf (l : List β) : ((groupsOf key l).map Prod.fst).Nodup := by
  induction l using List.reverseRecOn with
  | nil => exact List.nodup_nil
  | append_singleton l a ih =>
    rw [groupsOf_append_singleton, map_fst_appendTo]
    split_ifs with hmem
    · exact ih
    · rw [← List.concat_eq_append]
      exact ih.concat hmem

/-- A group is the elements of its key, in their order. -/
theorem snd_of_mem_groupsOf {l : List β} {k : κ} {g : List β} (h : (k, g) ∈ groupsOf key l) :
    g = l.filter fun b => key b = k := by
  induction l using List.reverseRecOn generalizing g with
  | nil => exact absurd h List.not_mem_nil
  | append_singleton l a ih =>
    rw [groupsOf_append_singleton, appendTo] at h
    rw [List.filter_append, List.filter_singleton]
    split_ifs at h with hmem
    · obtain ⟨⟨k', g'⟩, he, heq⟩ := List.mem_map.mp h
      split_ifs at heq with hkey
      · obtain ⟨rfl, rfl⟩ := Prod.mk.inj heq
        have hka : key a = k' := hkey.symm
        rw [ih he]
        simp [hka]
      · obtain ⟨rfl, rfl⟩ := Prod.mk.inj heq
        rw [ih he]
        simp [Ne.symm hkey]
    · rcases List.mem_append.mp h with he | hnew
      · have hne : key a ≠ k := by
          intro heq
          exact hmem (heq ▸ List.mem_map_of_mem he)
        rw [ih he]
        simp [hne]
      · obtain ⟨rfl, rfl⟩ := Prod.mk.inj (List.mem_singleton.mp hnew)
        have hnone : l.filter (fun b => key b = key a) = [] := by
          rw [List.filter_eq_nil_iff]
          intro b hb hkey
          rw [mem_map_fst_groupsOf_iff] at hmem
          exact hmem (of_decide_eq_true hkey ▸ List.mem_map_of_mem hb)
        rw [hnone]
        simp

theorem mem_groupsOf_iff {l : List β} {k : κ} {g : List β} :
    (k, g) ∈ groupsOf key l ↔ k ∈ l.map key ∧ g = l.filter fun b => key b = k := by
  constructor
  · intro h
    refine ⟨?_, snd_of_mem_groupsOf key h⟩
    rw [← mem_map_fst_groupsOf_iff]
    exact List.mem_map_of_mem h
  · rintro ⟨hk, rfl⟩
    rw [← mem_map_fst_groupsOf_iff] at hk
    obtain ⟨⟨k', g⟩, he, rfl⟩ := List.mem_map.mp hk
    rwa [← snd_of_mem_groupsOf key he]

/-! ### Sums by key -/

section Sums
variable {M : Type*} [AddCommMonoid M] (amount : β → M)

theorem lookup_replace_of_ne (d : List (κ × γ)) {k k' : κ} (hne : k' ≠ k) (v : γ) :
    (d.map fun e => if e.1 = k then (k, v) else e).lookup k' = d.lookup k' := by
  have hneb : (k' == k) = false := by simpa using hne
  induction d with
  | nil => rfl
  | cons e d ih =>
    obtain ⟨j, w⟩ := e
    rw [List.map_cons]
    by_cases hj : j = k
    · subst hj
      rw [if_pos rfl, List.lookup_cons, hneb, List.lookup_cons, hneb]
      exact ih
    · rw [if_neg hj, List.lookup_cons, List.lookup_cons, ih]

theorem lookup_setItem_of_ne (d : List (κ × γ)) {k k' : κ} (hne : k' ≠ k) (v : γ) :
    (setItem d k v).lookup k' = d.lookup k' := by
  have hneb : (k' == k) = false := by simpa using hne
  rw [setItem]
  split_ifs
  · exact lookup_replace_of_ne d hne v
  · rw [List.lookup_append, List.lookup_cons, hneb]
    simp

/-- `d[key a] += amount a`, where a key that is not there has zero. -/
def addTo (d : List (κ × M)) (a : β) : List (κ × M) :=
  setItem d (key a) ((d.lookup (key a)).getD 0 + amount a)

def sumsOf (l : List β) : List (κ × M) := l.foldl (addTo key amount) []

theorem sumsOf_append_singleton (l : List β) (a : β) :
    sumsOf key amount (l ++ [a]) = addTo key amount (sumsOf key amount l) a := by
  rw [sumsOf, List.foldl_append, List.foldl_cons, List.foldl_nil, sumsOf]

theorem mem_map_fst_setItem_iff (d : List (κ × γ)) (k k' : κ) (v : γ) :
    k' ∈ (setItem d k v).map Prod.fst ↔ k' = k ∨ k' ∈ d.map Prod.fst := by
  constructor
  · intro h
    obtain ⟨e, he, rfl⟩ := List.mem_map.mp h
    rcases eq_or_mem_of_mem_setItem he with rfl | ⟨hold, -⟩
    · exact Or.inl rfl
    · exact Or.inr (List.mem_map_of_mem hold)
  · rintro (rfl | h)
    · exact mem_keys_setItem d _ v
    · by_cases hk : k' = k
      · exact hk ▸ mem_keys_setItem d k v
      · rw [setItem]
        split_ifs
        · obtain ⟨e, he, rfl⟩ := List.mem_map.mp h
          exact List.mem_map.mpr ⟨e, List.mem_map.mpr ⟨e, he, if_neg hk⟩, rfl⟩
        · exact List.mem_map.mpr ⟨_, List.mem_append_left _ (List.mem_map.mp h).choose_spec.1,
            (List.mem_map.mp h).choose_spec.2⟩

theorem mem_map_fst_sumsOf_iff (l : List β) (k : κ) :
    k ∈ (sumsOf key amount l).map Prod.fst ↔ k ∈ l.map key := by
  induction l using List.reverseRecOn with
  | nil => exact Iff.rfl
  | append_singleton l a ih =>
    rw [sumsOf_append_singleton, addTo, mem_map_fst_setItem_iff, ih, List.map_append,
      List.mem_append, List.map_singleton, List.mem_singleton, or_comm]

theorem nodup_map_fst_sumsOf (l : List β) : ((sumsOf key amount l).map Prod.fst).Nodup := by
  induction l using List.reverseRecOn with
  | nil => exact List.nodup_nil
  | append_singleton l a ih =>
    rw [sumsOf_append_singleton]
    exact nodup_keys_setItem ih _ _

theorem getD_lookup_sumsOf (l : List β) (k : κ) :
    ((sumsOf key amount l).lookup k).getD 0 = ((l.filter fun a => key a = k).map amount).sum := by
  induction l using List.reverseRecOn with
  | nil => rfl
  | append_singleton l a ih =>
    rw [sumsOf_append_singleton, addTo, List.filter_append, List.filter_singleton, List.map_append,
      List.sum_append, ← ih]
    by_cases hk : key a = k
    · rw [← hk, lookup_setItem_self]
      simp
    · rw [lookup_setItem_of_ne _ (Ne.symm hk)]
      simp [hk]

theorem sum_filter_ne_add {d : List (κ × M)} (hnodup : (d.map Prod.fst).Nodup) (k : κ) :
    ((d.filter fun e => e.1 ≠ k).map Prod.snd).sum + (d.lookup k).getD 0 =
      (d.map Prod.snd).sum := by
  induction d with
  | nil => simp
  | cons e d ih =>
    obtain ⟨j, w⟩ := e
    obtain ⟨hnotMem, hrest⟩ := List.nodup_cons.mp hnodup
    by_cases hj : j = k
    · subst hj
      rw [List.filter_cons_of_neg (by simp), filter_key_ne_eq hnotMem, List.lookup_cons]
      simp [add_comm]
    · have hjb : (k == j) = false := by simpa using Ne.symm hj
      rw [List.filter_cons_of_pos (by simpa using hj), List.lookup_cons, hjb, List.map_cons,
        List.sum_cons, List.map_cons, List.sum_cons, add_assoc, ih hrest]

theorem sum_sumsOf (l : List β) :
    ((sumsOf key amount l).map Prod.snd).sum = (l.map amount).sum := by
  induction l using List.reverseRecOn with
  | nil => rfl
  | append_singleton l a ih =>
    have hnodup := nodup_map_fst_sumsOf key amount l
    rw [sumsOf_append_singleton, addTo, ((setItem_perm hnodup _ _).map _).sum_eq, List.map_append,
      List.sum_append, List.map_singleton, List.sum_singleton, ← add_assoc,
      sum_filter_ne_add hnodup, ih, List.map_append, List.sum_append, List.map_singleton,
      List.sum_singleton]

end Sums

end TradeStream.InsertionDict
