import TradeStream.JsonText
import TradeStream.InsertionDict

/-! `diff_configs`, on configs as JSON objects: when a diff tells what has changed. -/
namespace TradeStream.ConfigDiff
open TradeStream.JsonText
open TradeStream.InsertionDict (lookup_eq_some_of_mem)

abbrev Fields := List (String × Json ℚ)

/-! ### Values -/

mutual

/-- The fields of every object are in the order of their keys, which are different. -/
def WellFormed : Json ℚ → Prop
  | .arr items => WellFormedItems items
  | .obj fields => (fields.map Prod.fst).Pairwise (· < ·) ∧ WellFormedValues fields
  | _ => True

def WellFormedItems : List (Json ℚ) → Prop
  | [] => True
  | v :: items => WellFormed v ∧ WellFormedItems items

def WellFormedValues : Fields → Prop
  | [] => True
  | (_, v) :: fields => WellFormed v ∧ WellFormedValues fields

end

/-- A config, in one form for every order of its fields. -/
structure Config where
  fields : Fields
  sorted : (fields.map Prod.fst).Pairwise (· < ·)
  wellFormed : WellFormedValues fields

def truthValue (b : Bool) : ℚ := if b then 1 else 0

mutual

/-- `==`, for which `True` is 1 and `False` is 0. -/
def pythonEq : Json ℚ → Json ℚ → Bool
  | .null, .null => true
  | .bool a, .bool b => a == b
  | .bool a, .num y => truthValue a == y
  | .num x, .bool b => x == truthValue b
  | .num x, .num y => x == y
  | .str s, .str t => s == t
  | .arr items, .arr items' => pythonEqItems items items'
  | .obj fields, .obj fields' => pythonEqFields fields fields'
  | _, _ => false

def pythonEqItems : List (Json ℚ) → List (Json ℚ) → Bool
  | [], [] => true
  | v :: items, v' :: items' => pythonEq v v' && pythonEqItems items items'
  | _, _ => false

/-- Both are in the order of their keys. -/
def pythonEqFields : Fields → Fields → Bool
  | [], [] => true
  | (key, v) :: fields, (key', v') :: fields' =>
    key == key' && pythonEq v v' && pythonEqFields fields fields'
  | _, _ => false

end

/-! ### The diff -/

inductive Action where
  | added
  | removed
  | modified
  deriving DecidableEq

structure Change where
  field : String
  action : Action
  oldValue : Json ℚ
  newValue : Json ℚ

/-- The keys of both, in order. -/
def allKeys (old new : Fields) : List String :=
  (old.map Prod.fst ++ new.map Prod.fst).dedup.insertionSort (· ≤ ·)

theorem sizeOf_lookup_lt {fields : Fields} {key : String} {v : Json ℚ}
    (h : fields.lookup key = some v) : sizeOf v < sizeOf fields := by
  obtain ⟨before, after, rfl, -⟩ := List.lookup_eq_some_iff.mp h
  have hmem : (key, v) ∈ before ++ (key, v) :: after :=
    List.mem_append_right before List.mem_cons_self
  have hlt := List.sizeOf_lt_of_mem hmem
  simp only [Prod.mk.sizeOf_spec] at hlt
  omega

def diffConfigs (old new : Fields) : List Change :=
  (allKeys old new).flatMap fun key =>
    match _hold : old.lookup key, new.lookup key with
    | none, none => []
    | none, some newVal => [⟨key, .added, .null, newVal⟩]
    | some oldVal, none => [⟨key, .removed, oldVal, .null⟩]
    | some oldVal, some newVal =>
      if pythonEq oldVal newVal then []
      else
        match oldVal, newVal with
        | .obj oldFields, .obj newFields =>
          (diffConfigs oldFields newFields).map fun change =>
            { change with field := key ++ "." ++ change.field }
        | _, _ => [⟨key, .modified, oldVal, newVal⟩]
termination_by sizeOf old
decreasing_by
  have hlt := sizeOf_lookup_lt _hold
  simp only [Json.obj.sizeOf_spec] at hlt
  omega

/-- The changes at one key. -/
def changesAt (old new : Fields) (key : String) : List Change :=
  match old.lookup key, new.lookup key with
  | none, none => []
  | none, some newVal => [⟨key, .added, .null, newVal⟩]
  | some oldVal, none => [⟨key, .removed, oldVal, .null⟩]
  | some oldVal, some newVal =>
    if pythonEq oldVal newVal then []
    else
      match oldVal, newVal with
      | .obj oldFields, .obj newFields =>
        (diffConfigs oldFields newFields).map fun change =>
          { change with field := key ++ "." ++ change.field }
      | _, _ => [⟨key, .modified, oldVal, newVal⟩]

theorem diffConfigs_eq (old new : Fields) :
    diffConfigs old new = (allKeys old new).flatMap (changesAt old new) := by
  rw [diffConfigs]
  congr 1
  funext key
  rw [changesAt]
  split
  · next hold hnew => rw [hold, hnew]
  · next hold hnew => rw [hold, hnew]
  · next hold hnew => rw [hold, hnew]
  · next oldVal newVal hold hnew =>
    simp only [hold, hnew]
    split_ifs
    · rfl
    · cases oldVal <;> cases newVal <;> rfl

/-! ### What Python takes for equal -/

mutual

/-- Python takes no other value for it: it has no boolean, and no 0 or 1, at any depth. -/
def Exact : Json ℚ → Prop
  | .bool _ => False
  | .num x => x ≠ 0 ∧ x ≠ 1
  | .arr items => ExactItems items
  | .obj fields => ExactValues fields
  | _ => True

def ExactItems : List (Json ℚ) → Prop
  | [] => True
  | v :: items => Exact v ∧ ExactItems items

def ExactValues : Fields → Prop
  | [] => True
  | (_, v) :: fields => Exact v ∧ ExactValues fields

end

mutual

/-- Every boolean as a number, and every 0 or 1 as a boolean. -/
def twin : Json ℚ → Json ℚ
  | .bool b => .num (truthValue b)
  | .num x => if x = 0 then .bool false else if x = 1 then .bool true else .num x
  | .arr items => .arr (twinItems items)
  | .obj fields => .obj (twinValues fields)
  | v => v

def twinItems : List (Json ℚ) → List (Json ℚ)
  | [] => []
  | v :: items => twin v :: twinItems items

def twinValues : Fields → Fields
  | [] => []
  | (key, v) :: fields => (key, twin v) :: twinValues fields

end

mutual

theorem pythonEq_refl : ∀ v : Json ℚ, pythonEq v v = true
  | .null => rfl
  | .bool b => by simp [pythonEq]
  | .num x => by simp [pythonEq]
  | .str s => by simp [pythonEq]
  | .arr items => by
    rw [pythonEq]
    exact pythonEqItems_refl items
  | .obj fields => by
    rw [pythonEq]
    exact pythonEqFields_refl fields

theorem pythonEqItems_refl : ∀ items : List (Json ℚ), pythonEqItems items items = true
  | [] => rfl
  | v :: items => by
    rw [pythonEqItems, pythonEq_refl v, pythonEqItems_refl items]
    rfl

theorem pythonEqFields_refl : ∀ fields : Fields, pythonEqFields fields fields = true
  | [] => rfl
  | (key, v) :: fields => by
    rw [pythonEqFields, pythonEq_refl v, pythonEqFields_refl fields]
    simp

end

mutual

theorem eq_of_pythonEq : ∀ {v w : Json ℚ}, Exact v → pythonEq v w = true → v = w
  | .null, .null, _, _ => rfl
  | .num x, .bool b, hexact, h => by
    have hx : x = truthValue b := by simpa [pythonEq] using h
    cases b with
    | false => exact absurd hx hexact.1
    | true => exact absurd hx hexact.2
  | .num x, .num y, _, h => by
    rw [beq_iff_eq.mp h]
  | .str s, .str t, _, h => by
    rw [beq_iff_eq.mp h]
  | .arr items, .arr items', hexact, h => by
    rw [eq_of_pythonEqItems hexact h]
  | .obj fields, .obj fields', hexact, h => by
    rw [eq_of_pythonEqFields hexact h]

theorem eq_of_pythonEqItems : ∀ {items items' : List (Json ℚ)}, ExactItems items →
    pythonEqItems items items' = true → items = items'
  | [], [], _, _ => rfl
  | v :: items, v' :: items', hexact, h => by
    rw [pythonEqItems, Bool.and_eq_true] at h
    rw [eq_of_pythonEq hexact.1 h.1, eq_of_pythonEqItems hexact.2 h.2]

theorem eq_of_pythonEqFields : ∀ {fields fields' : Fields}, ExactValues fields →
    pythonEqFields fields fields' = true → fields = fields'
  | [], [], _, _ => rfl
  | (key, v) :: fields, (key', v') :: fields', hexact, h => by
    rw [pythonEqFields, Bool.and_eq_true, Bool.and_eq_true, beq_iff_eq] at h
    rw [h.1.1, eq_of_pythonEq hexact.1 h.1.2, eq_of_pythonEqFields hexact.2 h.2]

end

theorem map_fst_twinValues : ∀ fields : Fields,
    (twinValues fields).map Prod.fst = fields.map Prod.fst
  | [] => rfl
  | (key, v) :: fields => by
    rw [twinValues, List.map_cons, List.map_cons, map_fst_twinValues fields]

mutual

theorem pythonEq_twin : ∀ v : Json ℚ, pythonEq v (twin v) = true
  | .null => rfl
  | .bool b => by simp [twin, pythonEq]
  | .num x => by
    rw [twin]
    split_ifs with hzero hone
    · simp [pythonEq, truthValue, hzero]
    · simp [pythonEq, truthValue, hone]
    · simp [pythonEq]
  | .str s => by simp [twin, pythonEq]
  | .arr items => by
    rw [twin, pythonEq]
    exact pythonEqItems_twinItems items
  | .obj fields => by
    rw [twin, pythonEq]
    exact pythonEqFields_twinValues fields

theorem pythonEqItems_twinItems : ∀ items : List (Json ℚ),
    pythonEqItems items (twinItems items) = true
  | [] => rfl
  | v :: items => by
    rw [twinItems, pythonEqItems, pythonEq_twin v, pythonEqItems_twinItems items]
    rfl

theorem pythonEqFields_twinValues : ∀ fields : Fields,
    pythonEqFields fields (twinValues fields) = true
  | [] => rfl
  | (key, v) :: fields => by
    rw [twinValues, pythonEqFields, pythonEq_twin v, pythonEqFields_twinValues fields]
    simp

end

mutual

theorem wellFormed_twin : ∀ v : Json ℚ, WellFormed v → WellFormed (twin v)
  | .null, _ => trivial
  | .bool _, _ => trivial
  | .num x, _ => by
    rw [twin]
    split_ifs <;> trivial
  | .str _, _ => trivial
  | .arr items, h => wellFormedItems_twinItems items h
  | .obj fields, h => by
    rw [twin, WellFormed, map_fst_twinValues]
    exact ⟨h.1, wellFormedValues_twinValues fields h.2⟩

theorem wellFormedItems_twinItems : ∀ items : List (Json ℚ), WellFormedItems items →
    WellFormedItems (twinItems items)
  | [], _ => trivial
  | v :: items, h => ⟨wellFormed_twin v h.1, wellFormedItems_twinItems items h.2⟩

theorem wellFormedValues_twinValues : ∀ fields : Fields, WellFormedValues fields →
    WellFormedValues (twinValues fields)
  | [], _ => trivial
  | (_, v) :: fields, h => ⟨wellFormed_twin v h.1, wellFormedValues_twinValues fields h.2⟩

end

mutual

theorem exact_of_twin_eq : ∀ v : Json ℚ, twin v = v → Exact v
  | .null, _ => trivial
  | .bool _, h => by cases h
  | .num x, h => by
    rw [twin] at h
    split_ifs at h with hzero hone
    · exact ⟨hzero, hone⟩
  | .str _, _ => trivial
  | .arr items, h => exactItems_of_twinItems_eq items (Json.arr.inj h)
  | .obj fields, h => exactValues_of_twinValues_eq fields (Json.obj.inj h)

theorem exactItems_of_twinItems_eq : ∀ items : List (Json ℚ), twinItems items = items →
    ExactItems items
  | [], _ => trivial
  | v :: items, h => by
    obtain ⟨hv, hitems⟩ := List.cons.inj h
    exact ⟨exact_of_twin_eq v hv, exactItems_of_twinItems_eq items hitems⟩

theorem exactValues_of_twinValues_eq : ∀ fields : Fields, twinValues fields = fields →
    ExactValues fields
  | [], _ => trivial
  | (_, v) :: fields, h => by
    obtain ⟨hv, hfields⟩ := List.cons.inj h
    exact ⟨exact_of_twin_eq v (Prod.mk.inj hv).2, exactValues_of_twinValues_eq fields hfields⟩

end

/-! ### Fields in order -/

section
variable {fields fields' : Fields} {key : String} {v : Json ℚ}

theorem mem_iff_lookup (hsorted : (fields.map Prod.fst).Pairwise (· < ·)) :
    (key, v) ∈ fields ↔ fields.lookup key = some v := by
  constructor
  · exact lookup_eq_some_of_mem (hsorted.imp ne_of_lt)
  · intro h
    obtain ⟨before, after, rfl, -⟩ := List.lookup_eq_some_iff.mp h
    exact List.mem_append_right before List.mem_cons_self

theorem lookup_eq_none_iff_notMem : fields.lookup key = none ↔ key ∉ fields.map Prod.fst := by
  rw [List.lookup_eq_none_iff]
  constructor
  · intro h hmem
    obtain ⟨pair, hpair, rfl⟩ := List.mem_map.mp hmem
    simpa using h pair hpair
  · intro h pair hpair
    rw [bne_iff_ne]
    rintro rfl
    exact h (List.mem_map_of_mem hpair)

/-- Fields in order are known by what is looked up in them. -/
theorem eq_of_lookup_eq (hsorted : (fields.map Prod.fst).Pairwise (· < ·))
    (hsorted' : (fields'.map Prod.fst).Pairwise (· < ·))
    (h : ∀ key, fields.lookup key = fields'.lookup key) : fields = fields' := by
  have hnodup : fields.Nodup := List.Nodup.of_map Prod.fst (hsorted.imp ne_of_lt)
  have hnodup' : fields'.Nodup := List.Nodup.of_map Prod.fst (hsorted'.imp ne_of_lt)
  have hperm : fields.Perm fields' := by
    rw [List.perm_ext_iff_of_nodup hnodup hnodup']
    rintro ⟨key, v⟩
    rw [mem_iff_lookup hsorted, mem_iff_lookup hsorted', h]
  exact hperm.eq_of_pairwise (fun a b _ _ hab hba => absurd hab (lt_asymm hba))
    (List.pairwise_map.mp hsorted) (List.pairwise_map.mp hsorted')

theorem wellFormedValues_iff : WellFormedValues fields ↔ ∀ field ∈ fields, WellFormed field.2 := by
  induction fields with
  | nil => simp [WellFormedValues]
  | cons field fields ih => simp [WellFormedValues, ih]

end

/-- `d[key] = v`, in the order of the keys. -/
def setField (key : String) (v : Json ℚ) : Fields → Fields
  | [] => [(key, v)]
  | field :: fields =>
    if key < field.1 then (key, v) :: field :: fields
    else if key = field.1 then (key, v) :: fields
    else field :: setField key v fields

theorem lookup_setField (key : String) (v : Json ℚ) (fields : Fields) (k : String) :
    (setField key v fields).lookup k = if k = key then some v else fields.lookup k := by
  induction fields with
  | nil => exact lookup_cons_ite key v [] k
  | cons field fields ih =>
    obtain ⟨first, w⟩ := field
    rw [setField]
    by_cases hlt : key < first
    · rw [if_pos hlt]
      exact lookup_cons_ite key v _ k
    · rw [if_neg hlt]
      by_cases heq : key = first
      · rw [if_pos heq, lookup_cons_ite, lookup_cons_ite, ← heq]
        split_ifs <;> rfl
      · rw [if_neg heq, lookup_cons_ite, lookup_cons_ite, ih]
        -- the first key is another one
        by_cases hk : k = first
        · rw [if_pos hk, if_pos hk, if_neg (hk ▸ Ne.symm heq)]
        · rw [if_neg hk, if_neg hk]

theorem mem_setField {key : String} {v : Json ℚ} {fields : Fields} {field : String × Json ℚ}
    (h : field ∈ setField key v fields) : field = (key, v) ∨ field ∈ fields := by
  induction fields with
  | nil => exact Or.inl (List.mem_singleton.mp h)
  | cons first fields ih =>
    rw [setField] at h
    split_ifs at h
    · exact List.mem_cons.mp h
    · exact (List.mem_cons.mp h).imp_right (List.mem_cons_of_mem first)
    · rcases List.mem_cons.mp h with rfl | hmem
      · exact Or.inr List.mem_cons_self
      · exact (ih hmem).imp_right (List.mem_cons_of_mem first)

theorem sorted_setField (key : String) (v : Json ℚ) {fields : Fields}
    (hsorted : (fields.map Prod.fst).Pairwise (· < ·)) :
    ((setField key v fields).map Prod.fst).Pairwise (· < ·) := by
  induction fields with
  | nil => exact List.pairwise_singleton _ _
  | cons field fields ih =>
    obtain ⟨hfirst, hrest⟩ := List.pairwise_cons.mp hsorted
    rw [setField]
    split_ifs with hlt heq
    · refine List.pairwise_cons.mpr ⟨?_, hsorted⟩
      intro k hk
      rcases List.mem_cons.mp hk with rfl | hmem
      · exact hlt
      · exact hlt.trans (hfirst k hmem)
    · rw [List.map_cons, heq]
      exact List.pairwise_cons.mpr ⟨hfirst, hrest⟩
    · refine List.pairwise_cons.mpr ⟨?_, ih hrest⟩
      intro k hk
      obtain ⟨other, hother, rfl⟩ := List.mem_map.mp hk
      rcases mem_setField hother with rfl | hmem
      · exact lt_of_le_of_ne (not_lt.mp hlt) (Ne.symm heq)
      · exact hfirst _ (List.mem_map_of_mem hmem)

theorem wellFormedValues_setField {key : String} {v : Json ℚ} {fields : Fields}
    (h : WellFormedValues fields) (hv : WellFormed v) :
    WellFormedValues (setField key v fields) := by
  rw [wellFormedValues_iff] at h ⊢
  intro field hfield
  rcases mem_setField hfield with rfl | hmem
  · exact hv
  · exact h field hmem

/-- The config with another value at a key. -/
def Config.set (config : Config) (key : String) (v : Json ℚ) (hv : WellFormed v) : Config where
  fields := setField key v config.fields
  sorted := sorted_setField key v config.sorted
  wellFormed := wellFormedValues_setField config.wellFormed hv

@[simp]
theorem Config.fields_set (config : Config) (key : String) (v : Json ℚ) (hv : WellFormed v) :
    (config.set key v hv).fields = setField key v config.fields := rfl

theorem wellFormed_null : WellFormed .null := trivial

theorem wellFormed_num (x : ℚ) : WellFormed (.num x) := trivial

theorem wellFormed_bool (b : Bool) : WellFormed (.bool b) := trivial

theorem Config.ext_lookup {config config' : Config}
    (h : ∀ key, config.fields.lookup key = config'.fields.lookup key) : config = config' := by
  have hfields := eq_of_lookup_eq config.sorted config'.sorted h
  cases config
  cases config'
  cases hfields
  rfl

/-! ### A diff, key by key -/

theorem nodup_allKeys (old new : Fields) : (allKeys old new).Nodup :=
  ((List.perm_insertionSort (· ≤ ·) _).nodup_iff).mpr (List.nodup_dedup _)

/-- Only one key has something, and only if it is in the list. -/
theorem flatMap_eq_of_single {l : List String} (hnodup : l.Nodup) {f : String → List Change}
    {key : String} (hother : ∀ k, k ≠ key → f k = []) (hnotMem : key ∉ l → f key = []) :
    l.flatMap f = f key := by
  by_cases hmem : key ∈ l
  · obtain ⟨before, after, rfl⟩ := List.append_of_mem hmem
    rw [List.nodup_middle, List.nodup_cons, List.mem_append, not_or] at hnodup
    obtain ⟨⟨hbefore, hafter⟩, -⟩ := hnodup
    have hnil : ∀ {part : List String}, key ∉ part → part.flatMap f = [] := by
      intro part hpart
      rw [List.flatMap_eq_nil_iff]
      exact fun k hk => hother k (ne_of_mem_of_not_mem hk hpart)
    rw [List.flatMap_append, List.flatMap_cons, hnil hbefore, hnil hafter, List.append_nil,
      List.nil_append]
  · rw [hnotMem hmem, List.flatMap_eq_nil_iff]
    exact fun k hk => hother k (ne_of_mem_of_not_mem hk hmem)

theorem changesAt_of_lookup_eq {old new : Fields} {key : String}
    (h : new.lookup key = old.lookup key) : changesAt old new key = [] := by
  rw [changesAt, h]
  cases old.lookup key with
  | none => rfl
  | some v => exact if_pos (pythonEq_refl v)

/-- A key of neither has no changes. -/
theorem changesAt_of_notMem {old new : Fields} {key : String} (h : key ∉ allKeys old new) :
    changesAt old new key = [] := by
  have hkeys : key ∉ old.map Prod.fst ++ new.map Prod.fst := by
    rwa [allKeys, (List.perm_insertionSort _ _).mem_iff, List.mem_dedup] at h
  rw [List.mem_append, not_or] at hkeys
  have hold := lookup_eq_none_iff_notMem.mpr hkeys.1
  have hnew := lookup_eq_none_iff_notMem.mpr hkeys.2
  rw [changesAt, hold, hnew]

/-- Two configs that differ at one key only. -/
theorem diffConfigs_of_single {old new : Fields} (key : String)
    (h : ∀ k, k ≠ key → new.lookup k = old.lookup k) :
    diffConfigs old new = changesAt old new key := by
  rw [diffConfigs_eq]
  exact flatMap_eq_of_single (nodup_allKeys old new)
    (fun k hk => changesAt_of_lookup_eq (h k hk)) changesAt_of_notMem

theorem diffConfigs_self (fields : Fields) : diffConfigs fields fields = [] := by
  rw [diffConfigs_eq, List.flatMap_eq_nil_iff]
  exact fun key _ => changesAt_of_lookup_eq rfl

def isObject : Json ℚ → Bool
  | .obj _ => true
  | _ => false

theorem changesAt_of_flat {old new : Fields} {key : String} {oldVal newVal : Json ℚ}
    (hold : old.lookup key = some oldVal) (hflat : isObject oldVal = false)
    (hnew : new.lookup key = some newVal) :
    changesAt old new key =
      if pythonEq oldVal newVal then [] else [⟨key, .modified, oldVal, newVal⟩] := by
  simp only [changesAt, hold, hnew]
  split_ifs
  · rfl
  · cases oldVal with
    | obj fields => cases hflat
    | _ => rfl

/-- Where no value is an object, a change is at its own key. -/
theorem field_of_mem_changesAt {old new : Fields} {key : String}
    (hflat : ∀ v ∈ old.lookup key, isObject v = false) {change : Change}
    (h : change ∈ changesAt old new key) : change.field = key := by
  cases hold : old.lookup key with
  | none =>
    cases hnew : new.lookup key with
    | none => simp [changesAt, hold, hnew] at h
    | some newVal =>
      simp only [changesAt, hold, hnew, List.mem_singleton] at h
      rw [h]
  | some oldVal =>
    cases hnew : new.lookup key with
    | none =>
      simp only [changesAt, hold, hnew, List.mem_singleton] at h
      rw [h]
    | some newVal =>
      rw [changesAt_of_flat hold (hflat oldVal hold) hnew] at h
      split_ifs at h
      · cases h
      · rw [List.mem_singleton.mp h]

/-- The new value at a key, from the old one and the changes there. -/
def restoreAt (oldVal : Option (Json ℚ)) : List Change → Option (Json ℚ)
  | [] => oldVal
  | change :: _ => if change.action = .removed then none else some change.newValue

def restore (old : Fields) (changes : List Change) (key : String) : Option (Json ℚ) :=
  restoreAt (old.lookup key) (changes.filter (·.field = key))

/-- Nothing in the old config hides a change: no value is an object, whose keys run together
with those around it, and Python takes no other value for one in it. -/
def Telling (old : Config) : Prop :=
  ∀ field ∈ old.fields, isObject field.2 = false ∧ Exact field.2

section
variable {old : Config} (htelling : Telling old)
include htelling

theorem Telling.of_lookup {key : String} {v : Json ℚ} (h : v ∈ old.fields.lookup key) :
    isObject v = false ∧ Exact v :=
  htelling (key, v) ((mem_iff_lookup old.sorted).mpr h)

theorem Telling.restoreAt_changesAt (new : Fields) (key : String) :
    restoreAt (old.fields.lookup key) (changesAt old.fields new key) = new.lookup key := by
  cases hold : old.fields.lookup key with
  | none =>
    cases hnew : new.lookup key with
    | none => simp [changesAt, hold, hnew, restoreAt]
    | some newVal => simp [changesAt, hold, hnew, restoreAt]
  | some oldVal =>
    obtain ⟨hflat, hexact⟩ := htelling.of_lookup hold
    cases hnew : new.lookup key with
    | none => simp [changesAt, hold, hnew, restoreAt]
    | some newVal =>
      rw [changesAt_of_flat hold hflat hnew]
      split_ifs with heq
      · rw [restoreAt, eq_of_pythonEq hexact heq]
      · simp [restoreAt]

/-- The new config can be read from the old one and the diff. -/
theorem Telling.restore_diffConfigs (new : Fields) (key : String) :
    restore old.fields (diffConfigs old.fields new) key = new.lookup key := by
  -- the changes with the path are those at the key, for no key has a path below it
  have hfilter : (diffConfigs old.fields new).filter (·.field = key) =
      changesAt old.fields new key := by
    have hown : ∀ k, ∀ change ∈ changesAt old.fields new k, change.field = k := by
      intro k change hchange
      exact field_of_mem_changesAt (fun v hv => (htelling.of_lookup hv).1) hchange
    have hkey : (changesAt old.fields new key).filter (·.field = key) =
        changesAt old.fields new key := by
      rw [List.filter_eq_self]
      exact fun change hchange => decide_eq_true (hown key change hchange)
    rw [diffConfigs_eq, List.filter_flatMap, ← hkey]
    apply flatMap_eq_of_single (nodup_allKeys old.fields new)
    · intro k hk
      rw [List.filter_eq_nil_iff]
      intro change hchange
      rw [hown k change hchange]
      simpa using hk
    · intro hnotMem
      rw [changesAt_of_notMem hnotMem, List.filter_nil]
  rw [restore, hfilter, htelling.restoreAt_changesAt]

end

/-- The diff to a config is empty just if it is the old one, and no two have the same diff. -/
structure Faithful (old : Config) : Prop where
  empty_iff : ∀ new : Config, diffConfigs old.fields new.fields = [] ↔ new = old
  determines : ∀ new new' : Config,
    diffConfigs old.fields new.fields = diffConfigs old.fields new'.fields → new = new'

theorem Telling.faithful {old : Config} (htelling : Telling old) : Faithful old := by
  have hdetermines : ∀ new new' : Config,
      diffConfigs old.fields new.fields = diffConfigs old.fields new'.fields → new = new' := by
    intro new new' hdiff
    apply Config.ext_lookup
    intro key
    rw [← htelling.restore_diffConfigs, hdiff, htelling.restore_diffConfigs]
  refine ⟨?_, hdetermines⟩
  intro new
  constructor
  · intro hnil
    apply hdetermines
    rw [hnil, diffConfigs_self]
  · rintro rfl
    exact diffConfigs_self _

/-! ### What a diff hides -/

/-- A value that Python takes for the old one is no change. -/
theorem Faithful.exact {old : Config} (h : Faithful old) {key : String} {v : Json ℚ}
    (hmem : (key, v) ∈ old.fields) : Exact v := by
  have hlookup := (mem_iff_lookup old.sorted).mp hmem
  have hwf := wellFormed_twin v (wellFormedValues_iff.mp old.wellFormed (key, v) hmem)
  have hnew : ∀ k, (old.set key (twin v) hwf).fields.lookup k =
      if k = key then some (twin v) else old.fields.lookup k :=
    lookup_setField key (twin v) old.fields
  have hnil : diffConfigs old.fields (old.set key (twin v) hwf).fields = [] := by
    rw [diffConfigs_of_single key fun k hk => by rw [hnew, if_neg hk], changesAt, hlookup,
      hnew, if_pos rfl]
    exact if_pos (pythonEq_twin v)
  have hsame := hnew key
  rw [(h.empty_iff _).mp hnil, hlookup, if_pos rfl] at hsame
  exact exact_of_twin_eq v (Option.some.inj hsame).symm

theorem map_fst_eq_of_pythonEqFields : ∀ {fields fields' : Fields},
    pythonEqFields fields fields' = true → fields.map Prod.fst = fields'.map Prod.fst
  | [], [], _ => rfl
  | (key, v) :: fields, (key', v') :: fields', h => by
    rw [pythonEqFields, Bool.and_eq_true, Bool.and_eq_true, beq_iff_eq] at h
    rw [List.map_cons, List.map_cons, map_fst_eq_of_pythonEqFields h.2, h.1.1]

/-- A new field in an object is a change below its key. -/
theorem changesAt_setField {old new : Fields} {key field : String} {inner : Fields}
    (hold : old.lookup key = some (.obj inner)) (hfresh : inner.lookup field = none) (v : Json ℚ)
    (hnew : new.lookup key = some (.obj (setField field v inner))) :
    changesAt old new key = [⟨key ++ "." ++ field, .added, .null, v⟩] := by
  have hne : pythonEq (.obj inner) (.obj (setField field v inner)) = false := by
    rw [pythonEq, Bool.eq_false_iff]
    -- equal objects have the same keys, and the field was none of them
    intro heq
    have hkeys := map_fst_eq_of_pythonEqFields heq
    have hlookup := lookup_setField field v inner field
    rw [if_pos rfl] at hlookup
    obtain ⟨before, after, hsplit, -⟩ := List.lookup_eq_some_iff.mp hlookup
    have hmem : field ∈ inner.map Prod.fst := by
      rw [hkeys, hsplit]
      simp
    exact lookup_eq_none_iff_notMem.mp hfresh hmem
  have hnested : diffConfigs inner (setField field v inner) = [⟨field, .added, .null, v⟩] := by
    rw [diffConfigs_of_single field fun k hk => by rw [lookup_setField, if_neg hk],
      changesAt, hfresh, lookup_setField, if_pos rfl]
  simp only [changesAt, hold, hnew, hne, hnested, Bool.false_eq_true, if_false, List.map_cons,
    List.map_nil]

theorem exists_longer (keys : List String) :
    ∃ text : String, ∀ key ∈ keys, key.length < text.length := by
  refine ⟨String.ofList (List.replicate ((keys.map String.length).sum + 1) 'x'), ?_⟩
  intro key hkey
  have hle := List.single_le_sum (by simp) key.length (List.mem_map_of_mem hkey)
  rw [String.length_ofList, List.length_replicate]
  omega

/-- A field in an object and one with a dot in its key have the same path. -/
theorem Faithful.not_isObject {old : Config} (h : Faithful old) {key : String} {v : Json ℚ}
    (hmem : (key, v) ∈ old.fields) : isObject v = false := by
  cases v with
  | obj inner =>
    exfalso
    have hlookup := (mem_iff_lookup old.sorted).mp hmem
    have hwf : WellFormed (.obj inner) := wellFormedValues_iff.mp old.wellFormed _ hmem
    -- a field whose name is longer than all others is new, and so is its path
    obtain ⟨field, hlonger⟩ := exists_longer ((inner ++ old.fields).map Prod.fst)
    rw [List.map_append] at hlonger
    have hfresh : inner.lookup field = none := by
      rw [lookup_eq_none_iff_notMem]
      intro hfield
      exact absurd (hlonger field (List.mem_append_left _ hfield)) (lt_irrefl _)
    have hpath : old.fields.lookup (key ++ "." ++ field) = none := by
      rw [lookup_eq_none_iff_notMem]
      intro hfield
      have hlt := hlonger _ (List.mem_append_right _ hfield)
      rw [String.length_append] at hlt
      omega
    have hother : key ++ "." ++ field ≠ key := by
      intro heq
      rw [heq, hlookup] at hpath
      cases hpath
    have hinner : WellFormed (.obj (setField field .null inner)) :=
      ⟨sorted_setField field .null hwf.1, wellFormedValues_setField hwf.2 wellFormed_null⟩
    have hbelow : diffConfigs old.fields
        (old.set key (.obj (setField field .null inner)) hinner).fields =
          [⟨key ++ "." ++ field, .added, .null, .null⟩] := by
      rw [Config.fields_set, diffConfigs_of_single key fun k hk => by
        rw [lookup_setField, if_neg hk]]
      apply changesAt_setField hlookup hfresh
      rw [lookup_setField, if_pos rfl]
    have hbeside : diffConfigs old.fields
        (old.set (key ++ "." ++ field) .null wellFormed_null).fields =
          [⟨key ++ "." ++ field, .added, .null, .null⟩] := by
      rw [Config.fields_set, diffConfigs_of_single (key ++ "." ++ field) fun k hk => by
        rw [lookup_setField, if_neg hk], changesAt, hpath, lookup_setField, if_pos rfl]
    have hsame := h.determines _ _ (hbelow.trans hbeside.symm)
    have hboth := congrArg (fun config : Config => config.fields.lookup (key ++ "." ++ field)) hsame
    simp only [Config.fields_set, lookup_setField, if_neg hother, hpath, if_true] at hboth
    cases hboth
  | _ => rfl

/-- A diff tells everything just where nothing in the old config hides a change. -/
theorem faithful_iff (old : Config) : Faithful old ↔ Telling old := by
  constructor
  · rintro h ⟨key, v⟩ hmem
    exact ⟨h.not_isObject hmem, h.exact hmem⟩
  · exact Telling.faithful

/-! ### Two configs -/

def oneField (v : Json ℚ) (hv : WellFormed v) : Config where
  fields := [("a", v)]
  sorted := List.pairwise_singleton _ _
  wellFormed := ⟨hv, trivial⟩

def emptyObject : Config := oneField (.obj []) ⟨List.Pairwise.nil, trivial⟩

def nestedField : Config :=
  oneField (.obj [("b", .num 2)]) ⟨List.pairwise_singleton _ _, trivial, trivial⟩

def dottedField : Config := emptyObject.set "a.b" (.num 2) (wellFormed_num 2)

/-- `{"a": 1}` and `{"a": true}` have no difference. `{"a": {}}` has the same to
`{"a": {"b": 2}}` and to `{"a": {}, "a.b": 2}`. -/
theorem oneField_not_faithful :
    ¬ Faithful (oneField (.num 1) (wellFormed_num 1)) ∧ ¬ Faithful emptyObject := by
  constructor
  · intro h
    have hnil : diffConfigs (oneField (.num 1) (wellFormed_num 1)).fields
        (oneField (.bool true) (wellFormed_bool true)).fields = [] := by
      rw [diffConfigs_eq]
      have hkeys : allKeys (oneField (.num 1) (wellFormed_num 1)).fields
          (oneField (.bool true) (wellFormed_bool true)).fields = ["a"] := by
        decide +kernel
      rw [hkeys]
      decide +kernel
    have hsame := congrArg Config.fields ((h.empty_iff _).mp hnil)
    simp [oneField] at hsame
  · intro h
    have hnested : diffConfigs emptyObject.fields nestedField.fields =
        [⟨"a.b", .added, .null, .num 2⟩] := by
      have hkeys : allKeys emptyObject.fields nestedField.fields = ["a"] := by decide +kernel
      rw [diffConfigs_eq, hkeys, List.flatMap_cons, List.flatMap_nil, List.append_nil]
      have hinner : emptyObject.fields.lookup "a" = some (.obj []) := rfl
      have hnew : nestedField.fields.lookup "a" = some (.obj (setField "b" (.num 2) [])) := rfl
      exact changesAt_setField hinner rfl (.num 2) hnew
    have hdotted : diffConfigs emptyObject.fields dottedField.fields =
        [⟨"a.b", .added, .null, .num 2⟩] := by
      have hkeys : allKeys emptyObject.fields dottedField.fields = ["a", "a.b"] := by
        decide +kernel
      have hsame : dottedField.fields.lookup "a" = emptyObject.fields.lookup "a" := rfl
      rw [diffConfigs_eq, hkeys, List.flatMap_cons, changesAt_of_lookup_eq hsame]
      rfl
    have hsame := congrArg Config.fields (h.determines _ _ (hnested.trans hdotted.symm))
    have hlength := congrArg List.length hsame
    exact absurd hlength (by decide +kernel)

end TradeStream.ConfigDiff
