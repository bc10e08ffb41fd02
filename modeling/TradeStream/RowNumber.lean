import Mathlib

/-! `ROW_NUMBER() OVER (PARTITION BY .. ORDER BY ..)` over the rows of a table, in the
order in which they are stored: rows that the order does not tell apart are numbered in
that order. -/
namespace TradeStream.RowNumber

variable {α κ : Type*}

section
variable (r : α → α → Prop) [DecidableRel r]

/-- The row that the order puts first. -/
def firstBy (rows : List α) : Option α := (rows.insertionSort r).head?

/-- `x` comes before `y` in the order, or is stored before it and no later in the order. -/
def Precedes (rows : List α) (x y : α) : Prop := ¬ r y x ∨ r x y ∧ [x, y].Sublist rows

omit [DecidableRel r] in
theorem precedes_filter_iff {rows : List α} (p : α → Bool) {x y : α} (hx : p x = true)
    (hy : p y = true) : Precedes r (rows.filter p) x y ↔ Precedes r rows x y := by
  refine or_congr_right (and_congr_right fun _ => ?_)
  refine ⟨fun h => h.trans List.filter_sublist, fun h => ?_⟩
  simpa [hx, hy] using h.filter p

theorem firstBy_cons (a : α) (rows : List α) :
    firstBy r (a :: rows) =
      match firstBy r rows with
      | none => some a
      | some b => if r a b then some a else some b := by
  rw [firstBy, firstBy, List.insertionSort_cons]
  cases rows.insertionSort r with
  | nil => rfl
  | cons b sorted =>
    rw [List.orderedInsert_cons]
    by_cases h : r a b
    · simp [h]
    · simp [h]

theorem firstBy_eq_none_iff (rows : List α) : firstBy r rows = none ↔ rows = [] := by
  rw [firstBy, List.head?_eq_none_iff, ← List.length_eq_zero_iff, List.length_insertionSort,
    List.length_eq_zero_iff]

theorem mem_of_firstBy {rows : List α} {x : α} (h : firstBy r rows = some x) : x ∈ rows :=
  (List.mem_insertionSort r).mp (List.mem_of_mem_head? (Option.mem_def.mpr h))

variable [Std.Total r] [IsTrans α r]

/-- The row that is first comes strictly before those stored before it, and no later than
those stored after it. -/
theorem firstBy_eq_some {rows : List α} {x : α} (h : firstBy r rows = some x) :
    ∃ before after, rows = before ++ x :: after ∧ (∀ y ∈ before, ¬ r y x) ∧ ∀ y ∈ after, r x y := by
  induction rows generalizing x with
  | nil => cases h
  | cons a rows ih =>
    rw [firstBy_cons] at h
    cases hrest : firstBy r rows with
    | none =>
      rw [hrest] at h
      obtain rfl := Option.some.inj h
      rw [(firstBy_eq_none_iff r rows).mp hrest]
      exact ⟨[], [], by simp⟩
    | some b =>
      obtain ⟨before, after, hrows, hbefore, hafter⟩ := ih hrest
      rw [hrest] at h
      by_cases hab : r a b
      · simp only [hab, if_true, Option.some.injEq] at h
        subst h
        refine ⟨[], rows, rfl, by simp, ?_⟩
        -- what is no earlier than `b` is no earlier than `a`
        intro y hy
        rw [hrows, List.mem_append, List.mem_cons] at hy
        rcases hy with hy | rfl | hy
        · have hby := (Std.Total.total (r := r) b y).resolve_right (hbefore y hy)
          exact IsTrans.trans _ _ _ hab hby
        · exact hab
        · exact IsTrans.trans _ _ _ hab (hafter y hy)
      · simp only [hab, if_false, Option.some.injEq] at h
        subst h
        refine ⟨a :: before, after, by rw [hrows, List.cons_append], ?_, hafter⟩
        intro y hy
        rcases List.mem_cons.mp hy with rfl | hy
        · exact hab
        · exact hbefore y hy

theorem precedes_of_firstBy {rows : List α} {x y : α} (h : firstBy r rows = some x) (hy : y ∈ rows)
    (hne : y ≠ x) : Precedes r rows x y := by
  obtain ⟨before, after, rfl, hbefore, hafter⟩ := firstBy_eq_some r h
  rw [List.mem_append, List.mem_cons] at hy
  rcases hy with hy | rfl | hy
  · exact Or.inl (hbefore y hy)
  · exact absurd rfl hne
  · refine Or.inr ⟨hafter y hy, ?_⟩
    exact ((List.singleton_sublist.mpr hy).cons_cons x).trans (List.sublist_append_right _ _)

theorem firstBy_rel {rows : List α} {x y : α} (h : firstBy r rows = some x) (hy : y ∈ rows) :
    r x y := by
  obtain ⟨before, after, rfl, hbefore, hafter⟩ := firstBy_eq_some r h
  rw [List.mem_append, List.mem_cons] at hy
  rcases hy with hy | rfl | hy
  · exact (Std.Total.total (r := r) x y).resolve_right (hbefore y hy)
  · exact (Std.Total.total (r := r) y y).elim id id
  · exact hafter y hy

/-- Nothing precedes the first row. -/
theorem not_precedes_firstBy {rows : List α} (hnodup : rows.Nodup) {x y : α} (hx : x ∈ rows)
    (h : firstBy r rows = some y) : ¬ Precedes r rows x y := by
  obtain ⟨before, after, rfl, hbefore, hafter⟩ := firstBy_eq_some r h
  have hrefl : r y y := (Std.Total.total (r := r) y y).elim id id
  rw [List.mem_append, List.mem_cons] at hx
  rintro (hlater | ⟨hle, hstored⟩)
  · rcases hx with hx | rfl | hx
    · exact hlater ((Std.Total.total (r := r) x y).resolve_left (hbefore x hx))
    · exact hlater hrefl
    · exact hlater (hafter x hx)
  · -- with every row stored once, `x` stands before `y` only among the first ones
    rw [List.sublist_append_iff] at hstored
    obtain ⟨stored, rest, hsplit, hstored, hrest⟩ := hstored
    cases stored with
    | cons first stored =>
      obtain rfl := (List.cons.inj hsplit).1
      exact hbefore x (hstored.subset (by simp)) hle
    | nil =>
      rw [List.nil_append] at hsplit
      subst hsplit
      have hnotin : y ∉ after := (List.nodup_cons.mp (List.nodup_append.mp hnodup).2.1).1
      rcases List.sublist_cons_iff.mp hrest with hrest | ⟨_, hxy, hrest⟩
      · exact hnotin (hrest.subset (by simp))
      · obtain ⟨-, rfl⟩ := List.cons.inj hxy
        exact hnotin (hrest.subset (by simp))

end

section
variable [DecidableEq α] [DecidableEq κ] (r : α → α → Prop) [DecidableRel r] (key : α → κ)

/-- The rows of a partition, in the order in which they are stored. -/
def partition (rows : List α) (k : κ) : List α := rows.filter (key · = k)

def rowNumber (rows : List α) (row : α) : ℕ :=
  ((partition key rows (key row)).insertionSort r).idxOf row + 1

/-- The rows that are not a second or later one of their partition. -/
def firstRows (rows : List α) : List α := rows.filter fun row => ¬ 1 < rowNumber r key rows row

variable {key}

omit [DecidableEq α] in
theorem mem_partition_self {rows : List α} {row : α} (h : row ∈ rows) :
    row ∈ partition key rows (key row) := by
  simpa [partition] using h

variable (key)

theorem not_one_lt_rowNumber_iff {rows : List α} {row : α} (h : row ∈ rows) :
    ¬ 1 < rowNumber r key rows row ↔ firstBy r (partition key rows (key row)) = some row := by
  have hmem : row ∈ (partition key rows (key row)).insertionSort r :=
    (List.mem_insertionSort r).mpr (mem_partition_self h)
  rw [rowNumber, firstBy]
  cases hsorted : (partition key rows (key row)).insertionSort r with
  | nil => simp [hsorted] at hmem
  | cons first rest =>
    rw [List.head?_cons, Option.some.injEq]
    by_cases hfirst : first = row
    · simp [hfirst]
    · simp [List.idxOf_cons_ne _ hfirst, hfirst]

/-- Of each partition one row is left, the first. -/
theorem partition_firstRows {rows : List α} (hnodup : rows.Nodup) (k : κ) :
    partition key (firstRows r key rows) k = (firstBy r (partition key rows k)).toList := by
  have hfilter : partition key (firstRows r key rows) k =
      rows.filter fun row => firstBy r (partition key rows k) = some row := by
    rw [partition, firstRows, List.filter_filter]
    apply List.filter_congr
    intro row hrow
    have hnumber := not_one_lt_rowNumber_iff r key hrow
    rw [Bool.eq_iff_iff, Bool.and_eq_true, decide_eq_true_eq, decide_eq_true_eq, decide_eq_true_eq,
      hnumber]
    constructor
    · rintro ⟨rfl, hfirst⟩
      exact hfirst
    · intro hfirst
      have hkey : key row = k := by
        simpa [partition] using (List.mem_filter.mp (mem_of_firstBy r hfirst)).2
      subst hkey
      exact ⟨rfl, hfirst⟩
  rw [hfilter]
  cases hfirst : firstBy r (partition key rows k) with
  | none => simp
  | some first =>
    have hmem : first ∈ rows := (List.mem_filter.mp (mem_of_firstBy r hfirst)).1
    simp only [Option.some.injEq, Option.toList_some, @eq_comm _ first]
    rw [List.filter_eq, List.count_eq_one_of_mem hnodup hmem, List.replicate_one]

/-- Once only first rows are left, all of them are first rows, however they are stored. -/
theorem firstRows_of_perm {rows rows' : List α} (hnodup : rows.Nodup)
    (h : rows'.Perm (firstRows r key rows)) : firstRows r key rows' = rows' := by
  rw [firstRows, List.filter_eq_self]
  intro row hrow
  have hpartition : (partition key rows' (key row)).Perm
      (firstBy r (partition key rows (key row))).toList := by
    rw [← partition_firstRows r key hnodup]
    exact h.filter _
  -- the row is in a partition with one row at most, so it is the first
  have hself : row ∈ partition key rows' (key row) := mem_partition_self hrow
  have hmem := hpartition.subset hself
  rw [Option.mem_toList] at hmem
  rw [hmem, Option.toList_some, List.perm_singleton] at hpartition
  rw [decide_eq_true_eq, not_one_lt_rowNumber_iff r key hrow, hpartition]
  rfl

end

end TradeStream.RowNumber
