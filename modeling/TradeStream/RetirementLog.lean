import TradeStream.RowNumber

/-! `repair_duplicate_retirement_logs`: the entries of `retirement_log` that it deletes,
and when the history that is left is complete. -/
namespace TradeStream.RetirementLog
open TradeStream.RowNumber

/-- A row of `retirement_log`. -/
structure LogRow where
  logId : String
  implId : Option String
  specId : Option String
  retirementType : String
  reason : String
  agentReasoning : Option String
  retiredAt : Option ℤ
  canReactivate : Option Bool
  deriving DecidableEq

/-- The table, in the order in which its rows are stored. -/
structure LogTable where
  rows : List LogRow
  primaryKey : (rows.map (·.logId)).Nodup

/-- What an entry is about. -/
inductive Subject where
  | implementation (implId : String)
  | spec (specId : String)
  deriving DecidableEq

def LogRow.subject (row : LogRow) : Option Subject :=
  match row.implId, row.specId with
  | some implId, _ => some (.implementation implId)
  | none, some specId => some (.spec specId)
  | none, none => none

/-- `PARTITION BY impl_id, retirement_type`: the entries without an implementation are one
partition for each type. -/
def partitionKey (row : LogRow) : Option String × String := (row.implId, row.retirementType)

/-- `ORDER BY retired_at DESC`, which puts nulls first. -/
def NoEarlier (first second : LogRow) : Prop :=
  match first.retiredAt, second.retiredAt with
  | none, _ => True
  | some _, none => False
  | some a, some b => b ≤ a

instance : DecidableRel NoEarlier := fun first second => by
  unfold NoEarlier
  cases first.retiredAt with
  | none => exact isTrue trivial
  | some a =>
    cases second.retiredAt with
    | none => exact isFalse id
    | some b => exact inferInstanceAs (Decidable (b ≤ a))

instance : Std.Total NoEarlier where
  total first second := by
    unfold NoEarlier
    cases first.retiredAt <;> cases second.retiredAt <;> simp [le_total]

instance : IsTrans LogRow NoEarlier where
  trans first second third h h' := by
    unfold NoEarlier at *
    cases hfirst : first.retiredAt <;> cases hsecond : second.retiredAt <;>
      cases hthird : third.retiredAt <;> simp_all
    omega

/-- The log ids of the rows with `rn > 1`. -/
def duplicates (rows : List LogRow) : List String :=
  (rows.filter fun row => 1 < rowNumber NoEarlier partitionKey rows row).map (·.logId)

def repairRows (rows : List LogRow) : List LogRow :=
  rows.filter fun row => row.logId ∉ duplicates rows

/-- `repair_duplicate_retirement_logs`. -/
def repairDuplicateRetirementLogs (table : LogTable) : LogTable where
  rows := repairRows table.rows
  primaryKey := table.primaryKey.sublist (List.filter_sublist.map _)

theorem LogTable.nodup (table : LogTable) : table.rows.Nodup := table.primaryKey.of_map _

theorem repairRows_eq_firstRows {rows : List LogRow} (h : (rows.map (·.logId)).Nodup) :
    repairRows rows = firstRows NoEarlier partitionKey rows := by
  rw [repairRows, firstRows]
  apply List.filter_congr
  intro row hrow
  -- a log id is the id of one row only
  have hid : row.logId ∈ duplicates rows ↔ 1 < rowNumber NoEarlier partitionKey rows row := by
    simp only [duplicates, List.mem_map, List.mem_filter, decide_eq_true_eq]
    constructor
    · rintro ⟨other, ⟨hother, hnumber⟩, hid⟩
      rwa [List.inj_on_of_nodup_map h hother hrow hid] at hnumber
    · exact fun hnumber => ⟨row, ⟨hrow, hnumber⟩, rfl⟩
  simp [hid]

/-- The entries of one type about a subject. -/
def entries (rows : List LogRow) (subject : Subject) (retirementType : String) : List LogRow :=
  rows.filter fun row => row.subject = some subject ∧ row.retirementType = retirementType

/-- Of what is known about each subject the most recent entry is left, and a second
repair finds nothing to do, in whatever order the rows are stored then. -/
structure HistoryKept (table : LogTable) : Prop where
  mostRecent : ∀ subject retirementType, entries table.rows subject retirementType ≠ [] →
    ∃ row ∈ entries table.rows subject retirementType,
      entries (repairDuplicateRetirementLogs table).rows subject retirementType = [row] ∧
        ∀ other ∈ entries table.rows subject retirementType, NoEarlier row other
  again : ∀ table' : LogTable,
    table'.rows.Perm (repairDuplicateRetirementLogs table).rows →
      (repairDuplicateRetirementLogs table').rows = table'.rows

/-- What the entries that name no implementation are about: one spec for each type, whose
entry comes before those that name nothing. -/
structure OneSpecPerType (rows : List LogRow) : Prop where
  sameSpec : ∀ a ∈ rows, ∀ b ∈ rows, a.implId = none → b.implId = none →
    a.retirementType = b.retirementType → ∀ specId ∈ a.specId, ∀ specId' ∈ b.specId,
      specId = specId'
  specFirst : ∀ a ∈ rows, ∀ b ∈ rows, a.implId = none → b.implId = none →
    a.retirementType = b.retirementType → a.specId ≠ none → b.specId = none →
      ∃ c ∈ rows, c.implId = none ∧ c.retirementType = a.retirementType ∧ c.specId ≠ none ∧
        Precedes NoEarlier rows c b

/-! ### What is left of a partition -/

section
variable {table : LogTable}

theorem subject_eq_implementation_iff (row : LogRow) (implId : String) :
    row.subject = some (.implementation implId) ↔ row.implId = some implId := by
  obtain ⟨_, rowImpl, rowSpec⟩ := row
  cases rowImpl <;> cases rowSpec <;> simp [LogRow.subject]

theorem subject_eq_spec_iff (row : LogRow) (specId : String) :
    row.subject = some (.spec specId) ↔ row.implId = none ∧ row.specId = some specId := by
  obtain ⟨_, rowImpl, rowSpec⟩ := row
  cases rowImpl <;> cases rowSpec <;> simp [LogRow.subject]

theorem entries_implementation (rows : List LogRow) (implId retirementType : String) :
    entries rows (.implementation implId) retirementType =
      partition partitionKey rows (some implId, retirementType) := by
  apply List.filter_congr
  intro row _
  simp only [subject_eq_implementation_iff, partitionKey, Prod.mk.injEq]

theorem entries_spec (rows : List LogRow) (specId retirementType : String) :
    entries rows (.spec specId) retirementType =
      (partition partitionKey rows (none, retirementType)).filter (·.specId = some specId) := by
  rw [partition, List.filter_filter]
  apply List.filter_congr
  intro row _
  simp only [subject_eq_spec_iff, partitionKey, Prod.mk.injEq, ← Bool.decide_and]
  exact decide_eq_decide.mpr (by tauto)

theorem mem_partition_iff {rows : List LogRow} {row : LogRow} {implId : Option String}
    {retirementType : String} :
    row ∈ partition partitionKey rows (implId, retirementType) ↔
      row ∈ rows ∧ row.implId = implId ∧ row.retirementType = retirementType := by
  simp [partition, partitionKey]

theorem mem_entries_spec_iff {rows : List LogRow} {row : LogRow} {specId retirementType : String} :
    row ∈ entries rows (.spec specId) retirementType ↔
      row ∈ rows ∧ row.implId = none ∧ row.retirementType = retirementType ∧
        row.specId = some specId := by
  rw [entries_spec, List.mem_filter, mem_partition_iff, decide_eq_true_eq, and_assoc, and_assoc]

theorem rows_repair (table : LogTable) :
    (repairDuplicateRetirementLogs table).rows = firstRows NoEarlier partitionKey table.rows :=
  repairRows_eq_firstRows table.primaryKey

theorem partition_repair (k : Option String × String) :
    partition partitionKey (repairDuplicateRetirementLogs table).rows k =
      (firstBy NoEarlier (partition partitionKey table.rows k)).toList := by
  rw [rows_repair]
  exact partition_firstRows NoEarlier partitionKey table.nodup k

theorem repair_again {table' : LogTable}
    (h : table'.rows.Perm (repairDuplicateRetirementLogs table).rows) :
    (repairDuplicateRetirementLogs table').rows = table'.rows := by
  rw [rows_repair] at h ⊢
  exact firstRows_of_perm NoEarlier partitionKey table.nodup h

/-- Of the entries about an implementation the most recent is left, for each type. -/
theorem mostRecent_implementation (implId retirementType : String)
    (h : entries table.rows (.implementation implId) retirementType ≠ []) :
    ∃ row ∈ entries table.rows (.implementation implId) retirementType,
      entries (repairDuplicateRetirementLogs table).rows (.implementation implId)
          retirementType = [row] ∧
        ∀ other ∈ entries table.rows (.implementation implId) retirementType,
          NoEarlier row other := by
  simp only [entries_implementation, partition_repair] at h ⊢
  cases hfirst : firstBy NoEarlier (partition partitionKey table.rows (some implId, retirementType))
      with
  | none => exact absurd ((firstBy_eq_none_iff _ _).mp hfirst) h
  | some row => exact ⟨row, mem_of_firstBy _ hfirst, rfl, fun other => firstBy_rel _ hfirst⟩

/-- The entry that is left of those about specs is about the one spec there is. -/
theorem specId_of_first (hspec : OneSpecPerType table.rows) {specId retirementType : String}
    (h : entries table.rows (.spec specId) retirementType ≠ []) {row : LogRow}
    (hfirst : firstBy NoEarlier (partition partitionKey table.rows (none, retirementType)) =
      some row) : row.specId = some specId := by
  obtain ⟨entry, hentry⟩ := List.exists_mem_of_ne_nil _ h
  obtain ⟨hmem, himpl, htype, hid⟩ := mem_entries_spec_iff.mp hentry
  obtain ⟨hrow, hrowImpl, hrowType⟩ := mem_partition_iff.mp (mem_of_firstBy _ hfirst)
  cases hrowSpec : row.specId with
  | some other =>
    rw [hspec.sameSpec row hrow entry hmem hrowImpl himpl (hrowType.trans htype.symm) other hrowSpec
      specId hid]
  | none =>
    -- an entry that names nothing is not the first one
    obtain ⟨earlier, hearlier, hearlierImpl, hearlierType, -, hprecedes⟩ :=
      hspec.specFirst entry hmem row hrow himpl hrowImpl (htype.trans hrowType.symm)
        (by rw [hid]; exact Option.some_ne_none _) hrowSpec
    have hearlierMem : earlier ∈ partition partitionKey table.rows (none, retirementType) :=
      mem_partition_iff.mpr ⟨hearlier, hearlierImpl, hearlierType.trans htype⟩
    refine absurd ?_ (not_precedes_firstBy NoEarlier (table.nodup.filter _) hearlierMem hfirst)
    apply (precedes_filter_iff _ _ _ _).mpr hprecedes
    · exact (List.mem_filter.mp hearlierMem).2
    · exact (List.mem_filter.mp (mem_of_firstBy _ hfirst)).2

theorem mostRecent_spec (hspec : OneSpecPerType table.rows) (specId retirementType : String)
    (h : entries table.rows (.spec specId) retirementType ≠ []) :
    ∃ row ∈ entries table.rows (.spec specId) retirementType,
      entries (repairDuplicateRetirementLogs table).rows (.spec specId) retirementType = [row] ∧
        ∀ other ∈ entries table.rows (.spec specId) retirementType, NoEarlier row other := by
  cases hfirst : firstBy NoEarlier (partition partitionKey table.rows (none, retirementType)) with
  | none =>
    rw [entries_spec, (firstBy_eq_none_iff _ _).mp hfirst] at h
    exact absurd rfl h
  | some row =>
    have hid := specId_of_first hspec h hfirst
    obtain ⟨hrow, himpl, htype⟩ := mem_partition_iff.mp (mem_of_firstBy _ hfirst)
    refine ⟨row, mem_entries_spec_iff.mpr ⟨hrow, himpl, htype, hid⟩, ?_, ?_⟩
    · rw [entries_spec, partition_repair, hfirst, Option.toList_some,
        List.filter_cons_of_pos (by simpa using hid), List.filter_nil]
    · intro other hother
      rw [entries_spec] at hother
      exact firstBy_rel _ hfirst (List.mem_filter.mp hother).1

/-- What is left of the entries about a spec is the first of all that name no
implementation. -/
theorem first_of_entries_spec {specId retirementType : String} {row : LogRow}
    (h : entries (repairDuplicateRetirementLogs table).rows (.spec specId) retirementType =
      [row]) :
    firstBy NoEarlier (partition partitionKey table.rows (none, retirementType)) = some row ∧
      row.specId = some specId := by
  have hmem : row ∈ (partition partitionKey (repairDuplicateRetirementLogs table).rows
      (none, retirementType)).filter (·.specId = some specId) := by
    rw [← entries_spec, h]
    exact List.mem_singleton_self row
  obtain ⟨hmem, hid⟩ := List.mem_filter.mp hmem
  rw [partition_repair, Option.mem_toList] at hmem
  exact ⟨hmem, of_decide_eq_true hid⟩

theorem oneSpecPerType_of_historyKept (h : HistoryKept table) : OneSpecPerType table.rows := by
  have hfirst : ∀ a ∈ table.rows, a.implId = none → ∀ specId ∈ a.specId, ∃ row,
      firstBy NoEarlier (partition partitionKey table.rows (none, a.retirementType)) = some row ∧
        row.specId = some specId := by
    intro a ha himpl specId hid
    have hentry : a ∈ entries table.rows (.spec specId) a.retirementType :=
      mem_entries_spec_iff.mpr ⟨ha, himpl, rfl, hid⟩
    obtain ⟨row, -, hleft, -⟩ := h.mostRecent _ _ (List.ne_nil_of_mem hentry)
    exact ⟨row, first_of_entries_spec hleft⟩
  constructor
  case sameSpec =>
    intro a ha b hb himpl himpl' htype specId hid specId' hid'
    obtain ⟨row, hrow, hrowSpec⟩ := hfirst a ha himpl specId hid
    obtain ⟨row', hrow', hrowSpec'⟩ := hfirst b hb himpl' specId' hid'
    rw [htype, hrow'] at hrow
    rw [← Option.some.inj hrow, hrowSpec'] at hrowSpec
    exact (Option.some.inj hrowSpec).symm
  case specFirst =>
    intro a ha b hb himpl himpl' htype hspec hnone
    obtain ⟨specId, hid⟩ := Option.ne_none_iff_exists'.mp hspec
    obtain ⟨row, hrow, hrowSpec⟩ := hfirst a ha himpl specId hid
    obtain ⟨hmem, hrowImpl, hrowType⟩ := mem_partition_iff.mp (mem_of_firstBy _ hrow)
    have hb' : b ∈ partition partitionKey table.rows (none, a.retirementType) :=
      mem_partition_iff.mpr ⟨hb, himpl', htype.symm⟩
    have hne : b ≠ row := by
      rintro rfl
      rw [hnone] at hrowSpec
      cases hrowSpec
    refine ⟨row, hmem, hrowImpl, hrowType, by rw [hrowSpec]; exact Option.some_ne_none _, ?_⟩
    apply (precedes_filter_iff _ _ _ _).mp (precedes_of_firstBy _ hrow hb' hne)
    · exact (List.mem_filter.mp (mem_of_firstBy _ hrow)).2
    · exact (List.mem_filter.mp hb').2

/-- The repair keeps the history of every subject exactly if the entries without an
implementation are, for each type, about one spec. -/
theorem historyKept_iff_oneSpecPerType (table : LogTable) :
    HistoryKept table ↔ OneSpecPerType table.rows := by
  constructor
  · exact oneSpecPerType_of_historyKept
  · intro h
    constructor
    · intro subject retirementType hne
      cases subject with
      | implementation implId => exact mostRecent_implementation implId retirementType hne
      | spec specId => exact mostRecent_spec h specId retirementType hne
    · exact fun table' hperm => repair_again hperm

end

def retiredSpec (logId specId : String) (retiredAt : ℤ) : LogRow where
  logId := logId
  implId := none
  specId := some specId
  retirementType := "spec"
  reason := "no implementation left"
  agentReasoning := none
  retiredAt := some retiredAt
  canReactivate := some true

/-- Two specs, each retired once. -/
def twoRetiredSpecs : LogTable where
  rows := [retiredSpec "l1" "a" 1, retiredSpec "l2" "b" 2]
  primaryKey := by decide

theorem history_of_a_retired_spec_lost : ¬ HistoryKept twoRetiredSpecs := by
  intro h
  have hspec := (oneSpecPerType_of_historyKept h).sameSpec
    (retiredSpec "l1" "a" 1) (by simp [twoRetiredSpecs]) (retiredSpec "l2" "b" 2)
    (by simp [twoRetiredSpecs]) rfl rfl rfl "a" rfl "b" rfl
  exact absurd hspec (by decide)

end TradeStream.RetirementLog
