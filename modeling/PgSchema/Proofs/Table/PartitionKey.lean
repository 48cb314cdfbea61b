/-
# Keys of partitioned tables

The columns that partition a table are part of its primary key.  Those that the declared key lacks
are put behind it, each as often as the partitioning names it; a partitioning that names such a
column twice has it twice in the key.  The audit lets only partition columns of the declared key
through, so for a table without violations nothing is put behind it.

* `Table.effectiveKey_eq_append` : the declared key and what is put behind it;
* `Table.createStatement_effectiveKey` : when the key of a new table is a proper key.
-/
import PgSchema.Proofs.Table.KeyColumn

namespace PgSchema

variable {t : Table} {explicit : Bool}

/-- A partitioning is well-formed if it names some columns, and none of them is blank. -/
theorem Partition.validate_eq_ok_iff {p : Partition} :
    p.validate = .ok () ↔ p.columns ≠ [] ∧ ∀ c ∈ p.columns, Text.allBlank c = false :=
  ColumnList.validate_eq_ok_iff

namespace Table

/-! ## Declared keys -/

/-- The declared key keeps the order of the columns. -/
theorem declaredKey_sublist_columnNames (t : Table) : t.declaredKey.Sublist t.columnNames :=
  List.filter_sublist.map _

theorem declaredKey_nodup (t : Table) : t.declaredKey.Nodup :=
  t.columns_nodup.sublist t.declaredKey_sublist_columnNames

theorem mem_declaredKey_iff {c : Column} (hc : c ∈ t.columns) :
    c.name ∈ t.declaredKey ↔ c.primaryKey = true := by
  constructor
  · intro hmem
    obtain ⟨c', hc', hname⟩ := List.mem_map.1 hmem
    obtain ⟨hcolumn, hflag⟩ := List.mem_filter.1 hc'
    rwa [← List.inj_on_of_nodup_map t.columns_nodup hcolumn hc hname]
  · intro hflag
    exact List.mem_map_of_mem (List.mem_filter.2 ⟨hc, hflag⟩)

/-! ## Folding -/

/-- The columns that partition a table. -/
def partitionColumns (t : Table) : List String := (t.partition.map (·.columns)).getD []

/-- The partition columns that the declared key lacks; without a declared key there are none. -/
def foldedColumns (t : Table) : List String :=
  if t.declaredKey = [] then [] else t.partitionColumns.filter fun c => c ∉ t.declaredKey

theorem effectiveKey_eq_append (t : Table) : t.effectiveKey = t.declaredKey ++ t.foldedColumns := by
  unfold effectiveKey foldedColumns partitionColumns
  cases t.declaredKey with
  | nil => rfl
  | cons c cs => cases t.partition <;> simp

theorem mem_foldedColumns_iff {c : String} :
    c ∈ t.foldedColumns ↔
      t.declaredKey ≠ [] ∧ c ∈ t.partitionColumns ∧ c ∉ t.declaredKey := by
  unfold foldedColumns
  split <;> simp [*]

theorem foldedColumns_nodup_iff :
    t.foldedColumns.Nodup ↔
      (t.declaredKey ≠ [] →
        ∀ c ∈ t.partitionColumns, c ∉ t.declaredKey → t.partitionColumns.count c = 1) := by
  have hcount {c : String} (hne : t.declaredKey ≠ []) (hc : c ∉ t.declaredKey) :
      t.foldedColumns.count c = t.partitionColumns.count c := by
    rw [foldedColumns, if_neg hne, List.count_filter (by simpa using hc)]
  rw [List.nodup_iff_count_eq_one]
  constructor
  · intro hone hne c hmem hc
    rw [← hcount hne hc]
    exact hone c (mem_foldedColumns_iff.2 ⟨hne, hmem, hc⟩)
  · intro hone c hmem
    obtain ⟨hne, hmem, hc⟩ := mem_foldedColumns_iff.1 hmem
    rw [hcount hne hc]
    exact hone hne c hmem hc

/-- What is put behind the declared key is not in it. -/
theorem effectiveKey_nodup_iff : t.effectiveKey.Nodup ↔ t.foldedColumns.Nodup := by
  have hdisjoint : t.declaredKey.Disjoint t.foldedColumns :=
    fun c hc hfolded => (mem_foldedColumns_iff.1 hfolded).2.2 hc
  rw [effectiveKey_eq_append, List.nodup_append', and_iff_right t.declaredKey_nodup,
    and_iff_left hdisjoint]

/-- Where a key is declared, the effective key has every partition column. -/
theorem mem_effectiveKey_of_mem_partitionColumns (hne : t.declaredKey ≠ []) {c : String}
    (hc : c ∈ t.partitionColumns) : c ∈ t.effectiveKey := by
  rw [effectiveKey_eq_append, List.mem_append]
  by_cases hdeclared : c ∈ t.declaredKey
  · exact .inl hdeclared
  · exact .inr (mem_foldedColumns_iff.2 ⟨hne, hc, hdeclared⟩)

/-! ## Partitionings that pass the audit -/

theorem partitionColumnViolations_eq_nil_iff {c : String} (hc : Text.allBlank c = false) :
    t.partitionColumnViolations c = [] ↔ c ∈ t.declaredKey := by
  have hcolumn : c ∈ t.declaredKey → t.hasColumn c = true := fun hmem =>
    List.contains_iff_mem.2 (t.declaredKey_sublist_columnNames.subset hmem)
  rw [partitionColumnViolations, if_neg (by simp [hc])]
  by_cases hmem : c ∈ t.declaredKey
  · simp [hcolumn hmem, hmem, reportIf]
  · split <;> simp [hmem, reportIf]

/-- The audit asks that the declared key has every partition column. -/
theorem mem_declaredKey_of_no_violations (h : t.violations = []) {c : String}
    (hc : c ∈ t.partitionColumns) : c ∈ t.declaredKey := by
  obtain ⟨p, hp, hmem⟩ : ∃ p ∈ t.partition, c ∈ p.columns := by
    unfold partitionColumns at hc
    cases hp : t.partition with
    | none => simp [hp] at hc
    | some p => exact ⟨p, rfl, by simpa [hp] using hc⟩
  obtain ⟨-, -, -, -, hpartition⟩ := violations_eq_nil_iff.1 h
  obtain ⟨hvalidate, hcolumns⟩ := hpartition p hp
  have hblank := (Partition.validate_eq_ok_iff.1 hvalidate).2 c hmem
  exact (partitionColumnViolations_eq_nil_iff hblank).1 (hcolumns c hmem)

/-- Nothing is put behind the key of a table without violations. -/
theorem foldedColumns_of_no_violations (h : t.violations = []) : t.foldedColumns = [] := by
  refine List.eq_nil_iff_forall_not_mem.2 fun c hc => ?_
  obtain ⟨-, hmem, hdeclared⟩ := mem_foldedColumns_iff.1 hc
  exact hdeclared (mem_declaredKey_of_no_violations h hmem)

/-! ## Keys of new tables -/

/-- The key of a new table begins with the flagged columns in declaration order and, if there are
any, has all partition columns; the statement defines this key.  It repeats no column exactly when
the partitioning names no column twice that is not flagged.  For a table without violations it is
the declared key, and that has all partition columns. -/
theorem createStatement_effectiveKey {unlessExists : Bool} {s : Statement}
    (h : t.createStatement unlessExists explicit = .ok s) :
    (t.declaredKey <+: t.effectiveKey ∧ t.declaredKey.Sublist t.columnNames ∧
      ∀ c ∈ t.columns, c.name ∈ t.declaredKey ↔ c.primaryKey = true) ∧
    (t.declaredKey ≠ [] →
      t.effectiveKey ∈ TableElement.keys s.elements ∧
      ∀ c ∈ t.partitionColumns, c ∈ t.effectiveKey) ∧
    (t.effectiveKey.Nodup ↔
      (t.declaredKey ≠ [] →
        ∀ c ∈ t.partitionColumns, c ∉ t.declaredKey → t.partitionColumns.count c = 1)) ∧
    (t.violations = [] →
      t.effectiveKey = t.declaredKey ∧ ∀ c ∈ t.partitionColumns, c ∈ t.effectiveKey) := by
  obtain rfl := eq_of_createStatement_eq_ok h
  refine ⟨⟨?_, t.declaredKey_sublist_columnNames, fun c hc => mem_declaredKey_iff hc⟩,
    fun hne => ⟨?_, fun c hc => mem_effectiveKey_of_mem_partitionColumns hne hc⟩,
    effectiveKey_nodup_iff.trans foldedColumns_nodup_iff, fun hviolations => ?_⟩
  · exact ⟨t.foldedColumns, t.effectiveKey_eq_append.symm⟩
  · exact mem_keys_elements_iff.2 (.inl ⟨rfl, mt effectiveKey_eq_nil_iff.1 hne⟩)
  · have hkey : t.effectiveKey = t.declaredKey := by
      rw [effectiveKey_eq_append, foldedColumns_of_no_violations hviolations, List.append_nil]
    rw [hkey]
    exact ⟨rfl, fun c hc => mem_declaredKey_of_no_violations hviolations hc⟩

end Table

/-- The partition column of the notes comes behind the key, once. -/
theorem effectiveKey_partitionedNotes :
    ∃ s, partitionedNotesTable.createStatement false false = .ok s ∧
      partitionedNotesTable.declaredKey = ["a"] ∧
      partitionedNotesTable.effectiveKey = ["a", "b"] ∧
      partitionedNotesTable.effectiveKey ∈ TableElement.keys s.elements ∧
      partitionedNotesTable.effectiveKey.Nodup := by
  have hcreate : partitionedNotesTable.createStatement false false = .ok _ := rfl
  obtain ⟨-, hkeys, hnodup, -⟩ := Table.createStatement_effectiveKey hcreate
  exact ⟨_, hcreate, rfl, rfl, (hkeys (by decide)).1, hnodup.2 fun _ => by decide⟩

/-- The table of notes, partitioned twice by the column beside the key. -/
def twicePartitionedTable : Table :=
  { notesTable with partition := some { method := .range, columns := ["b", "b"] } }

/-- A column that the partitioning names twice is twice in the key. -/
theorem effectiveKey_twicePartitioned :
    ∃ s, twicePartitionedTable.createStatement false false = .ok s ∧
      twicePartitionedTable.effectiveKey = ["a", "b", "b"] ∧
      ¬ twicePartitionedTable.effectiveKey.Nodup ∧
      s.sql = "CREATE TABLE t (\n  a INTEGER,\n  b INTEGER,\n  PRIMARY KEY (a, b, b)\n) " ++
        "PARTITION BY RANGE (b, b);" := by
  refine ⟨_, rfl, rfl, by decide, ?_⟩
  rw [Statement.sql_of_lines
    [integerLine "a" [], integerLine "b" [], "  PRIMARY KEY (a, b, b)"] rfl,
    integerLine_eq, integerLine_eq]
  decide

end PgSchema
