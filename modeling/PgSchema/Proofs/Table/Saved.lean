/-
# Tables are read back

A table written in full is read back as it was.  Written without the fields that have their
default, it is read back exactly when it has no tagged parts: the tag of a constraint, a
partitioning or a rule is itself a default, so it is left out and the part cannot be read.

* `Table.load_full_table` : a table is read back as it was written in full;
* `Table.load_brief_table_iff` : when a table written briefly is read back.
-/
import PgSchema.Proofs.SqlType.Saved
import PgSchema.Proofs.Table.Parts
import PgSchema.Proofs.ValueRule.Saved

namespace PgSchema

variable {style : Style}

/-! ## Columns -/

namespace Column

theorem writing (h : style ≠ .internal) (c : Column) : Writing style fields (c.written style) :=
  ⟨h, rfl, by decide⟩

/-- A column is read back if its rules are. -/
theorem load_save (h : style ≠ .internal) (c : Column)
    (hrules : ValueRule.loadList (.list (ValueRule.saveParts style c.rules)) = .ok c.rules) :
    load (c.save style) = .ok c := by
  have hw := writing h c
  rw [save, load, hw.asRecord_eq, hw.name_eq_ok c.name c.name_nonempty (by simp [written]),
    hw.required_eq_ok c.type (SqlType.isNull_save _) (SqlType.load_save h _) (by simp [written]),
    hw.flag_eq_ok c.nullable (by simp [written]), hw.flag_eq_ok c.primaryKey (by simp [written]),
    hw.flag_eq_ok c.unique (by simp [written]),
    hw.nullable_eq_ok c.default (·.save style) (fun _ _ => rfl)
      (fun d _ => DefaultValue.load_save h d) (by simp [written]),
    hw.list_eq_ok c.conditions rfl (Loading.oneOrMoreTexts_ofTexts _) (by simp [written]),
    hw.list_eq_ok c.rules rfl hrules (by simp [written]),
    hw.text?_eq_ok c.collation (by simp [written]), hw.text?_eq_ok c.comment (by simp [written])]
  rfl

theorem load_save_full (c : Column) : load (c.save .full) = .ok c :=
  load_save (by decide) c (ValueRule.loadItems_saveParts c.rules 0)

/-- A column with rules is not read from its brief record. -/
theorem rules_eq_nil_of_load_save_brief {c c' : Column} (h : load (c.save .brief) = .ok c') :
    c.rules = [] := by
  have hw : Writing .brief fields (c.written .brief) := writing (by decide) c
  rw [save, load, hw.asRecord_eq] at h
  obtain ⟨_, _, h, -, -⟩ := Checked.seq_eq_ok_iff.1 h
  obtain ⟨_, _, h, -, -⟩ := Checked.seq_eq_ok_iff.1 h
  obtain ⟨_, rules, -, h, -⟩ := Checked.seq_eq_ok_iff.1 h
  cases hrules : c.rules with
  | nil => rfl
  | cons rule others =>
    have hlist : ValueRule.loadList (.list (ValueRule.saveParts .brief c.rules)) = .ok rules :=
      hw.read_eq_ok_of_optional (w := ⟨rulesField, _, c.rules.isEmpty⟩) (by simp [written])
        (by simp [Style.keeps, Document.isNull, hrules]) h
    rw [hrules, ValueRule.loadList, ValueRule.saveParts, ValueRule.loadItems,
      ValueRule.load_save_brief] at hlist
    obtain ⟨_, _, hfirst, -, -⟩ := Checked.seq_eq_ok_iff.1 hlist
    cases hfirst

/-- A column is read back from its brief record exactly when it has no rules. -/
theorem load_save_brief_iff {c c' : Column} :
    load (c.save .brief) = .ok c' ↔ c.rules = [] ∧ c' = c := by
  have hload (hrules : c.rules = []) : load (c.save .brief) = .ok c :=
    load_save (by decide) c (by rw [hrules]; rfl)
  constructor
  · intro h
    have hrules := rules_eq_nil_of_load_save_brief h
    rw [hload hrules, Checked.ok.injEq] at h
    exact ⟨hrules, h.symm⟩
  · rintro ⟨hrules, rfl⟩
    exact hload hrules

end Column

/-! ## Tables -/

namespace Table

theorem writing (h : style ≠ .internal) (t : Table) : Writing style fields (t.written style) :=
  ⟨h, rfl, by decide⟩

theorem distinctColumns_columns (t : Table) :
    distinctColumns t.columns = .ok ⟨t.columns, t.columns_nodup⟩ :=
  dif_pos t.columns_nodup

/-- A table is read back if its columns and its tagged parts are. -/
theorem load_save (h : style ≠ .internal) (t : Table)
    (hcolumns : ∀ c ∈ t.columns, Column.load (c.save style) = .ok c)
    (hconstraints : ∀ c ∈ t.constraints, Constraint.load (c.save style) = .ok c)
    (hpartition : ∀ p ∈ t.partition, Partition.load (p.save style) = .ok p) :
    load (t.save style) = .ok t := by
  have hw := writing h t
  -- columns are read with a check that their names are distinct, which a table carries with it
  have hdistinct : (Loading.list Column.load (.list (t.columns.map (·.save style)))).andThen
      distinctColumns = .ok ⟨t.columns, t.columns_nodup⟩ := by
    rw [Loading.list_map_eq_ok hcolumns, Checked.ok_andThen, distinctColumns_columns]
  have hcolumns : (style.entries (t.written style)).optional columnsField ⟨[], by simp⟩ (fun d =>
      (Loading.list Column.load d).andThen distinctColumns) =
        .ok ⟨t.columns, t.columns_nodup⟩ :=
    hw.optional_eq_ok (w := ⟨columnsField, .list (t.columns.map (·.save style)),
      t.columns.isEmpty⟩) (by simp [written]) rfl
      (fun hempty => Subtype.ext (List.isEmpty_iff.1 hempty)) hdistinct
  rw [save, load, hw.asRecord_eq, hw.name_eq_ok t.name t.name_nonempty (by simp [written]),
    hcolumns,
    hw.list_eq_ok t.indexes rfl (Loading.list_map_eq_ok fun i _ => Index.load_save h i)
      (by simp [written]),
    hw.list_eq_ok t.policies rfl (Loading.list_map_eq_ok fun p _ => Policy.load_save h p)
      (by simp [written]),
    hw.list_eq_ok t.foreignKeys rfl (Loading.list_map_eq_ok fun k _ => ForeignKey.load_save h k)
      (by simp [written]),
    hw.list_eq_ok t.constraints rfl (Loading.list_map_eq_ok hconstraints) (by simp [written]),
    hw.text?_eq_ok t.comment (by simp [written]), hw.flag_eq_ok t.rowSecurity (by simp [written]),
    hw.nullable_eq_ok t.partition (·.save style) (fun _ _ => rfl) hpartition (by simp [written])]
  rfl

/-- A table is read back as it was written in full. -/
theorem load_full_table (t : Table) : load (t.save .full) = .ok t :=
  load_save (by decide) t (fun c _ => Column.load_save_full c)
    (fun c _ => Constraint.load_save_full c) fun p _ => Partition.load_save_full p

/-- Holds for a table without the parts that are read by their tag. -/
structure IsUntagged (t : Table) : Prop where
  constraints : t.constraints = []
  partition : t.partition = none
  rules : ∀ c ∈ t.columns, c.rules = []

instance (t : Table) : Decidable t.IsUntagged :=
  decidable_of_iff (t.constraints = [] ∧ t.partition = none ∧ ∀ c ∈ t.columns, c.rules.isEmpty)
    ⟨fun h => ⟨h.1, h.2.1, fun c hc => List.isEmpty_iff.1 (h.2.2 c hc)⟩,
      fun h => ⟨h.constraints, h.partition, fun c hc => List.isEmpty_iff.2 (h.rules c hc)⟩⟩

theorem isUntagged_of_load_save_brief {t t' : Table} (h : load (t.save .brief) = .ok t') :
    t.IsUntagged := by
  have hw : Writing .brief fields (t.written .brief) := writing (by decide) t
  rw [save, load, hw.asRecord_eq] at h
  -- The fields are peeled off from the last to the first.
  obtain ⟨_, _, h, hpartition, -⟩ := Checked.seq_eq_ok_iff.1 h
  obtain ⟨_, _, h, -, -⟩ := Checked.seq_eq_ok_iff.1 h
  obtain ⟨_, _, h, -, -⟩ := Checked.seq_eq_ok_iff.1 h
  obtain ⟨_, _, h, hconstraints, -⟩ := Checked.seq_eq_ok_iff.1 h
  obtain ⟨_, _, h, -, -⟩ := Checked.seq_eq_ok_iff.1 h
  obtain ⟨_, _, h, -, -⟩ := Checked.seq_eq_ok_iff.1 h
  obtain ⟨_, _, h, -, -⟩ := Checked.seq_eq_ok_iff.1 h
  obtain ⟨_, _, -, hcolumns, -⟩ := Checked.seq_eq_ok_iff.1 h
  refine ⟨?_, ?_, fun c hc => ?_⟩
  · cases hsome : t.constraints with
    | nil => rfl
    | cons c others =>
      have hlist := hw.read_eq_ok_of_optional (w := ⟨constraintsField,
        .list (t.constraints.map (·.save .brief)), t.constraints.isEmpty⟩) (by simp [written])
        (by simp [Style.keeps, Document.isNull, hsome]) hconstraints
      obtain ⟨c', hread⟩ := Loading.exists_read_of_itemsFrom hlist (c.save .brief) (by simp [hsome])
      rw [Constraint.load_save_brief] at hread
      cases hread
  · cases hsome : t.partition with
    | none => rfl
    | some p =>
      have hread := hw.read_eq_ok_of_optional (w := ⟨partitionField,
        (t.partition.map (·.save .brief)).getD .null, t.partition.isNone⟩) (by simp [written])
        (by simp [Style.keeps, Document.isNull, Partition.save, Style.record, hsome]) hpartition
      rw [hsome] at hread
      change some <$> Partition.load (p.save .brief) = _ at hread
      rw [Partition.load_save_brief] at hread
      cases hread
  · have hsome : t.columns.isEmpty = false := List.isEmpty_eq_false_iff.2 (List.ne_nil_of_mem hc)
    have hlist := hw.read_eq_ok_of_optional (w := ⟨columnsField,
      .list (t.columns.map (·.save .brief)), t.columns.isEmpty⟩) (by simp [written])
      (by simp [Style.keeps, Document.isNull, hsome]) hcolumns
    obtain ⟨columns, hlist, -⟩ := Checked.andThen_eq_ok_iff.1 hlist
    obtain ⟨c', hread⟩ := Loading.exists_read_of_itemsFrom hlist _ (List.mem_map_of_mem hc)
    exact Column.rules_eq_nil_of_load_save_brief hread

/-- A table is read back from its brief record exactly when nothing in it is tagged. -/
theorem load_brief_table_iff {t t' : Table} :
    load (t.save .brief) = .ok t' ↔ t.IsUntagged ∧ t' = t := by
  have hload (h : t.IsUntagged) : load (t.save .brief) = .ok t :=
    load_save (by decide) t (fun c hc => Column.load_save_brief_iff.2 ⟨h.rules c hc, rfl⟩)
      (by simp [h.constraints]) (by simp [h.partition])
  constructor
  · intro h
    have huntagged := isUntagged_of_load_save_brief h
    rw [hload huntagged, Checked.ok.injEq] at h
    exact ⟨huntagged, h.symm⟩
  · rintro ⟨huntagged, rfl⟩
    exact hload huntagged

/-- A table with nothing but a unique constraint. -/
def uniqueOnly : Table where
  name := "t"
  columns := []
  indexes := []
  policies := []
  foreignKeys := []
  constraints := [⟨"u", .unique ["a"], none⟩]
  comment := none
  rowSecurity := false
  partition := none
  name_nonempty := by decide
  columns_nodup := List.nodup_nil

/-- The tag of the only constraint is missed. -/
theorem load_save_brief_uniqueOnly :
    load (uniqueOnly.save .brief) =
      .failed (.faults [⟨[.key "constraints", .position 0], .tagMissing⟩]) := by
  rfl

end Table
end PgSchema
