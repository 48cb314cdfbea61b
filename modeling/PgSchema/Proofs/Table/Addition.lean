/-
# Columns that are added later

A table that is there already gets its columns by statements of their own, one for each column or
one block for all of them.  A column that is not flagged as key is defined there by the very text
that defines it in the body of a new table, so that a table that is upgraded has the columns of one
that is created.  The flagged columns are never added.

* `Column.definition_of_outside` : a column that is not flagged has one definition;
* `Table.createStatement_addColumns` : the columns of a new table and those that are added.
-/
import PgSchema.Proofs.Catalogue
import PgSchema.Proofs.Table.KeyColumn

namespace PgSchema

variable {t : Table} {explicit : Bool}

/-! ## Definitions -/

/-- The definition of a column that is not flagged does not depend on where keys are written. -/
theorem Column.definition_of_outside {c : Column} (h : c.primaryKey = false)
    (inline inline' : Bool) :
    c.definition inline explicit = c.definition inline' explicit := by
  simp only [definition, clauses, h, Bool.false_and]

namespace Table

/-- The columns that are not flagged as key, in declaration order. -/
def outsideColumns (t : Table) : List Column := t.columns.filter fun c => !c.primaryKey

theorem mem_outsideColumns_iff {c : Column} :
    c ∈ t.outsideColumns ↔ c ∈ t.columns ∧ c.primaryKey = false := by
  simp [outsideColumns, List.mem_filter]

theorem outsideColumns_nodup (t : Table) : (t.outsideColumns.map (·.name)).Nodup :=
  t.columns_nodup.sublist (List.filter_sublist.map _)

/-- What is added of a column is what a new table says of it. -/
theorem addableColumns_eq (t : Table) (explicit : Bool) :
    t.addableColumns explicit = t.outsideColumns.map (t.definitionOf explicit) :=
  List.map_congr_left fun _ hc =>
    Column.definition_of_outside (mem_outsideColumns_iff.1 hc).2 _ _

/-! ## Bodies -/

/-- A body begins with the columns, in declaration order; there are no others in it. -/
theorem exists_elements_eq_append (t : Table) (explicit : Bool) :
    ∃ others, (∀ d, .column d ∉ others) ∧
      t.elements explicit =
        (t.columns.map fun c => .column (t.definitionOf explicit c)) ++ others := by
  refine ⟨t.constraints.map .constraint ++
    if t.hasCompositeEffectiveKey then [.primaryKey t.effectiveKey] else [], fun d => ?_, ?_⟩
  · split <;> simp
  · rw [elements, List.append_assoc]
    rfl

/-! ## Blocks -/

theorem addMissing_of_ne_nil (t : Table) {additions : List Addition} (h : additions ≠ []) :
    t.addMissing additions = [.addMissing t.name additions] := by
  rw [addMissing, if_neg (by simpa using h)]

theorem guards_addMissing (t : Table) (additions : List Addition) :
    Script.guards (t.addMissing additions) =
      additions.map fun a => (a.query t.name, a.sql t.name) := by
  cases additions with
  | nil => rfl
  | cons a additions =>
    rw [addMissing_of_ne_nil t (List.cons_ne_nil a additions), Script.guards,
      List.flatMap_singleton, Statement.guards]

theorem sql_addMissing (t : Table) (additions : List Addition) :
    (t.addMissing additions).map (·.sql) =
      if additions = [] then []
      else [Sql.guardedBlock (Script.guards (t.addMissing additions))] := by
  rw [guards_addMissing]
  split
  · next hnil =>
    rw [hnil]
    rfl
  · next hne =>
    rw [addMissing_of_ne_nil t hne]
    rfl

/-! ## Created and added columns -/

/-- The body of a new table begins with the definitions of its columns, one to a line.  Each column
that is not flagged as key is added by the same definition, once and in the same order: by a
statement of its own that looks whether the column exists, and by a guarded statement of one block
that does not look itself. -/
theorem createStatement_addColumns {unlessExists : Bool} {s : Statement}
    (h : t.createStatement unlessExists explicit = .ok s) :
    (∃ others, (∀ d, TableElement.column d ∉ others) ∧
      s.elements = (t.columns.map fun c => .column (t.definitionOf explicit c)) ++ others ∧
      s.sql = Statement.beforeBody t.name unlessExists ++
        ("\n" ++ ",\n".intercalate
          ((t.columns.map fun c => "  " ++ (t.definitionOf explicit c).sql) ++
            others.map fun element => "  " ++ element.sql)) ++
        Statement.behindBody t.partition) ∧
    ((∀ c ∈ t.columns, c ∈ t.outsideColumns ↔ c.primaryKey = false) ∧
      t.outsideColumns.Sublist t.columns ∧ (t.outsideColumns.map (·.name)).Nodup) ∧
    (t.addColumns explicit).map (·.sql) = t.outsideColumns.map (fun c =>
      "ALTER TABLE " ++ t.name ++ " ADD COLUMN IF NOT EXISTS " ++
        (t.definitionOf explicit c).sql ++ ";") ∧
    Script.guards (t.addMissingColumns explicit) = t.outsideColumns.map (fun c =>
      ("SELECT 1 FROM information_schema.columns WHERE table_name = " ++ Sql.literal t.name ++
          " AND column_name = " ++ Sql.literal c.name,
        "ALTER TABLE " ++ t.name ++ " ADD COLUMN " ++ (t.definitionOf explicit c).sql ++ ";")) ∧
    (t.addMissingColumns explicit).map (·.sql) =
      if t.outsideColumns = [] then []
      else [Sql.guardedBlock (Script.guards (t.addMissingColumns explicit))] := by
  obtain rfl := eq_of_createStatement_eq_ok h
  obtain ⟨others, hothers, helements⟩ := t.exists_elements_eq_append explicit
  refine ⟨⟨others, hothers, helements, ?_⟩,
    ⟨fun c hc => by rw [mem_outsideColumns_iff, and_iff_right hc], List.filter_sublist,
      t.outsideColumns_nodup⟩, ?_, ?_, ?_⟩
  · rw [Statement.sql_of_lines _ rfl, helements, List.map_append, List.map_map]
    rfl
  · rw [addColumns, addableColumns_eq, List.map_map, List.map_map]
    rfl
  · rw [addMissingColumns, guards_addMissing, addableColumns_eq, List.map_map, List.map_map]
    rfl
  · rw [addMissingColumns, sql_addMissing, addableColumns_eq]
    simp only [List.map_eq_nil_iff]

end Table

/-- The column that partitions the notes is created and added by one definition. -/
theorem addColumns_partitionedNotes :
    ∃ s, partitionedNotesTable.createStatement false true = .ok s ∧
      partitionedNotesTable.outsideColumns.map (·.name) = ["b"] ∧
      (partitionedNotesTable.addColumns true).map (·.sql) =
        ["ALTER TABLE t ADD COLUMN IF NOT EXISTS b INTEGER NULL;"] ∧
      (Script.guards (partitionedNotesTable.addMissingColumns true)).map (·.2) =
        ["ALTER TABLE t ADD COLUMN b INTEGER NULL;"] := by
  have hcreate : partitionedNotesTable.createStatement false true = .ok _ := rfl
  have houtside : partitionedNotesTable.outsideColumns = [integerColumn "b" b_ne_empty] := rfl
  have hline : (partitionedNotesTable.definitionOf true (integerColumn "b" b_ne_empty)).sql =
      "b INTEGER NULL" := by
    decide +kernel
  obtain ⟨-, -, hsimple, hguarded, -⟩ := Table.createStatement_addColumns hcreate
  refine ⟨_, hcreate, rfl, ?_, ?_⟩
  · rw [hsimple, houtside, List.map_singleton, hline]
    rfl
  · rw [hguarded, houtside, List.map_singleton, List.map_singleton, hline]
    rfl

end PgSchema
