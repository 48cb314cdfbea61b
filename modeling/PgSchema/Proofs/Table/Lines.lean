/-
# Lines of a new table

The statement that creates a table is laid out with its columns, its constraints and its composite
key on lines of their own, in this order, and the partitioning on the line behind them.  The layout
counts round parentheses only: an element with a comma outside them is cut there, also between
square brackets.

* `Table.format_createStatement` : the layout of the statement, line by line.
-/
import PgSchema.Proofs.Layout.TableScript
import PgSchema.Proofs.Table.KeyColumn
import PgSchema.Proofs.Table.Mode

namespace PgSchema

open Layout

namespace Table

/-- What stands between `CREATE TABLE` and the body of a new table. -/
def newName (unlessExists : Bool) (t : Table) : String :=
  (if unlessExists then "IF NOT EXISTS " else "") ++ t.name ++ " "

/-- Holds for a table each part of which is closed: the part ends the quotes and comments that it
starts, closes the round parentheses that it opens, and has no semicolon outside quoted text and
comments.  The name has no punctuation there, and the elements are not commas alone. -/
structure HasClosedParts (unlessExists explicit : Bool) (t : Table) : Prop where
  name : IsNameText (t.newName unlessExists)
  elements : ∀ e ∈ t.elements explicit, IsElementText e.sql
  partition : ∀ p ∈ t.partition, IsClauseText p.sql
  solid : ∃ e ∈ t.elements explicit, ∃ c ∈ e.sql.toList, Text.isBlank c = false ∧ c ≠ ','

variable {t : Table} {unlessExists explicit : Bool} {s : Statement}

/-- The statement that creates a table, as the text of a table statement. -/
theorem toList_createTableSql (unlessExists explicit : Bool) (t : Table) :
    (Statement.createTableSql t.name unlessExists (t.elements explicit) t.partition).toList =
      tableScript (t.newName unlessExists).toList
        (((t.elements explicit).map (·.sql)).map String.toList)
        ((t.partition.map (·.sql)).map String.toList) := by
  have hbody : ((t.elements explicit).map fun e => "  " ++ e.sql).map String.toList =
      (((t.elements explicit).map (·.sql)).map String.toList).map (indent ++ ·) := by
    rw [List.map_map, List.map_map, List.map_map]
    apply List.map_congr_left
    intro e _
    exact String.toList_append
  have hhead : (if unlessExists then "CREATE TABLE IF NOT EXISTS " else "CREATE TABLE ").toList =
      createTable ++ (if unlessExists then "IF NOT EXISTS " else "").toList := by
    cases unlessExists <;> rfl
  unfold Statement.createTableSql tableScript tableText newName
  cases t.partition with
  | none =>
    simp only [String.toList_append, String.toList_intercalate, hbody, hhead, List.append_assoc]
    rfl
  | some p =>
    simp only [String.toList_append, String.toList_intercalate, hbody, hhead, List.append_assoc]
    rfl

/-- The layout of a new table: the name, the lines of each element in order, and the partitioning
on a line of its own.  An element comes out as a whole, on one line, if and only if it has no comma
outside round parentheses, quoted text and comments. -/
theorem format_createStatement (h : t.createStatement unlessExists explicit = .ok s)
    (hparts : t.HasClosedParts unlessExists explicit)
    (hcount : segmentCount s.sql ≤ 10 ^ Number.maxDigits) :
    ∃ name lines partition, oneLine (t.newName unlessExists) = .ok name ∧
      (t.elements explicit).mapM (fun e => elementLines e.sql) = .ok lines ∧
      t.partition.mapM (fun p => oneLine p.sql) = .ok partition ∧
      format s.sql = .ok ("CREATE TABLE " ++ name ++ " (\n" ++
        ",\n".intercalate (lines.flatten.map ("  " ++ ·)) ++ "\n)" ++
        partition.elim "" ("\n" ++ ·) ++ ";") ∧
      ∀ e ∈ t.elements explicit, ∀ ls, elementLines e.sql = .ok ls →
        ((∃ line, oneLine e.sql = .ok line ∧ ls = [line]) ↔ IsUncut e.sql) := by
  obtain rfl := eq_of_createStatement_eq_ok h
  have htext := toList_createTableSql unlessExists explicit t
  have helements : ∀ e ∈ (t.elements explicit).map (·.sql), IsElementText e :=
    List.forall_mem_map.2 hparts.elements
  have hpartition : ∀ p ∈ t.partition.map (·.sql), IsClauseText p := by
    intro p hp
    obtain ⟨q, hq, rfl⟩ := Option.map_eq_some_iff.1 hp
    exact hparts.partition q hq
  have hsolid : ∃ e ∈ (t.elements explicit).map (·.sql), ∃ c ∈ e.toList,
      Text.isBlank c = false ∧ c ≠ ',' := by
    obtain ⟨e, he, hsolid⟩ := hparts.solid
    exact ⟨e.sql, List.mem_map_of_mem he, hsolid⟩
  obtain ⟨name, lines, partition, hname, hlines, hclause, hformat⟩ :=
    format_tableScript htext hparts.name helements hpartition hsolid hcount
  simp only [List.mapM_map, Function.comp_def] at hlines
  refine ⟨name, lines, partition, hname, hlines, ?_, hformat, fun e he ls hls =>
    elementLines_eq_singleton_iff (hparts.elements e he) hls⟩
  rw [← hclause]
  cases t.partition with
  | none => rfl
  | some p => rw [Option.map_some, Option.mapM_some, Option.mapM_some]

end Table

/-- The partitioned notes, with a constraint that has commas in parentheses. -/
def checkedNotesTable : Table :=
  { partitionedNotesTable with
    constraints := [{ name := "c", rule := .check "a IN (1, 2)", comment := none }] }

/-- The columns, the constraint, the composite key and the partitioning each have a line. -/
theorem format_checkedNotes :
    ∃ s, checkedNotesTable.createStatement false false = .ok s ∧
      checkedNotesTable.HasClosedParts false false ∧
      format s.sql = .ok ("CREATE TABLE t (\n  a INTEGER,\n  b INTEGER,\n" ++
        "  CONSTRAINT c CHECK (a IN (1, 2)),\n  PRIMARY KEY (a, b)\n)\n" ++
        "PARTITION BY RANGE (b);") := by
  have hcreate : checkedNotesTable.createStatement false false = .ok _ := rfl
  have hsql : (checkedNotesTable.elements false).map (·.sql) =
      ["a INTEGER", "b INTEGER", "CONSTRAINT c CHECK (a IN (1, 2))", "PRIMARY KEY (a, b)"] := by
    decide +kernel
  have helements : ∀ e ∈ (checkedNotesTable.elements false).map (·.sql), IsElementText e := by
    rw [hsql]
    decide
  have hparts : checkedNotesTable.HasClosedParts false false := by
    refine ⟨by decide, List.forall_mem_map.1 helements, ?_, ?_⟩
    · rintro p ⟨rfl⟩
      decide
    · exact ⟨_, List.mem_cons_self, 'a', by decide +kernel, by decide, by decide⟩
  obtain ⟨name, lines, partition, hname, hlines, hpartition, hformat, -⟩ :=
    Table.format_createStatement hcreate hparts
      ((segmentCount_le_length _).trans (by decide +kernel))
  have hnameText : oneLine (checkedNotesTable.newName false) = .ok "t" :=
    toOption_eq_some_iff.1 (by decide)
  have hlinesText : (checkedNotesTable.elements false).mapM (fun e => elementLines e.sql) =
      .ok [["a INTEGER"], ["b INTEGER"], ["CONSTRAINT c CHECK (a IN (1, 2))"],
        ["PRIMARY KEY (a, b)"]] :=
    toOption_eq_some_iff.1 (by decide +kernel)
  have hpartitionText : checkedNotesTable.partition.mapM (fun p => oneLine p.sql) =
      .ok (some "PARTITION BY RANGE (b)") :=
    toOption_eq_some_iff.1 (by decide)
  rw [hname] at hnameText
  rw [hlines] at hlinesText
  rw [hpartition] at hpartitionText
  obtain rfl := Except.ok.inj hnameText
  obtain rfl := Except.ok.inj hlinesText
  obtain rfl := Except.ok.inj hpartitionText
  exact ⟨_, hcreate, hparts, hformat.trans (congrArg Except.ok (by decide))⟩

theorem numbers_ne_empty : "ARRAY[1, 2]" ≠ "" := by decide

/-- A column for an array, which holds two numbers unless it is given others. -/
def arrayColumn : Column where
  name := "b"
  type := .array (.plain .integer isPlain_integer)
  nullable := true
  primaryKey := false
  unique := false
  default := some ⟨.expression, "ARRAY[1, 2]", "", numbers_ne_empty⟩
  conditions := []
  rules := []
  collation := none
  comment := none
  name_nonempty := b_ne_empty

/-- A table with one column, for arrays. -/
def arrayTable : Table := columnsTable [arrayColumn] (List.nodup_singleton _)

/-- A comma between square brackets cuts an element: the one column gets two lines. -/
theorem format_arrayTable :
    ∃ s, arrayTable.createStatement false false = .ok s ∧
      (arrayTable.elements false).map (·.sql) = ["b INTEGER[] DEFAULT ARRAY[1, 2]"] ∧
      s.sql = "CREATE TABLE t (\n  b INTEGER[] DEFAULT ARRAY[1, 2]\n);" ∧
      format s.sql = .ok "CREATE TABLE t (\n  b INTEGER[] DEFAULT ARRAY[1,\n  2]\n);" := by
  have hsql : (Statement.createTable "t" false (arrayTable.elements false) none).sql =
      "CREATE TABLE t (\n  b INTEGER[] DEFAULT ARRAY[1, 2]\n);" := by
    decide +kernel
  have hformat : format (Statement.createTable "t" false (arrayTable.elements false) none).sql =
      .ok "CREATE TABLE t (\n  b INTEGER[] DEFAULT ARRAY[1,\n  2]\n);" := by
    rw [hsql]
    exact toOption_eq_some_iff.1 (by decide)
  exact ⟨_, rfl, by decide +kernel, hsql, hformat⟩

end PgSchema
