/-
# Key columns of new tables

A column of a new table is written as its own flags say, and a key of several columns as the whole
table says.  So a unique column that is flagged as key loses its `UNIQUE`, whether or not the key
has other columns, and a column that comes into a key by the partitioning or by a key constraint
keeps its `NULL`.

* `Table.mem_keys_elements_iff` : the primary keys that a body defines;
* `Table.createStatement_unique` : which columns are made unique on their own;
* `Table.createStatement_null_iff` : when no column of a key is declared null.
-/
import Mathlib.Data.List.Nodup
import PgSchema.Proofs.Table.Key
import PgSchema.Proofs.Table.Mode

namespace PgSchema

variable {t : Table} {explicit : Bool}

/-! ## Keys of a body -/

/-- The columns of the primary key that an element defines. -/
def TableElement.key? : TableElement → Option (List String)
  | column d => if .primaryKey ∈ d.clauses then some [d.name] else none
  | constraint c =>
    match c.rule with
    | .primaryKey columns => some columns
    | _ => none
  | primaryKey columns => some columns

/-- The primary keys that the elements of a body define. -/
def TableElement.keys (elements : List TableElement) : List (List String) :=
  elements.filterMap key?

theorem TableElement.key?_constraint_eq_some_iff {c : Constraint} {key : List String} :
    key? (constraint c) = some key ↔ c.rule = .primaryKey key := by
  obtain ⟨name, rule, comment⟩ := c
  cases rule <;> simp [key?]

theorem Column.primaryKey_mem_clauses_iff {c : Column} {inlineKey : Bool} :
    .primaryKey ∈ c.clauses inlineKey explicit ↔ c.primaryKey = true ∧ inlineKey = true := by
  rw [← List.count_pos_iff, c.count_primaryKey_clauses inlineKey, ← Bool.and_eq_true]
  split <;> simp_all

namespace Table

/-- If the effective key has one column at most, that column is the one that is flagged. -/
theorem singleton_eq_effectiveKey_iff (h : t.effectiveKey.length ≤ 1) {key : List String} :
    (∃ c ∈ t.columns, c.primaryKey = true ∧ key = [c.name]) ↔ key = t.effectiveKey ∧ key ≠ [] := by
  have hdeclared {c : Column} (hc : c ∈ t.columns) (hflag : c.primaryKey = true) :
      c.name ∈ t.declaredKey :=
    List.mem_map_of_mem (List.mem_filter.2 ⟨hc, hflag⟩)
  constructor
  · rintro ⟨c, hc, hflag, rfl⟩
    have hmem := hdeclared hc hflag
    have hne : t.effectiveKey ≠ [] := by
      rw [Ne, effectiveKey_eq_nil_iff]
      exact List.ne_nil_of_mem hmem
    have hone : t.effectiveKey.length = 1 := by
      have hpos := List.length_pos_iff.2 hne
      omega
    obtain ⟨name, hname⟩ := List.length_eq_one_iff.1 hone
    rw [declaredKey_of_effectiveKey_eq_singleton hname, List.mem_singleton] at hmem
    exact ⟨by rw [hname, hmem], by simp⟩
  · rintro ⟨rfl, hne⟩
    have hone : t.effectiveKey.length = 1 := by
      have hpos := List.length_pos_iff.2 hne
      omega
    obtain ⟨name, hname⟩ := List.length_eq_one_iff.1 hone
    have hmem : name ∈ t.declaredKey := by
      rw [declaredKey_of_effectiveKey_eq_singleton hname]
      exact List.mem_singleton_self name
    obtain ⟨c, hc, rfl⟩ := List.mem_map.1 hmem
    obtain ⟨hcolumn, hflag⟩ := List.mem_filter.1 hc
    exact ⟨c, hcolumn, hflag, hname⟩

/-- A body defines the effective key, inline or in its last line, and those of the key
constraints. -/
theorem mem_keys_elements_iff {key : List String} :
    key ∈ TableElement.keys (t.elements explicit) ↔
      (key = t.effectiveKey ∧ key ≠ []) ∨ ∃ c ∈ t.constraints, c.rule = .primaryKey key := by
  have hcolumns (inlineKey : Bool) :
      key ∈ (t.columns.map fun c => TableElement.column (c.definition inlineKey explicit)).filterMap
        TableElement.key? ↔
      inlineKey = true ∧ ∃ c ∈ t.columns, c.primaryKey = true ∧ key = [c.name] := by
    simp only [List.filterMap_map, List.mem_filterMap, Function.comp_apply, TableElement.key?,
      Option.ite_none_right_eq_some, Option.some.injEq, Column.definition,
      Column.primaryKey_mem_clauses_iff]
    constructor
    · rintro ⟨c, hc, ⟨hflag, hinline⟩, rfl⟩
      exact ⟨hinline, c, hc, hflag, rfl⟩
    · rintro ⟨hinline, c, hc, hflag, rfl⟩
      exact ⟨c, hc, ⟨hflag, hinline⟩, rfl⟩
  have hconstraints :
      key ∈ (t.constraints.map TableElement.constraint).filterMap TableElement.key? ↔
        ∃ c ∈ t.constraints, c.rule = .primaryKey key := by
    simp only [List.filterMap_map, List.mem_filterMap, Function.comp_apply,
      TableElement.key?_constraint_eq_some_iff]
  rw [TableElement.keys, elements, List.filterMap_append, List.filterMap_append, List.mem_append,
    List.mem_append, hcolumns, hconstraints]
  by_cases hcomposite : t.hasCompositeEffectiveKey = true
  · -- the key is a line of its own
    have hmany : 1 < t.effectiveKey.length := by simpa [hasCompositeEffectiveKey] using hcomposite
    have hne : t.effectiveKey ≠ [] := List.length_pos_iff.1 (by omega)
    rw [if_pos hcomposite, hcomposite]
    simp only [Bool.not_true, Bool.false_eq_true, false_and, false_or, List.filterMap_cons,
      List.filterMap_nil, TableElement.key?, List.mem_singleton]
    rw [or_comm, and_iff_left_of_imp]
    rintro rfl
    exact hne
  · -- no key has several columns
    have hfew : t.effectiveKey.length ≤ 1 := by simpa [hasCompositeEffectiveKey] using hcomposite
    rw [if_neg hcomposite, (Bool.not_eq_true _).mp hcomposite]
    simp [singleton_eq_effectiveKey_iff hfew]

end Table

/-! ## Definitions of columns -/

theorem Column.unique_mem_clauses_iff {c : Column} {inlineKey : Bool} :
    .unique ∈ c.clauses inlineKey explicit ↔ c.unique = true ∧ c.primaryKey = false := by
  have hnullability : ColumnClause.unique ∉ c.nullability explicit := by
    unfold nullability
    repeat' split
    all_goals simp
  simp [clauses, hnullability]

theorem Column.null_mem_clauses_iff {c : Column} {inlineKey : Bool} :
    .null ∈ c.clauses inlineKey explicit ↔
      explicit = true ∧ c.nullable = true ∧ c.primaryKey = false := by
  have hnullability : ColumnClause.null ∈ c.nullability explicit ↔
      explicit = true ∧ c.nullable = true ∧ c.primaryKey = false := by
    unfold nullability
    cases explicit <;> cases c.nullable <;> cases c.primaryKey <;> decide
  simp [clauses, hnullability]

namespace Table

/-- The definition of a column in a new table: its key is inline unless the key of the table is a
line of its own. -/
def definitionOf (t : Table) (explicit : Bool) (c : Column) : ColumnDefinition :=
  c.definition (!t.hasCompositeEffectiveKey) explicit

theorem column_mem_elements_iff {d : ColumnDefinition} :
    .column d ∈ t.elements explicit ↔ ∃ c ∈ t.columns, d = t.definitionOf explicit c := by
  have hkey : TableElement.column d ∉
      if t.hasCompositeEffectiveKey then [TableElement.primaryKey t.effectiveKey] else [] := by
    split <;> simp
  simp only [elements, List.mem_append, List.mem_map, hkey, or_false, TableElement.column.injEq,
    reduceCtorEq, and_false, exists_false, definitionOf, eq_comm (a := d)]

/-- Each column has one definition in the body, which is found by its name. -/
theorem column_mem_elements_of_name_iff {c : Column} (hc : c ∈ t.columns) {d : ColumnDefinition} :
    .column d ∈ t.elements explicit ∧ d.name = c.name ↔ d = t.definitionOf explicit c := by
  rw [column_mem_elements_iff]
  constructor
  · rintro ⟨⟨c', hc', rfl⟩, hname⟩
    rw [List.inj_on_of_nodup_map t.columns_nodup hc' hc hname]
  · rintro rfl
    exact ⟨⟨c, hc, rfl⟩, rfl⟩

end Table

/-- Every element of the body of a new table is written on a line of its own. -/
theorem Statement.exists_line_of_mem_elements {s : Statement} {element : TableElement}
    (h : element ∈ s.elements) :
    ∃ before after, s.sql = before ++ "\n  " ++ element.sql ++ after := by
  cases s with
  | createTable name unlessExists elements partition =>
    have hmem : element ∈ elements := h
    obtain ⟨before, after, hline⟩ := exists_line_of_mem hmem
    refine ⟨beforeBody name unlessExists ++ before, after ++ behindBody partition, ?_⟩
    rw [sql_createTable, hline]
    simp only [String.append_assoc]
  | _ => simp [elements] at h

/-- The text of a new table has the lines of its body. -/
theorem Statement.sql_of_lines {name : String} {unlessExists : Bool}
    {elements : List TableElement} {partition : Option Partition} (lines : List String)
    (h : elements.map (fun element => "  " ++ element.sql) = lines) :
    (createTable name unlessExists elements partition).sql =
      beforeBody name unlessExists ++ ("\n" ++ ",\n".intercalate lines) ++
        behindBody partition := by
  rw [sql_createTable, bodySql, h]

/-- The line of a column of integers. -/
def integerLine (name : String) (clauses : List String) : String :=
  "  " ++ " ".intercalate (name :: (SqlType.plain .integer isPlain_integer).sql :: clauses)

theorem integerLine_eq (name : String) (clauses : List String) :
    integerLine name clauses = "  " ++ " ".intercalate (name :: "INTEGER" :: clauses) := by
  have htype : (SqlType.plain .integer isPlain_integer).sql = "INTEGER" := by
    change Kind.integer.word.map Char.toUpper = "INTEGER"
    rw [← String.toList_inj, String.toList_map]
    decide
  rw [integerLine, htype]

/-! ## Unique columns -/

/-- A column that is declared unique has one definition in the text of a new table.  The definition
says `UNIQUE` exactly if the column is not flagged as key, and the column alone is a primary key
exactly if it is the whole effective key or a key constraint is over it alone.  So the column is
unique on its own unless it is flagged, the effective key has other columns too, and no key
constraint is over it alone. -/
theorem Table.createStatement_unique {unlessExists : Bool} {s : Statement} {c : Column}
    (h : t.createStatement unlessExists explicit = .ok s) (hc : c ∈ t.columns)
    (hunique : c.unique = true) :
    ∃ d before after,
      (∀ d', .column d' ∈ s.elements ∧ d'.name = c.name ↔ d' = d) ∧
      s.sql = before ++ "\n  " ++ d.sql ++ after ∧
      (.unique ∈ d.clauses ↔ c.primaryKey = false) ∧
      ([c.name] ∈ TableElement.keys s.elements ↔
        t.effectiveKey = [c.name] ∨ ∃ k ∈ t.constraints, k.rule = .primaryKey [c.name]) ∧
      (.unique ∈ d.clauses ∨ [c.name] ∈ TableElement.keys s.elements ↔
        (c.primaryKey = true → 1 < t.effectiveKey.length →
          ∃ k ∈ t.constraints, k.rule = .primaryKey [c.name])) := by
  obtain rfl := eq_of_createStatement_eq_ok h
  have hdefinition (d' : ColumnDefinition) :
      .column d' ∈ t.elements explicit ∧ d'.name = c.name ↔ d' = t.definitionOf explicit c :=
    column_mem_elements_of_name_iff hc
  obtain ⟨before, after, hline⟩ := Statement.exists_line_of_mem_elements
    (s := .createTable t.name unlessExists (t.elements explicit) t.partition)
    ((hdefinition _).2 rfl).1
  have hclauses : .unique ∈ (t.definitionOf explicit c).clauses ↔ c.primaryKey = false := by
    rw [definitionOf, Column.definition, Column.unique_mem_clauses_iff, and_iff_right hunique]
  have hkeys : [c.name] ∈ TableElement.keys (t.elements explicit) ↔
      t.effectiveKey = [c.name] ∨ ∃ k ∈ t.constraints, k.rule = .primaryKey [c.name] := by
    rw [mem_keys_elements_iff, and_iff_left (List.cons_ne_nil _ _), eq_comm]
  refine ⟨t.definitionOf explicit c, before, after, hdefinition, hline, hclauses, hkeys, ?_⟩
  rw [hclauses]
  refine (or_congr_right hkeys).trans ?_
  -- a flagged column is the whole effective key exactly if this has one column
  by_cases hflag : c.primaryKey = true
  · have hfew : ¬ 1 < t.effectiveKey.length ↔ t.effectiveKey = [c.name] := by
      constructor
      · intro hfew
        exact ((singleton_eq_effectiveKey_iff (by omega)).1 ⟨c, hc, hflag, rfl⟩).1.symm
      · intro hkey
        simp [hkey]
    rw [← hfew]
    simp only [hflag, Bool.true_eq_false, false_or, forall_const, imp_iff_not_or]
  · simp [hflag]

/-- A table of two unique columns, of which the first is flagged as key and the second may be. -/
def uniqueColumnsTable (second : Bool) : Table :=
  columnsTable
    [{ integerColumn "a" a_ne_empty with primaryKey := true, unique := true },
     { integerColumn "b" b_ne_empty with primaryKey := second, unique := true }]
    (by simp [integerColumn])

/-- A unique column beside the key says so. -/
theorem createStatement_uniqueColumn :
    ∃ s c, (uniqueColumnsTable false).createStatement false true = .ok s ∧
      c ∈ (uniqueColumnsTable false).columns ∧ c.unique = true ∧ c.primaryKey = false ∧
      ∃ d, .column d ∈ s.elements ∧ d.name = c.name ∧ .unique ∈ d.clauses := by
  have hcreate : (uniqueColumnsTable false).createStatement false true = .ok _ := rfl
  have hcolumn : { integerColumn "b" b_ne_empty with unique := true } ∈
      (uniqueColumnsTable false).columns := List.mem_cons_of_mem _ List.mem_cons_self
  obtain ⟨d, _, _, hdefinition, -, hclauses, -⟩ :=
    Table.createStatement_unique hcreate hcolumn rfl
  obtain ⟨hmem, hname⟩ := (hdefinition d).2 rfl
  exact ⟨_, _, hcreate, hcolumn, rfl, rfl, d, hmem, hname, hclauses.2 rfl⟩

/-- Two unique columns that are the key together are written without `UNIQUE`, and the audit finds
nothing wrong with the table. -/
theorem createStatement_uniqueKeyColumns :
    (uniqueColumnsTable true).violations = [] ∧ ∃ s,
      (uniqueColumnsTable true).createStatement false false = .ok s ∧
      (uniqueColumnsTable true).columns.map (·.unique) = [true, true] ∧
      s.sql = "CREATE TABLE t (\n  a INTEGER,\n  b INTEGER,\n  PRIMARY KEY (a, b)\n);" ∧
      TableElement.keys s.elements = [["a", "b"]] := by
  have hviolations : (uniqueColumnsTable true).violations = [] := by decide
  refine ⟨hviolations, _, Table.createStatement_of_no_violations hviolations false false, rfl,
    ?_, rfl⟩
  rw [Statement.sql_of_lines [integerLine "a" [], integerLine "b" [], "  PRIMARY KEY (a, b)"] rfl,
    integerLine_eq, integerLine_eq]
  decide

/-! ## Columns that may be null -/

/-- The columns that a new table declares null, and that a key of it names: a column that is not
flagged comes into a key by the partitioning or by a key constraint. -/
theorem Table.createStatement_null_iff {unlessExists : Bool} {s : Statement}
    (h : t.createStatement unlessExists explicit = .ok s) :
    (∀ d, .column d ∈ s.elements →
      (∃ before after, s.sql = before ++ "\n  " ++ d.sql ++ after) ∧
      (.null ∈ d.clauses ↔
        explicit = true ∧ ∃ c ∈ t.columns, c.name = d.name ∧ c.nullable = true ∧
          c.primaryKey = false)) ∧
    ((∀ d, .column d ∈ s.elements →
        ∀ key ∈ TableElement.keys s.elements, d.name ∈ key → .null ∉ d.clauses) ↔
      (explicit = true → ∀ c ∈ t.columns, c.nullable = true → c.primaryKey = false →
        c.name ∉ t.effectiveKey ∧
        ∀ k ∈ t.constraints, ∀ key, k.rule = .primaryKey key → c.name ∉ key)) := by
  obtain rfl := eq_of_createStatement_eq_ok h
  have hnull {c : Column} : .null ∈ (t.definitionOf explicit c).clauses ↔
      explicit = true ∧ c.nullable = true ∧ c.primaryKey = false :=
    Column.null_mem_clauses_iff
  refine ⟨fun d hd => ⟨Statement.exists_line_of_mem_elements hd, ?_⟩, ?_⟩
  · obtain ⟨c, hc, rfl⟩ := column_mem_elements_iff.1 hd
    rw [hnull, and_congr_right_iff]
    intro _
    constructor
    · rintro ⟨hnullable, hflag⟩
      exact ⟨c, hc, rfl, hnullable, hflag⟩
    · rintro ⟨c', hc', hname, hnullable, hflag⟩
      obtain rfl := List.inj_on_of_nodup_map t.columns_nodup hc' hc hname
      exact ⟨hnullable, hflag⟩
  · change (∀ d, .column d ∈ t.elements explicit →
      ∀ key ∈ TableElement.keys (t.elements explicit), d.name ∈ key → .null ∉ d.clauses) ↔ _
    constructor
    · intro hkeys hexplicit c hc hnullable hflag
      -- the definition of the column says `NULL`, so no key has it
      have hnokey (key : List String) (hkey : key ∈ TableElement.keys (t.elements explicit)) :
          c.name ∉ key := fun hmem =>
        hkeys _ (column_mem_elements_iff.2 ⟨c, hc, rfl⟩) key hkey hmem
          (hnull.2 ⟨hexplicit, hnullable, hflag⟩)
      constructor
      · intro hmem
        exact hnokey _ (mem_keys_elements_iff.2 (.inl ⟨rfl, List.ne_nil_of_mem hmem⟩)) hmem
      · intro k hk key hkey
        exact hnokey key (mem_keys_elements_iff.2 (.inr ⟨k, hk, hkey⟩))
    · intro hcolumns d hd key hkey hmem hd_null
      obtain ⟨c, hc, rfl⟩ := column_mem_elements_iff.1 hd
      obtain ⟨hexplicit, hnullable, hflag⟩ := hnull.1 hd_null
      obtain ⟨heffective, hconstraints⟩ := hcolumns hexplicit c hc hnullable hflag
      rcases mem_keys_elements_iff.1 hkey with ⟨rfl, -⟩ | ⟨k, hk, hrule⟩
      · exact heffective hmem
      · exact hconstraints k hk key hrule hmem

/-- A table of a flagged column and another one that may be null. -/
def notesTable : Table :=
  columnsTable
    [{ integerColumn "a" a_ne_empty with primaryKey := true }, integerColumn "b" b_ne_empty]
    (by simp [integerColumn])

/-- A column outside the key may say `NULL`. -/
theorem createStatement_notes :
    ∃ s, notesTable.createStatement false true = .ok s ∧
      s.sql = "CREATE TABLE t (\n  a INTEGER PRIMARY KEY NOT NULL,\n  b INTEGER NULL\n);" ∧
      ∀ d, .column d ∈ s.elements → ∀ key ∈ TableElement.keys s.elements,
        d.name ∈ key → .null ∉ d.clauses := by
  have hcolumns : ∀ c ∈ notesTable.columns, c.primaryKey = false →
      c.name ∉ notesTable.effectiveKey := by decide
  have hcreate : notesTable.createStatement false true = .ok _ := rfl
  refine ⟨_, hcreate, ?_, (Table.createStatement_null_iff hcreate).2.2 fun _ c hc _ hflag => ?_⟩
  · rw [Statement.sql_of_lines
      [integerLine "a" ["PRIMARY KEY", "NOT NULL"], integerLine "b" ["NULL"]] rfl,
      integerLine_eq, integerLine_eq]
    decide
  · exact ⟨hcolumns c hc hflag, fun k hk => absurd hk List.not_mem_nil⟩

/-- The table of notes, partitioned by the column that may be null. -/
def partitionedNotesTable : Table :=
  { notesTable with partition := some { method := .range, columns := ["b"] } }

/-- A table of one column that may be null, with a key constraint over it. -/
def constrainedTable : Table :=
  { columnsTable [integerColumn "a" a_ne_empty] (by decide) with
    constraints := [{ name := "pk_t", rule := .primaryKey ["a"], comment := none }] }

/-- A column that comes into the key by the partitioning, and one that comes into it by a
constraint, are declared null; the audit finds nothing wrong with the second table. -/
theorem createStatement_nullKeyColumns :
    (∃ s, partitionedNotesTable.createStatement false true = .ok s ∧
      s.sql = "CREATE TABLE t (\n  a INTEGER NOT NULL,\n  b INTEGER NULL,\n" ++
        "  PRIMARY KEY (a, b)\n) PARTITION BY RANGE (b);") ∧
    constrainedTable.violations = [] ∧
    ∃ s, constrainedTable.createStatement false true = .ok s ∧
      s.sql = "CREATE TABLE t (\n  a INTEGER NULL,\n  CONSTRAINT pk_t PRIMARY KEY (a)\n);" := by
  refine ⟨⟨_, rfl, ?_⟩, by decide, _, rfl, ?_⟩
  · rw [Statement.sql_of_lines
      [integerLine "a" ["NOT NULL"], integerLine "b" ["NULL"], "  PRIMARY KEY (a, b)"] rfl,
      integerLine_eq, integerLine_eq]
    decide
  · rw [Statement.sql_of_lines
      [integerLine "a" ["NULL"], "  CONSTRAINT pk_t PRIMARY KEY (a)"] rfl, integerLine_eq]
    decide

end PgSchema
