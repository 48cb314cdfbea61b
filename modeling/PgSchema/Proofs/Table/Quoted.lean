/-
# Quoted text in statements

The places at which a statement has a text of the schema between marks: comments, the names that a
guard looks for, and in the definition of a column its default, the expressions and values of its
rules, and its collation.  All of them double the marks in the text, but for the sequence of a
default and the collation.

* `Statement.Quotes` : the texts that a statement has between marks, place by place;
* `Statement.quoted_text_reads_back_iff` : which of them are read back.
-/
import PgSchema.Proofs.Sql.Quoted
import PgSchema.Proofs.Table.Key
import PgSchema.Table.Statements

namespace PgSchema

open Sql (LeadsIn Quoting StandsIn Unmarked)

/-! ## Places -/

/-- The text that a default has between marks. -/
inductive DefaultValue.Quotes : Quoting → String → DefaultValue → Prop
  | string (text : String) : Quotes .literal text (string text)
  | jsonObject (json : String) : Quotes .literal json (jsonObject json)
  | nextVal (sequence : String) : Quotes .bareLiteral sequence (nextVal sequence)

/-- The texts that a rule has between marks, its parts included. -/
inductive ValueRule.Quotes (text : String) : ValueRule → Prop
  | regex {rule : ValueRule} (h : rule.regex? = some text) : Quotes text rule
  | oneOf {first : String} {others : List String} (h : text ∈ first :: others) :
    Quotes text (oneOf first others)
  | all {first : ValueRule} {others : List ValueRule} {part : ValueRule}
    (hpart : part ∈ first :: others) (h : Quotes text part) : Quotes text (all first others)
  | any {first : ValueRule} {others : List ValueRule} {part : ValueRule}
    (hpart : part ∈ first :: others) (h : Quotes text part) : Quotes text (any first others)

/-- The texts that the definition of a column has between marks. -/
inductive Column.Quotes (c : Column) : Quoting → String → Prop
  | default {d : DefaultValue} {q : Quoting} {text : String} (hdefault : c.default = some d)
    (h : d.Quotes q text) : Quotes c q text
  | rule {r : ValueRule} {text : String} (hrule : r ∈ c.rules) (h : r.Quotes text) :
    Quotes c .literal text
  | collation {text : String} (h : c.collation = some text) (hne : text ≠ "") :
    Quotes c .bareIdentifier text

/-- The texts that a statement has between marks. -/
inductive Statement.Quotes : Quoting → String → Statement → Prop
  | comment (target : CommentTarget) (text : String) : Quotes .literal text (comment target text)
  | newColumn {table : String} {unlessExists inlineKey explicit : Bool}
    {elements : List TableElement} {partition : Option Partition} {c : Column} {q : Quoting}
    {text : String} (hmem : .column (c.definition inlineKey explicit) ∈ elements)
    (h : c.Quotes q text) : Quotes q text (createTable table unlessExists elements partition)
  | addedColumn {table : String} {inlineKey explicit : Bool} {c : Column} {q : Quoting}
    {text : String} (h : c.Quotes q text) :
    Quotes q text (addColumn table (c.definition inlineKey explicit))
  | missingColumn {table : String} {inlineKey explicit : Bool} {additions : List Addition}
    {c : Column} {q : Quoting} {text : String}
    (hmem : .column (c.definition inlineKey explicit) ∈ additions) (h : c.Quotes q text) :
    Quotes q text (addMissing table additions)
  | guardedTable {table : String} {additions : List Addition} {d : ColumnDefinition}
    (hmem : .column d ∈ additions) : Quotes .literal table (addMissing table additions)
  | guardedColumn {table : String} {additions : List Addition} {d : ColumnDefinition}
    (hmem : .column d ∈ additions) : Quotes .literal d.name (addMissing table additions)
  | guardedConstraint {table : String} {additions : List Addition} {c : Constraint}
    (hmem : .constraint c ∈ additions) : Quotes .literal c.name (addMissing table additions)

/-! ## Columns -/

variable {q : Quoting} {text : String}

theorem DefaultValue.Quotes.standsIn {d : DefaultValue} (h : d.Quotes q text) :
    StandsIn (q.write text) (ColumnClause.default d.expression).sql := by
  have hclause (expression : String) :
      (ColumnClause.default expression).sql = "DEFAULT " ++ expression := rfl
  cases h with
  | string =>
    rw [Quoting.write_literal, hclause]
    exact ⟨"DEFAULT ", "", by rw [DefaultValue.string, String.append_empty], by decide, by decide⟩
  | jsonObject =>
    rw [Quoting.write_literal, hclause]
    refine ⟨"DEFAULT ", "::jsonb", ?_, by decide, by decide⟩
    rw [DefaultValue.jsonObject, String.append_assoc]
  | nextVal =>
    have hopen : ("DEFAULT nextval(" : String) = "DEFAULT " ++ "nextval(" := rfl
    have hquote : ("nextval('" : String) = "nextval(" ++ "'" := rfl
    have hclose : ("')" : String) = "'" ++ ")" := rfl
    have hcall : (DefaultValue.nextVal text).expression = "nextval('" ++ text ++ "')" := rfl
    rw [Quoting.write_bareLiteral, hclause]
    refine ⟨"DEFAULT nextval(", ")", ?_, by decide, by decide⟩
    rw [hcall, hopen, hquote, hclose]
    simp only [String.append_assoc]

theorem ValueRule.standsIn_matchSql (column regex : String) :
    StandsIn (Sql.literal regex) (matchSql column regex) := by
  have hleads : LeadsIn " ~ " := by decide
  exact ⟨column ++ " ~ ", "", by rw [matchSql, String.append_empty], hleads.append column,
    by decide⟩

theorem ValueRule.standsIn_memberSql (column : String) {values : List String} (h : text ∈ values) :
    StandsIn (Sql.literal text) (memberSql column values) := by
  obtain ⟨before, after, heq, hbefore, hafter⟩ :=
    Text.exists_intercalate_eq ", " (List.mem_map_of_mem (f := Sql.literal) h)
  have hopen : LeadsIn " IN (" := by decide
  have hcomma : LeadsIn ", " := by decide
  have hseparator : Unmarked ", " := by decide
  refine ⟨column ++ " IN (" ++ before, after ++ ")", ?_, ?_, ?_⟩
  · rw [memberSql, heq]
    simp only [String.append_assoc]
  · rcases hbefore with rfl | ⟨first, rfl⟩
    · rw [String.append_empty]
      exact hopen.append column
    · exact (hcomma.append first).append _
  · rcases hafter with rfl | ⟨last, rfl⟩
    · decide
    · exact (hseparator.append_of_ne_empty (by decide) last).append (by decide)

/-- A rule that consists of a regular expression is a match with it. -/
theorem ValueRule.sql_of_regex? {rule : ValueRule} (h : rule.regex? = some text) (column : String) :
    rule.sql column = matchSql column text := by
  cases rule with
  | range bounds => cases h
  | length bounds => cases h
  | oneOf first others => cases h
  | all first others => cases h
  | any first others => cases h
  | _ => rw [ValueRule.sql, Option.some.inj h]

theorem ValueRule.enclosedParts_eq_map (column : String) (parts : List ValueRule) :
    enclosedParts column parts = parts.map fun part => enclosed (part.sql column) := by
  induction parts with
  | nil => rfl
  | cons part parts ih => rw [enclosedParts, ih, List.map_cons]

theorem ValueRule.Quotes.standsIn {rule : ValueRule} (h : rule.Quotes text) (column : String) :
    StandsIn (Sql.literal text) (rule.sql column) := by
  have hparts {part : ValueRule} {parts : List ValueRule} {separator : String}
      (hpart : part ∈ parts) (ih : StandsIn (Sql.literal text) (part.sql column))
      (hseparator : Unmarked separator) (hne : separator ≠ "") :
      StandsIn (Sql.literal text)
        (separator.intercalate (parts.map fun part => enclosed (part.sql column))) :=
    (ih.around "(" (by decide : Unmarked ")")).intercalate (List.mem_map_of_mem hpart) hseparator
      hne
  induction h with
  | regex h =>
    rw [sql_of_regex? h]
    exact standsIn_matchSql column text
  | oneOf h =>
    rw [ValueRule.sql]
    exact standsIn_memberSql column h
  | all hpart _ ih =>
    rw [ValueRule.sql, enclosedParts_eq_map]
    exact hparts hpart ih (by decide) (by decide)
  | any hpart _ ih =>
    rw [ValueRule.sql, enclosedParts_eq_map]
    exact hparts hpart ih (by decide) (by decide)

/-- Some clause of a column has the text. -/
theorem Column.Quotes.exists_clause {c : Column} (h : c.Quotes q text) (inlineKey explicit : Bool) :
    ∃ clause ∈ c.clauses inlineKey explicit, StandsIn (q.write text) clause.sql := by
  unfold Column.clauses
  cases h with
  | default hdefault h => exact ⟨_, by simp [hdefault], h.standsIn⟩
  | rule hrule h =>
    rw [Quoting.write_literal]
    refine ⟨.check _, ?_, (h.standsIn c.name).around "CHECK (" (by decide : Unmarked ")")⟩
    simp only [List.mem_append, List.mem_map, Column.checks]
    exact .inl (.inr ⟨_, .inr ⟨_, hrule, rfl⟩, rfl⟩)
  | collation h hne =>
    refine ⟨.collate text, by simp [h, hne], "COLLATE ", "", ?_, by decide, by decide⟩
    have hmark : ("COLLATE \"" : String) = "COLLATE " ++ "\"" := rfl
    rw [ColumnClause.sql, hmark, Quoting.write_bareIdentifier]
    simp only [String.append_assoc, String.append_empty]

theorem Column.Quotes.standsIn {c : Column} (h : c.Quotes q text) (inlineKey explicit : Bool) :
    StandsIn (q.write text) (c.definition inlineKey explicit).sql := by
  obtain ⟨clause, hclause, hstands⟩ := h.exists_clause inlineKey explicit
  refine hstands.intercalate ?_ (by decide) (by decide)
  exact List.mem_cons_of_mem _ (List.mem_cons_of_mem _ (List.mem_map_of_mem hclause))

/-! ## Statements -/

namespace Statement

variable {token table : String} {additions : List Addition} {a : Addition}

theorem standsIn_addMissing_of_line (hmem : a ∈ additions) {line : String}
    (hline : line ∈ Sql.guardLines (a.query table) (a.sql table)) (h : StandsIn token line) :
    StandsIn token (addMissing table additions).sql := by
  have hsql : (addMissing table additions).sql =
      Sql.guardedBlock (additions.map fun a => (a.query table, a.sql table)) := rfl
  rw [hsql, Sql.guardedBlock]
  refine h.intercalate ?_ (by decide) (by decide)
  refine List.mem_append_left _ (List.mem_append_right _ (List.mem_flatMap.2 ?_))
  exact ⟨_, List.mem_map_of_mem hmem, hline⟩

theorem standsIn_addMissing_of_query (hmem : a ∈ additions) (h : StandsIn token (a.query table)) :
    StandsIn token (addMissing table additions).sql :=
  standsIn_addMissing_of_line hmem List.mem_cons_self
    (h.around "  IF NOT EXISTS (" (by decide : Unmarked ") THEN"))

theorem standsIn_addMissing_of_sql (hmem : a ∈ additions) (h : StandsIn token (a.sql table)) :
    StandsIn token (addMissing table additions).sql :=
  standsIn_addMissing_of_line hmem (List.mem_cons_of_mem _ List.mem_cons_self) (h.behind "    ")

theorem standsIn_createTable {unlessExists : Bool} {elements : List TableElement}
    {partition : Option Partition} {element : TableElement} (hmem : element ∈ elements)
    (h : StandsIn token element.sql) :
    StandsIn token (createTable table unlessExists elements partition).sql := by
  have hbody : StandsIn token (bodySql elements) := by
    refine StandsIn.behind ?_ "\n"
    exact (h.behind "  ").intercalate (List.mem_map_of_mem hmem) (by decide) (by decide)
  have hbehind : Unmarked (behindBody partition) := by
    have hopen : Unmarked "\n) " := by decide
    cases partition with
    | none => exact (by decide : Unmarked "\n);")
    | some p =>
      refine Unmarked.append ?_ (by decide)
      exact hopen.append_of_ne_empty (by decide) p.sql
  rw [sql_createTable]
  exact hbody.around _ hbehind

/-- The text of a statement has the quoted text in it, apart from other marks. -/
theorem Quotes.standsIn {s : Statement} (h : s.Quotes q text) : StandsIn (q.write text) s.sql := by
  -- one case for each place of a statement that has quoted text
  cases h with
  | comment target =>
    have hsql : (Statement.comment target text).sql =
        "COMMENT ON " ++ target.sql ++ " IS " ++ Sql.literal text ++ ";" := rfl
    have his : LeadsIn " IS " := by decide
    rw [Quoting.write_literal, hsql]
    exact ⟨_, ";", rfl, his.append _, by decide⟩
  | newColumn hmem h => exact standsIn_createTable hmem (h.standsIn _ _)
  | addedColumn h => exact (h.standsIn _ _).around _ (by decide : Unmarked ";")
  | missingColumn hmem h =>
    exact standsIn_addMissing_of_sql hmem ((h.standsIn _ _).around _ (by decide : Unmarked ";"))
  | @guardedTable _ _ d hmem =>
    have hfrom : LeadsIn "SELECT 1 FROM information_schema.columns WHERE table_name = " := by decide
    have hand : Unmarked " AND column_name = " := by decide
    refine standsIn_addMissing_of_query hmem ⟨_, " AND column_name = " ++ Sql.literal d.name, ?_,
      hfrom, hand.append_of_ne_empty (by decide) _⟩
    rw [Quoting.write_literal, Addition.query_column]
    simp only [String.append_assoc]
  | @guardedColumn table _ _ hmem =>
    have hand : LeadsIn " AND column_name = " := by decide
    refine standsIn_addMissing_of_query hmem
      ⟨"SELECT 1 FROM information_schema.columns WHERE table_name = " ++ Sql.literal table ++
        " AND column_name = ", "", ?_, hand.append _, by decide⟩
    rw [Quoting.write_literal, Addition.query_column, String.append_empty]
  | guardedConstraint hmem =>
    have hfrom : LeadsIn "SELECT 1 FROM pg_constraint WHERE conname = " := by decide
    refine standsIn_addMissing_of_query hmem ⟨_, "", ?_, hfrom, by decide⟩
    rw [Quoting.write_literal, Addition.query_constraint, String.append_empty]

end Statement

end PgSchema
