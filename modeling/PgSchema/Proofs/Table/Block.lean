/-
# Guarded blocks as one body

The block that adds what a table lacks takes in texts of the schema as they are: names, types,
defaults, conditions, collations.  Nothing but these can bring a dollar mark into the block, so the
block has its two marks only, and is one body, exactly when none of the texts has a mark.

* `Sql.marks_guardedBlock` : the marks of a block are its own two and those of its guards;
* `Table.guardedBlocks` : when the blocks of a table are one body.
-/
import PgSchema.Proofs.Layout.Block
import PgSchema.Proofs.Table.Audit

namespace PgSchema

open Text Layout

/-! ## Counting marks -/

namespace Sql

/-- The number of dollar marks in a text. -/
def marks (s : String) : Nat := occurrences bodyMark s.toList

variable {a b : String}

theorem bodyMark_ne_nil : bodyMark ≠ [] := by decide

theorem marks_eq_zero_iff (s : String) : marks s = 0 ↔ Text.contains s "$$" = false := by
  have hmark : "$$".toList = bodyMark := rfl
  rw [marks, occurrences_eq_zero_iff bodyMark_ne_nil, Text.contains, hmark]

theorem notMem_bodyMark {s : String} (h : '$' ∉ s.toList) : ∀ c ∈ s.toList, c ∉ bodyMark := by
  intro c hc hmem
  obtain rfl : c = '$' := by simpa [bodyMark] using hmem
  exact h hc

theorem marks_append_left (ha : '$' ∉ a.toList) (s : String) : marks (a ++ s) = marks s := by
  rw [marks, String.toList_append]
  exact occurrences_append_left bodyMark_ne_nil (notMem_bodyMark ha) s.toList

theorem marks_append_right (hb : '$' ∉ b.toList) (s : String) : marks (s ++ b) = marks s := by
  rw [marks, String.toList_append]
  exact occurrences_append_right bodyMark_ne_nil (notMem_bodyMark hb) s.toList

/-- The marks of a text between two others. -/
theorem marks_between (ha : '$' ∉ a.toList) (hb : '$' ∉ b.toList) (s : String) :
    marks (a ++ s ++ b) = marks s := by
  rw [marks_append_right hb, marks_append_left ha]

/-- Texts apart from each other have their marks by themselves. -/
theorem marks_apart (hne : a ≠ "") (ha : '$' ∉ a.toList) (s t : String) :
    marks (s ++ a ++ t) = marks s + marks t := by
  rw [marks, String.toList_append, String.toList_append, List.append_assoc]
  exact occurrences_append_append bodyMark_ne_nil (by simpa using hne) (notMem_bodyMark ha) _ _

theorem marks_intercalate (hne : a ≠ "") (ha : '$' ∉ a.toList) (ss : List String) :
    marks (a.intercalate ss) = (ss.map marks).sum := by
  rw [marks, String.toList_intercalate,
    occurrences_intercalate bodyMark_ne_nil (by simpa using hne) (notMem_bodyMark ha), List.map_map]
  rfl

theorem head?_escapeChars (cs : List Char) : (escapeChars cs).head? = cs.head? := by
  cases cs with
  | nil => rfl
  | cons c cs =>
    rw [escapeChars]
    split
    · next hc => rw [eq_of_beq hc]; rfl
    · rfl

/-- A literal has the marks of its text. -/
theorem marks_literal (s : String) : marks (literal s) = marks s := by
  have hescape (cs : List Char) :
      occurrences bodyMark (escapeChars cs) = occurrences bodyMark cs := by
    induction cs with
    | nil => rfl
    | cons c cs ih =>
      rw [escapeChars]
      split
      · next hc =>
        obtain rfl := eq_of_beq hc
        have hquote (ds : List Char) : bodyMark.isPrefixOf ('\'' :: ds) = false := rfl
        rw [occurrences, occurrences, occurrences, hquote, hquote, hquote, ih]
        simp
      · -- whether a mark starts here depends on the next character only
        have hstart (ds : List Char) :
            bodyMark.isPrefixOf (c :: ds) = ('$' == c && some '$' == ds.head?) := by
          cases ds <;> simp [bodyMark, List.isPrefixOf]
        rw [occurrences, occurrences, ih, hstart, hstart, head?_escapeChars]
  rw [literal, marks_between (by decide) (by decide), marks, escape, String.toList_ofList, hescape,
    marks]

/-! ## Blocks -/

/-- The text between the marks of a block, up to its last word. -/
def blockLines (guards : List (String × String)) : String :=
  "\n".intercalate ("BEGIN" :: guards.flatMap fun guard => guardLines guard.1 guard.2)

theorem marks_blockLines (guards : List (String × String)) :
    marks (blockLines guards) = (guards.map fun guard => marks guard.1 + marks guard.2).sum := by
  have hlines (guard : String × String) :
      ((guardLines guard.1 guard.2).map marks).sum = marks guard.1 + marks guard.2 := by
    have hquery : marks ("  IF NOT EXISTS (" ++ guard.1 ++ ") THEN") = marks guard.1 :=
      marks_between (by decide) (by decide) guard.1
    have hstatement : marks ("    " ++ guard.2) = marks guard.2 :=
      marks_append_left (by decide) guard.2
    have hend : marks "  END IF;" = 0 := by decide
    simp only [guardLines, List.map_cons, List.map_nil, hquery, hstatement, hend, List.sum_cons,
      List.sum_nil, Nat.add_zero]
  have hbegin : marks "BEGIN" = 0 := by decide
  rw [blockLines, marks_intercalate (by decide) (by decide), List.map_cons, List.sum_cons, hbegin,
    Nat.zero_add]
  induction guards with
  | nil => rfl
  | cons guard guards ih =>
    rw [List.flatMap_cons, List.map_append, List.sum_append_nat, hlines, ih, List.map_cons,
      List.sum_cons]

theorem guardedBlock_eq (guards : List (String × String)) :
    guardedBlock guards = "DO $$" ++ ("\n" ++ blockLines guards ++ "\n") ++ "END $$;" := by
  have hconcat (s : String) (ss : List String) :
      "\n".intercalate (s :: ss ++ ["END $$;"]) =
        "\n".intercalate (s :: ss) ++ "\n" ++ "END $$;" := by
    induction ss generalizing s with
    | nil => rw [List.cons_append, List.nil_append, String.intercalate_cons_cons,
        String.intercalate_singleton, String.intercalate_singleton]
    | cons t ss ih =>
      rw [List.cons_append, List.cons_append, String.intercalate_cons_cons, ← List.cons_append, ih,
        String.intercalate_cons_cons]
      simp only [String.append_assoc]
  have hlines : guardedBlock guards = "\n".intercalate ("DO $$" :: ("BEGIN" ::
      guards.flatMap fun guard => guardLines guard.1 guard.2) ++ ["END $$;"]) := rfl
  rw [hlines, hconcat, String.intercalate_cons_cons, ← blockLines]
  simp only [String.append_assoc]

/-- The text that a block runs. -/
theorem toList_guardedBlock (guards : List (String × String)) :
    (guardedBlock guards).toList =
      doBlock (("\n" ++ blockLines guards ++ "\n").toList ++ "END ".toList) := by
  rw [guardedBlock_eq]
  simp [doBlock, marked, bodyMark]

/-- The marks of a block are its own two and those of its guards. -/
theorem marks_guardedBlock (guards : List (String × String)) :
    marks (guardedBlock guards) =
      2 + (guards.map fun guard => marks guard.1 + marks guard.2).sum := by
  have hopen : marks "DO $$" = 1 := by decide
  have hclose : marks "END $$;" = 1 := by decide
  rw [guardedBlock_eq, ← String.append_assoc, ← String.append_assoc, marks_apart (by decide)
    (by decide), marks_apart (by decide) (by decide), marks_blockLines, hopen, hclose]
  omega

theorem isUnmarked_guardedBlock_iff (guards : List (String × String)) :
    IsUnmarked (("\n" ++ blockLines guards ++ "\n").toList ++ "END ".toList) ↔
      (guards.map fun guard => marks guard.1 + marks guard.2).sum = 0 := by
  have hlist : ("\n" ++ blockLines guards ++ "\n").toList ++ "END ".toList ++ ['$'] =
      ("\n" ++ blockLines guards ++ "\nEND " ++ "$").toList := by
    simp
  have hdollar : marks "$" = 0 := by decide
  rw [IsUnmarked, hlist, ← marks, marks_apart (by decide) (by decide),
    marks_append_left (by decide), marks_blockLines, hdollar, Nat.add_zero]

end Sql

/-- Holds for a block that takes in texts: it has two marks, and is one body for PostgreSQL, exactly
when none of the texts has a mark, and then the layout keeps it as it is. -/
structure IsBlockOf (texts : List String) (sql : String) : Prop where
  two_marks_iff : Sql.marks sql = 2 ↔ ∀ text ∈ texts, Text.contains text "$$" = false
  one_body_iff : (∃ inside, sql = "DO $$" ++ inside ++ "END $$;" ∧
    Sql.verbatims sql.toList = [("$$" ++ inside ++ "END $$").toList]) ↔
      ∀ text ∈ texts, Text.contains text "$$" = false
  format_eq : (∀ text ∈ texts, Text.contains text "$$" = false) → format sql = .ok sql

namespace Sql

/-- A block takes in the queries and statements of its guards. -/
theorem isBlockOf_guardedBlock {guards : List (String × String)} {texts : List String}
    (h : (∀ guard ∈ guards, marks guard.1 + marks guard.2 = 0) ↔ ∀ text ∈ texts, marks text = 0) :
    IsBlockOf texts (guardedBlock guards) := by
  have hfree : (∀ text ∈ texts, marks text = 0) ↔ ∀ text ∈ texts, Text.contains text "$$" = false :=
    forall₂_congr fun text _ => marks_eq_zero_iff text
  have hsum : (guards.map fun guard => marks guard.1 + marks guard.2).sum = 0 ↔
      ∀ text ∈ texts, Text.contains text "$$" = false := by
    rw [← hfree, ← h, List.sum_eq_zero_iff_forall_eq_nat, List.forall_mem_map]
  have hblock := toList_guardedBlock guards
  have hunmarked := (isUnmarked_guardedBlock_iff guards).trans hsum
  refine ⟨?_, ?_, fun htexts => ?_⟩
  · rw [marks_guardedBlock, ← hsum]
    omega
  · rw [← hunmarked, ← verbatims_block_eq_iff, hblock]
    -- what stands between the outer marks is told by the text of the block
    constructor
    · rintro ⟨inside, heq, hbody⟩
      have hlist : ("DO $$" ++ inside ++ "END $$;").toList =
          'D' :: 'O' :: ' ' :: (("$$" ++ inside ++ "END $$").toList ++ [';']) := by simp
      have hall := hblock.symm.trans ((congrArg String.toList heq).trans hlist)
      rw [doBlock, List.cons_inj_right, List.cons_inj_right, List.cons_inj_right,
        List.append_cancel_right_eq] at hall
      rw [hbody, hall]
    · intro hbody
      refine ⟨_, guardedBlock_eq guards, ?_⟩
      rw [hbody]
      simp [marked, bodyMark]
  · have hformat := format_block (hunmarked.2 htexts)
    rwa [← hblock, String.ofList_toList] at hformat

end Sql

/-! ## Additions -/

/-- The texts that a clause takes in. -/
def ColumnClause.texts : ColumnClause → List String
  | default expression => [expression]
  | check condition => [condition]
  | collate collation => [collation]
  | primaryKey | null | notNull | unique => []

/-- The texts that the demand of a constraint takes in. -/
def ConstraintRule.texts : ConstraintRule → List String
  | check condition => [condition]
  | unique columns => columns
  | primaryKey columns => columns

/-- The texts that an addition takes in besides the name of its table. -/
def Addition.texts : Addition → List String
  | column d => d.name :: d.type.sql :: d.clauses.flatMap (·.texts)
  | constraint c => c.name :: c.rule.texts

open Sql

theorem ColumnClause.marks_eq_zero_iff (clause : ColumnClause) :
    marks clause.sql = 0 ↔ ∀ text ∈ clause.texts, marks text = 0 := by
  cases clause with
  | primaryKey | null | notNull | unique => exact iff_of_true (by decide) (by simp [texts])
  | default expression =>
    rw [sql, marks_append_left (by decide), texts, List.forall_mem_singleton]
  | check condition =>
    rw [sql, marks_between (by decide) (by decide), texts, List.forall_mem_singleton]
  | collate collation =>
    rw [sql, marks_between (by decide) (by decide), texts, List.forall_mem_singleton]

theorem ColumnDefinition.marks_eq_zero_iff (d : ColumnDefinition) :
    marks d.sql = 0 ↔ ∀ text ∈ (Addition.column d).texts, marks text = 0 := by
  have hclauses : (∀ clause ∈ d.clauses, marks clause.sql = 0) ↔
      ∀ text ∈ d.clauses.flatMap (·.texts), marks text = 0 := by
    rw [List.forall_mem_flatMap]
    exact forall₂_congr fun clause _ => clause.marks_eq_zero_iff
  rw [sql, marks_intercalate (by decide) (by decide), List.sum_eq_zero_iff_forall_eq_nat,
    List.forall_mem_map, List.forall_mem_cons, List.forall_mem_cons, List.forall_mem_map, hclauses,
    Addition.texts, List.forall_mem_cons, List.forall_mem_cons]

theorem Constraint.marks_ruleSql_eq_zero_iff (rule : ConstraintRule) :
    marks (ruleSql rule) = 0 ↔ ∀ text ∈ rule.texts, marks text = 0 := by
  have hcolumns (columns : List String) :
      marks (", ".intercalate columns) = 0 ↔ ∀ text ∈ columns, marks text = 0 := by
    rw [marks_intercalate (by decide) (by decide), List.sum_eq_zero_iff_forall_eq_nat,
      List.forall_mem_map]
  cases rule with
  | check condition =>
    rw [ruleSql, marks_between (by decide) (by decide), ConstraintRule.texts,
      List.forall_mem_singleton]
  | unique columns =>
    rw [ruleSql, marks_between (by decide) (by decide), hcolumns, ConstraintRule.texts]
  | primaryKey columns =>
    rw [ruleSql, marks_between (by decide) (by decide), hcolumns, ConstraintRule.texts]

/-- The guard of an addition is free of marks exactly when the texts that it takes in are. -/
theorem Addition.marks_eq_zero_iff (table : String) (a : Addition) :
    marks (a.query table) + marks (a.sql table) = 0 ↔
      marks table = 0 ∧ ∀ text ∈ a.texts, marks text = 0 := by
  cases a with
  | column d =>
    -- the query has the name of the column, which its definition has too
    have hquery : marks (query table (.column d)) = marks table + marks d.name := by
      rw [query_column, marks_apart (by decide) (by decide),
        marks_append_left (by decide), marks_literal, marks_literal]
    have hsql : marks (sql table (.column d)) = marks table + marks d.sql := by
      rw [sql_column, marks_append_right (by decide), marks_apart (by decide) (by decide),
        marks_append_left (by decide)]
    have htexts := d.marks_eq_zero_iff
    rw [hquery, hsql, ← htexts]
    have hname : marks d.sql = 0 → marks d.name = 0 := fun h => htexts.1 h d.name List.mem_cons_self
    omega
  | constraint c =>
    have hquery : marks (query table (.constraint c)) = marks c.name := by
      rw [query_constraint, marks_append_left (by decide), marks_literal]
    have hsql : marks (sql table (.constraint c)) =
        marks table + marks c.name + marks (Constraint.ruleSql c.rule) := by
      rw [sql_constraint, marks_apart (by decide) (by decide), marks_apart (by decide) (by decide),
        marks_append_left (by decide), marks_append_right (b := ";") (by decide)]
    rw [hquery, hsql, texts, List.forall_mem_cons, ← Constraint.marks_ruleSql_eq_zero_iff]
    omega

theorem Statement.isBlockOf_addMissing (table : String) {additions : List Addition}
    (hne : additions ≠ []) :
    IsBlockOf (table :: additions.flatMap (·.texts)) (addMissing table additions).sql := by
  refine isBlockOf_guardedBlock ?_
  obtain ⟨a, ha⟩ := List.exists_mem_of_ne_nil additions hne
  rw [List.forall_mem_map, List.forall_mem_cons, List.forall_mem_flatMap]
  simp only [Addition.marks_eq_zero_iff]
  exact ⟨fun h => ⟨(h a ha).1, fun b hb => (h b hb).2⟩, fun h b hb => ⟨h.1, h.2 b hb⟩⟩

/-! ## Tables -/

/-- The texts of a column: its collation is one of them unless it is empty. -/
def Column.texts (c : Column) : List String :=
  c.name :: c.type.sql :: ((c.default.map (·.expression)).toList ++ c.checks ++
    (c.collation.filter (· != "")).toList)

namespace Table

variable (t : Table)

/-- The texts that the block of the missing columns takes in. -/
def columnTexts : List String :=
  t.name :: (t.columns.filter fun c => !c.primaryKey).flatMap Column.texts

/-- The texts that the block of the missing constraints takes in. -/
def constraintTexts : List String :=
  t.name :: t.constraints.flatMap fun c => c.name :: c.rule.texts

theorem texts_definition (explicit : Bool) (c : Column) :
    (Addition.column (c.definition false explicit)).texts = c.texts := by
  -- clauses without text of their own add nothing
  have hnullability : (c.nullability explicit).flatMap (·.texts) = [] := by
    unfold Column.nullability
    split <;> split <;> rfl
  have hunique : (if c.unique && !c.primaryKey then [ColumnClause.unique] else []).flatMap
      (·.texts) = [] := by
    split <;> rfl
  have hdefault : (c.default.map fun d => ColumnClause.default d.expression).toList.flatMap
      (·.texts) = (c.default.map (·.expression)).toList := by
    cases c.default <;> rfl
  have hchecks : (c.checks.map ColumnClause.check).flatMap (·.texts) = c.checks := by
    rw [List.flatMap_map]
    exact List.flatMap_singleton' c.checks
  have hcollation : ((c.collation.filter (· != "")).map ColumnClause.collate).toList.flatMap
      (·.texts) = (c.collation.filter (· != "")).toList := by
    cases c.collation.filter (· != "") <;> rfl
  have hclauses : (c.clauses false explicit).flatMap (·.texts) =
      (c.default.map (·.expression)).toList ++ c.checks ++
        (c.collation.filter (· != "")).toList := by
    rw [Column.clauses, Bool.and_false]
    simp only [Bool.false_eq_true, if_false, List.nil_append, List.flatMap_append, hnullability,
      hunique, hdefault, hchecks, hcollation]
  rw [Addition.texts, Column.texts, ← hclauses]
  rfl

theorem isBlockOf_of_mem_addMissing {additions : List Addition} {s : Statement}
    (h : s ∈ t.addMissing additions) :
    IsBlockOf (t.name :: additions.flatMap (·.texts)) s.sql := by
  unfold addMissing at h
  split at h
  · simp at h
  · next hempty =>
    obtain rfl := List.mem_singleton.1 h
    exact Statement.isBlockOf_addMissing t.name (by simpa using hempty)

/-- The blocks that add the columns and the constraints that a table lacks. -/
theorem guardedBlocks (explicit : Bool) :
    (∀ s ∈ t.addMissingColumns explicit, IsBlockOf t.columnTexts s.sql) ∧
    ∀ blocks, t.addMissingConstraints = .ok blocks →
      ∀ s ∈ blocks, IsBlockOf t.constraintTexts s.sql := by
  constructor
  · intro s hs
    have hblock := t.isBlockOf_of_mem_addMissing hs
    rw [addableColumns, List.map_map, List.flatMap_map] at hblock
    simpa only [columnTexts, Function.comp_apply, texts_definition] using hblock
  · intro blocks h s hs
    obtain ⟨-, -, hblocks⟩ := bind_eq_ok_iff.1 h
    obtain rfl := Except.ok.inj hblocks
    have hblock := t.isBlockOf_of_mem_addMissing hs
    rw [List.flatMap_map] at hblock
    exact hblock

/-- The two blocks of the table of orders are one body each, and stay as they are. -/
theorem guardedBlocks_orders :
    (∃ s, ordersTable.addMissingColumns false = [s] ∧
      Sql.marks s.sql = 2 ∧ format s.sql = .ok s.sql) ∧
    ∃ s, ordersTable.addMissingConstraints = .ok [s] ∧
      Sql.marks s.sql = 2 ∧ format s.sql = .ok s.sql := by
  obtain ⟨hcolumns, hconstraints⟩ := ordersTable.guardedBlocks false
  constructor
  · have hclean : ∀ text ∈ ordersTable.columnTexts, Text.contains text "$$" = false := by
      decide
    have hblock := hcolumns _ List.mem_cons_self
    exact ⟨_, rfl, hblock.two_marks_iff.2 hclean, hblock.format_eq hclean⟩
  · have hclean : ∀ text ∈ ordersTable.constraintTexts, Text.contains text "$$" = false := by
      decide
    have hblock := hconstraints _ rfl _ List.mem_cons_self
    exact ⟨_, rfl, hblock.two_marks_iff.2 hclean, hblock.format_eq hclean⟩

/-- A table with a default between dollar marks. -/
def markedTable : Table where
  name := "t"
  columns :=
    [{ name := "a", type := .plain .text rfl, nullable := true, primaryKey := false,
       unique := false, default := some ⟨.expression, "$$ $$", "", by decide⟩, conditions := [],
       rules := [], collation := none, comment := none, name_nonempty := by decide }]
  indexes := []
  policies := []
  foreignKeys := []
  constraints := []
  comment := none
  rowSecurity := false
  partition := none
  name_nonempty := t_ne_empty
  columns_nodup := by decide

/-- The default ends the body of the block, and the layout changes what stands behind it. -/
theorem guardedBlocks_marked : ∃ s, markedTable.addMissingColumns false = [s] ∧
    Sql.marks s.sql ≠ 2 ∧ format s.sql ≠ .ok s.sql := by
  refine ⟨.addMissing "t" ((markedTable.addableColumns false).map .column), rfl, fun h => ?_,
    fun h => ?_⟩
  · have hblock := Statement.isBlockOf_addMissing "t"
      (show (markedTable.addableColumns false).map Addition.column ≠ [] from List.cons_ne_nil _ _)
    have hdefault := hblock.two_marks_iff.1 h "$$ $$" (by decide +kernel)
    exact absurd hdefault (by decide)
  · have hchanged : (format (Statement.addMissing "t"
        ((markedTable.addableColumns false).map .column)).sql).toOption ≠
        some (Statement.addMissing "t" ((markedTable.addableColumns false).map .column)).sql := by
      decide +kernel
    exact hchanged (congrArg Except.toOption h)

end Table
end PgSchema
