/-
# Comments on what a script creates

A comment names an object, and fails if there is none.  The objects that are there at some point of
a script are those that its statements have created since a table was last dropped.  Every builder
writes a comment behind the statement that creates what it is about, and the comments at the end of
a script are about the new table, its columns and its constraints.

* `Script.WellScoped` : every comment is about an object that is there;
* `Script.Documents` : what a part of a script needs to be there in front of it;
* `Table.comment_after_creation` : what stands in front of a comment in the script of a table.
-/
import Mathlib.Data.List.Induction
import PgSchema.Proofs.Table.Key
import PgSchema.Proofs.Table.Mode
import PgSchema.Proofs.Text.Span

namespace PgSchema

/-! ## Objects -/

/-- The object that an element of a new table makes. -/
def TableElement.object? (table : String) : TableElement → Option CommentTarget
  | column d => some (.column table d.name)
  | constraint c => some (.constraint table c.name)
  | primaryKey _ => none

/-- The object that an addition makes. -/
def Addition.object (table : String) : Addition → CommentTarget
  | column d => .column table d.name
  | constraint c => .constraint table c.name

namespace Statement

/-- The objects that a statement creates. -/
def creates : Statement → List CommentTarget
  | createTable table _ elements _ => .table table :: elements.filterMap (·.object? table)
  | addColumn table d => [.column table d.name]
  | addMissing table additions => additions.map (·.object table)
  | createIndex table index => [.index (index.effectiveName table)]
  | addForeignKey table key => [.constraint table (key.effectiveName table)]
  | createPolicy table policy => [.policy table policy.name]
  | dropTable _ | enableRowSecurity _ | comment _ _ => []

/-- Holds for a statement that drops a table. -/
def drops : Statement → Bool
  | dropTable _ => true
  | _ => false

/-- The object that a comment is about. -/
def commented? : Statement → Option CommentTarget
  | comment target _ => some target
  | _ => none

/-- The objects that are there behind a statement, given those in front of it.  Once a table has
been dropped, nothing is taken to be there. -/
def scopeBehind (scope : List CommentTarget) (s : Statement) : List CommentTarget :=
  if s.drops then [] else scope ++ s.creates

end Statement

namespace Script

/-- Holds for a script whose comments are about objects that are there, given the objects that are
there in front of it. -/
def WellScoped (scope : List CommentTarget) : Script → Prop
  | [] => True
  | s :: script =>
    (∀ target ∈ s.commented?, target ∈ scope) ∧ WellScoped (s.scopeBehind scope) script

/-- The objects that are there behind a script. -/
def scopeBehind (scope : List CommentTarget) (script : Script) : List CommentTarget :=
  script.foldl Statement.scopeBehind scope

variable {scope scope' : List CommentTarget} {script xs ys : Script} {s : Statement}

theorem wellScoped_append :
    WellScoped scope (xs ++ ys) ↔ WellScoped scope xs ∧ WellScoped (scopeBehind scope xs) ys := by
  induction xs generalizing scope with
  | nil => simp [WellScoped, scopeBehind]
  | cons s xs ih =>
    rw [List.cons_append, WellScoped, WellScoped, ih, and_assoc]
    rfl

/-- More objects in front of a script do no harm. -/
theorem WellScoped.mono (hscope : scope ⊆ scope') (h : WellScoped scope script) :
    WellScoped scope' script := by
  induction script generalizing scope scope' with
  | nil => trivial
  | cons s script ih =>
    refine ⟨fun target htarget => hscope (h.1 target htarget), ih ?_ h.2⟩
    unfold Statement.scopeBehind
    split
    · exact List.Subset.refl _
    · exact List.append_subset.2
        ⟨List.Subset.trans hscope (List.subset_append_left ..), List.subset_append_right ..⟩

/-- An object that is there was created by a statement behind which no table is dropped, or was
there before. -/
theorem mem_scopeBehind {target : CommentTarget} (h : target ∈ scopeBehind scope script) :
    target ∈ scope ∨ ∃ early create late, script = early ++ create :: late ∧
      target ∈ create.creates ∧ ∀ s ∈ late, s.drops = false := by
  induction script using List.reverseRecOn with
  | nil => exact .inl h
  | append_singleton script s ih =>
    rw [scopeBehind, List.foldl_append, List.foldl_cons, List.foldl_nil] at h
    unfold Statement.scopeBehind at h
    split at h
    · simp at h
    · next hkeeps =>
      rcases List.mem_append.1 h with hold | hnew
      · obtain hscope | ⟨early, create, late, rfl, hcreates, hlate⟩ := ih hold
        · exact .inl hscope
        · refine .inr ⟨early, create, late ++ [s], by simp, hcreates, ?_⟩
          intro s' hs'
          rcases List.mem_append.1 hs' with hmem | hmem
          · exact hlate s' hmem
          · rw [List.mem_singleton.1 hmem]
            exact Bool.not_eq_true _ ▸ hkeeps
      · exact .inr ⟨script, s, [], rfl, hnew, by simp⟩

/-! ## Parts of scripts -/

/-- Holds for a part of a script that drops nothing and whose comments are about the given objects
and what the part itself creates. -/
structure Documents (objects : List CommentTarget) (script : Script) : Prop where
  wellScoped : WellScoped objects script
  keeps : ∀ s ∈ script, s.drops = false

theorem subset_scopeBehind (h : ∀ s ∈ script, s.drops = false) :
    scope ⊆ scopeBehind scope script := by
  induction script generalizing scope with
  | nil => exact List.Subset.refl _
  | cons s script ih =>
    obtain ⟨hs, hscript⟩ := List.forall_mem_cons.1 h
    have hkeeps : s.scopeBehind scope = scope ++ s.creates := by
      simp [Statement.scopeBehind, hs]
    change scope ⊆ scopeBehind (s.scopeBehind scope) script
    rw [hkeeps]
    exact List.Subset.trans (List.subset_append_left ..) (ih hscript)

variable {objects : List CommentTarget}

theorem Documents.append (hxs : Documents objects xs) (hys : Documents objects ys) :
    Documents objects (xs ++ ys) where
  wellScoped := wellScoped_append.2
    ⟨hxs.wellScoped, hys.wellScoped.mono (subset_scopeBehind hxs.keeps)⟩
  keeps := List.forall_mem_append.2 ⟨hxs.keeps, hys.keeps⟩

theorem Documents.flatten {parts : List Script} (h : ∀ part ∈ parts, Documents objects part) :
    Documents objects parts.flatten := by
  induction parts with
  | nil => exact ⟨trivial, by simp⟩
  | cons part parts ih =>
    obtain ⟨hpart, hparts⟩ := List.forall_mem_cons.1 h
    exact hpart.append (ih hparts)

/-- A part without comments refers to nothing. -/
theorem documents_of_forall (h : ∀ s ∈ script, s.commented? = none ∧ s.drops = false) :
    Documents objects script where
  wellScoped := by
    induction script generalizing objects with
    | nil => trivial
    | cons s script ih =>
      obtain ⟨hs, hscript⟩ := List.forall_mem_cons.1 h
      exact ⟨by simp [hs.1], ih hscript⟩
  keeps s hs := (h s hs).2

theorem documents_commentOn {target : CommentTarget} (h : target ∈ objects)
    (text : Option String) : Documents objects (Statement.commentOn target text) := by
  unfold Statement.commentOn
  split
  · exact ⟨⟨by simpa [Statement.commented?] using h, trivial⟩, by simp [Statement.drops]⟩
  · exact ⟨trivial, by simp⟩

/-- A statement and a comment on what it creates. -/
theorem documents_cons_commentOn {target : CommentTarget} (hcreates : target ∈ s.creates)
    (hnone : s.commented? = none) (hkeeps : s.drops = false) (comments : Bool)
    (text : Option String) :
    Documents objects (s :: if comments then Statement.commentOn target text else []) := by
  have hscope : s.scopeBehind objects = objects ++ s.creates := by
    simp [Statement.scopeBehind, hkeeps]
  have hrest : Documents (s.scopeBehind objects)
      (if comments then Statement.commentOn target text else []) := by
    split
    · refine documents_commentOn ?_ text
      rw [hscope]
      exact List.mem_append_right objects hcreates
    · exact ⟨trivial, by simp⟩
  exact ⟨⟨by simp [hnone], hrest.wellScoped⟩, List.forall_mem_cons.2 ⟨hkeeps, hrest.keeps⟩⟩

end Script

/-! ## The steps of a migration -/

namespace Table

variable {t : Table} {config : Config} {script : Script}

/-- The objects of a new table: itself, its columns and its constraints. -/
def objects (t : Table) : List CommentTarget :=
  .table t.name :: (t.columns.map fun c => .column t.name c.name) ++
    t.constraints.map fun c => .constraint t.name c.name

/-- What is read off the elements of a new table if nothing is read off its key. -/
theorem filterMap_elements {α : Type} {f : TableElement → Option α}
    (hkey : ∀ columns, f (.primaryKey columns) = none) (explicit : Bool) :
    (t.elements explicit).filterMap f =
      (t.columns.filterMap fun c =>
        f (.column (c.definition (!t.hasCompositeEffectiveKey) explicit))) ++
        t.constraints.filterMap fun c => f (.constraint c) := by
  have hend : (if t.hasCompositeEffectiveKey then [TableElement.primaryKey t.effectiveKey]
      else []).filterMap f = [] := by
    split <;> simp [hkey]
  rw [elements, List.filterMap_append, List.filterMap_append, hend, List.filterMap_map,
    List.filterMap_map, List.append_nil]
  rfl

theorem creates_createTable (unlessExists explicit : Bool) :
    (Statement.createTable t.name unlessExists (t.elements explicit) t.partition).creates =
      t.objects := by
  rw [Statement.creates, filterMap_elements fun _ => rfl, objects]
  simp only [TableElement.object?, Column.definition, List.filterMap_eq_map', List.cons_append]

variable {objects : List CommentTarget}

theorem documents_addMissing (additions : List Addition) :
    Script.Documents objects (t.addMissing additions) := by
  refine Script.documents_of_forall ?_
  unfold addMissing
  split <;> simp [Statement.commented?, Statement.drops]

theorem documents_columnStatements : Script.Documents objects (Step.columnStatements config t) := by
  unfold Step.columnStatements
  split
  · exact ⟨trivial, by simp⟩
  · split
    · exact documents_addMissing _
    · refine Script.documents_of_forall fun s hs => ?_
      obtain ⟨d, -, rfl⟩ := List.mem_map.1 hs
      exact ⟨rfl, rfl⟩

theorem documents_createIndexes {comments : Bool} (h : t.createIndexes comments = .ok script) :
    Script.Documents objects script := by
  obtain ⟨parts, hparts, hscript⟩ := bind_eq_ok_iff.1 h
  obtain rfl := Except.ok.inj hscript
  refine Script.Documents.flatten (forall_of_mapM_eq_ok (fun index _ part hpart => ?_) hparts)
  obtain ⟨-, -, hrest⟩ := bind_eq_ok_iff.1 hpart
  obtain ⟨-, -, hpart⟩ := bind_eq_ok_iff.1 hrest
  obtain rfl := Except.ok.inj hpart
  exact Script.documents_cons_commentOn (by simp [Statement.creates]) rfl rfl comments _

theorem documents_addForeignKeys {comments : Bool} (h : t.addForeignKeys comments = .ok script) :
    Script.Documents objects script := by
  obtain ⟨-, -, hrest⟩ := bind_eq_ok_iff.1 h
  obtain ⟨parts, hparts, hscript⟩ := bind_eq_ok_iff.1 hrest
  obtain rfl := Except.ok.inj hscript
  refine Script.Documents.flatten (forall_of_mapM_eq_ok (fun key _ part hpart => ?_) hparts)
  obtain ⟨s, hs, hpart⟩ := bind_eq_ok_iff.1 hpart
  obtain rfl := Except.ok.inj hpart
  unfold foreignKeyStatement at hs
  split at hs
  · simp at hs
  · obtain rfl := Except.ok.inj hs
    exact Script.documents_cons_commentOn (by simp [Statement.creates]) rfl rfl comments _

theorem documents_secureRows {comments : Bool} (h : t.secureRows comments = .ok script) :
    Script.Documents objects script := by
  obtain ⟨parts, hparts, hscript⟩ := bind_eq_ok_iff.1 h
  obtain rfl := Except.ok.inj hscript
  refine Script.Documents.append (Script.documents_of_forall ?_)
    (Script.Documents.flatten (forall_of_mapM_eq_ok (fun policy _ part hpart => ?_) hparts))
  · split <;> simp [Statement.commented?, Statement.drops]
  · obtain ⟨s, hs, hpart⟩ := bind_eq_ok_iff.1 hpart
    obtain rfl := Except.ok.inj hpart
    unfold policyStatement at hs
    split at hs
    · simp at hs
    · obtain rfl := Except.ok.inj hs
      exact Script.documents_cons_commentOn (by simp [Statement.creates]) rfl rfl comments _

theorem documents_allComments (hobjects : t.objects ⊆ objects) :
    Script.Documents objects t.allComments := by
  refine Script.Documents.append (Script.Documents.append ?_ ?_) ?_
  · exact Script.documents_commentOn (hobjects List.mem_cons_self) _
  · refine Script.Documents.flatten fun part hpart => ?_
    obtain ⟨c, hc, rfl⟩ := List.mem_map.1 hpart
    refine Script.documents_commentOn (hobjects ?_) _
    exact List.mem_append_left _ (List.mem_cons_of_mem _ (List.mem_map_of_mem hc))
  · refine Script.Documents.flatten fun part hpart => ?_
    obtain ⟨c, hc, rfl⟩ := List.mem_map.1 hpart
    refine Script.documents_commentOn (hobjects ?_) _
    exact List.mem_append_right _ (List.mem_map_of_mem hc)

/-- Of the steps behind the creation of a table, only the last one needs what the new table is made
of. -/
theorem documents_statements {step : Step} (hstep : step ∈ Step.alter ++ Step.tail)
    (hobjects : step = .writeComments → t.objects ⊆ objects)
    (h : step.statements config t = .ok script) : Script.Documents objects script := by
  cases step with
  | createTable unlessExists => simp [Step.alter, Step.tail] at hstep
  | dropTable => simp [Step.alter, Step.tail] at hstep
  | addColumns =>
    obtain rfl := Except.ok.inj h
    exact documents_columnStatements
  | addConstraints =>
    rw [Step.statements] at h
    split at h
    · obtain ⟨-, -, hadditions⟩ := bind_eq_ok_iff.1 h
      obtain rfl := Except.ok.inj hadditions
      exact documents_addMissing _
    · obtain rfl := Except.ok.inj h
      exact ⟨trivial, by simp⟩
  | createIndexes =>
    rw [Step.statements] at h
    split at h
    · exact documents_createIndexes h
    · obtain rfl := Except.ok.inj h
      exact ⟨trivial, by simp⟩
  | addForeignKeys => exact documents_addForeignKeys h
  | secureRows => exact documents_secureRows h
  | writeComments =>
    obtain rfl := Except.ok.inj h
    split
    · exact documents_allComments (hobjects rfl)
    · exact ⟨trivial, by simp⟩

theorem documents_runAll {steps : List Step} (hsteps : steps ⊆ Step.alter ++ Step.tail)
    (hobjects : .writeComments ∈ steps → t.objects ⊆ objects)
    (h : (Step.runAll config t steps).result = .ok script) : Script.Documents objects script := by
  rw [Step.result_runAll] at h
  obtain ⟨parts, hparts, rfl⟩ := map_eq_ok_iff.1 h
  refine Script.Documents.flatten (forall_of_mapM_eq_ok (fun step hstep _ => ?_) hparts)
  exact documents_statements (hsteps hstep) fun heq => hobjects (heq ▸ hstep)

/-- The first of several steps, and the others. -/
theorem exists_of_runAll_cons {step : Step} {steps : List Step}
    (h : (Step.runAll config t (step :: steps)).result = .ok script) :
    ∃ first rest, step.statements config t = .ok first ∧
      (Step.runAll config t steps).result = .ok rest ∧ script = first ++ rest := by
  rw [← List.singleton_append, Step.result_runAll_append, Step.result_runAll_singleton] at h
  obtain ⟨first, hfirst, hmap⟩ := bind_eq_ok_iff.1 h
  obtain ⟨rest, hrest, rfl⟩ := map_eq_ok_iff.1 hmap
  exact ⟨first, rest, hfirst, hrest, rfl⟩

/-- The statement that creates a table, and what the steps behind it contribute. -/
theorem wellScoped_create {unlessExists : Bool} {steps : List Step}
    (hsteps : steps ⊆ Step.alter ++ Step.tail)
    (h : (Step.runAll config t (.createTable unlessExists :: steps)).result = .ok script)
    (scope : List CommentTarget) : script.WellScoped scope := by
  obtain ⟨first, rest, hfirst, hrest, rfl⟩ := exists_of_runAll_cons h
  obtain ⟨s, hs, hpure⟩ := bind_eq_ok_iff.1 hfirst
  obtain rfl := Except.ok.inj hpure
  obtain rfl := eq_of_createStatement_eq_ok hs
  refine ⟨by simp [Statement.commented?], (documents_runAll hsteps (fun _ => ?_) hrest).wellScoped⟩
  rw [Statement.scopeBehind, if_neg (by simp [Statement.drops]), creates_createTable]
  exact List.subset_append_right ..

/-- The comments of a script are about what it has created itself. -/
theorem wellScoped_script (h : (t.script config).result = .ok script) : script.WellScoped [] := by
  have htail : Step.tail ⊆ Step.alter ++ Step.tail := List.subset_append_right ..
  rw [Table.script, Run.result_bind, Run.result_report] at h
  change (Step.runAll config t config.migration.mode.steps).result = .ok script at h
  cases hmode : config.migration.mode with
  | createOnly => rw [hmode] at h; exact wellScoped_create htail h []
  | createIfNotExists => rw [hmode] at h; exact wellScoped_create htail h []
  | createOrAlter => rw [hmode] at h; exact wellScoped_create (List.Subset.refl _) h []
  | alterOnly =>
    rw [hmode] at h
    exact (documents_runAll (List.subset_append_left ..) (by simp [Step.alter]) h).wellScoped
  | dropAndRecreate =>
    rw [hmode] at h
    obtain ⟨first, rest, hfirst, hrest, rfl⟩ := exists_of_runAll_cons h
    obtain rfl := Except.ok.inj hfirst
    exact ⟨by simp [dropStatement, Statement.commented?], wellScoped_create htail hrest _⟩

end Table

/-! ## Text -/

/-- What introduces an object in the statement that creates it. -/
def CommentTarget.opening : CommentTarget → String
  | table t => t ++ " ("
  | column _ c => " " ++ c ++ " "
  | constraint _ c => "CONSTRAINT " ++ c
  | index i => "IF NOT EXISTS " ++ i ++ " ON "
  | policy t p => "CREATE POLICY " ++ p ++ " ON " ++ t

theorem CommentTarget.opening_table (t : String) : (table t).opening = t ++ " (" := rfl

theorem CommentTarget.opening_column (t c : String) :
    (column t c).opening = " " ++ c ++ " " := rfl

theorem CommentTarget.opening_constraint (t c : String) :
    (constraint t c).opening = "CONSTRAINT " ++ c := rfl

theorem CommentTarget.opening_index (i : String) :
    (index i).opening = "IF NOT EXISTS " ++ i ++ " ON " := rfl

section Opening

variable {table : String}

theorem TableElement.contains_opening {element : TableElement} {object : CommentTarget}
    (h : element.object? table = some object) :
    Text.contains ("\n  " ++ element.sql) object.opening = true := by
  cases element with
  | column d =>
    obtain rfl := Option.some.inj h
    obtain ⟨rest, hd⟩ := Addition.exists_sql_append d
    have hindent : ("\n  " : String) = "\n " ++ " " := rfl
    refine Text.contains_iff.2 ⟨"\n ", rest, ?_⟩
    rw [TableElement.sql, hd, hindent, CommentTarget.opening_column]
    simp only [String.append_assoc]
  | constraint c =>
    obtain rfl := Option.some.inj h
    refine Text.contains_iff.2 ⟨"\n  ", " " ++ Constraint.ruleSql c.rule, ?_⟩
    rw [TableElement.sql, Constraint.sql, CommentTarget.opening_constraint]
    simp only [String.append_assoc]
  | primaryKey columns => cases h

theorem Addition.contains_opening (a : Addition) :
    Text.contains (a.sql table) (a.object table).opening = true := by
  cases a with
  | column d =>
    obtain ⟨rest, hd⟩ := Addition.exists_sql_append d
    have hadd : (" ADD COLUMN " : String) = " ADD COLUMN" ++ " " := rfl
    refine Text.contains_iff.2 ⟨"ALTER TABLE " ++ table ++ " ADD COLUMN", rest ++ ";", ?_⟩
    rw [Addition.sql_column, hd, hadd, Addition.object, CommentTarget.opening_column]
    simp only [String.append_assoc]
  | constraint c =>
    have hadd : (" ADD CONSTRAINT " : String) = " ADD " ++ "CONSTRAINT " := rfl
    refine Text.contains_iff.2
      ⟨"ALTER TABLE " ++ table ++ " ADD ", " " ++ (Constraint.ruleSql c.rule ++ ";"), ?_⟩
    rw [Addition.sql_constraint, hadd, Addition.object, CommentTarget.opening_constraint]
    simp only [String.append_assoc]

namespace Statement

/-- A block has the statements in it that add what is missing. -/
theorem contains_addition {additions : List Addition} {a : Addition}
    (h : a ∈ additions) : Text.contains (addMissing table additions).sql (a.sql table) = true := by
  have hline : "    " ++ a.sql table ∈ Sql.guardLines (a.query table) (a.sql table) :=
    List.mem_cons_of_mem _ List.mem_cons_self
  refine Text.contains_trans (Text.contains_iff.2 ⟨"    ", "", String.append_empty.symm⟩)
    (Text.contains_intercalate (List.mem_append_left _ (List.mem_append_right _ ?_)))
  exact List.mem_flatMap.2 ⟨_, List.mem_map_of_mem h, hline⟩

theorem contains_opening_createTable {unlessExists : Bool} {elements : List TableElement}
    {partition : Option Partition} {object : CommentTarget}
    (h : object ∈ (createTable table unlessExists elements partition).creates) :
    Text.contains (createTable table unlessExists elements partition).sql object.opening =
      true := by
  rw [sql_createTable]
  rcases List.mem_cons.1 h with rfl | hmem
  · refine Text.contains_append_left _ (Text.contains_append_left _ (Text.contains_iff.2
      ⟨if unlessExists then "CREATE TABLE IF NOT EXISTS " else "CREATE TABLE ", "", ?_⟩))
    rw [beforeBody, CommentTarget.opening_table, String.append_empty, String.append_assoc]
  · obtain ⟨element, helement, hobject⟩ := List.mem_filterMap.1 hmem
    obtain ⟨before, after, hline⟩ := exists_line_of_mem helement
    have hbody : Text.contains (bodySql elements) ("\n  " ++ element.sql) = true :=
      Text.contains_iff.2 ⟨before, after, by simp only [hline, String.append_assoc]⟩
    refine Text.contains_append_left _ (Text.contains_append_right _ ?_)
    exact Text.contains_trans (TableElement.contains_opening hobject) hbody

/-- A statement that creates an object has the name of the object where such a statement has it. -/
theorem contains_opening {s : Statement} {object : CommentTarget} (h : object ∈ s.creates) :
    Text.contains s.sql object.opening = true := by
  cases s with
  | createTable table unlessExists elements partition => exact contains_opening_createTable h
  | addColumn table d =>
    obtain rfl := List.mem_singleton.1 h
    obtain ⟨rest, hd⟩ := Addition.exists_sql_append d
    have hadd : (" ADD COLUMN IF NOT EXISTS " : String) = " ADD COLUMN IF NOT EXISTS" ++ " " := rfl
    have hsql : (addColumn table d).sql =
        "ALTER TABLE " ++ table ++ " ADD COLUMN IF NOT EXISTS " ++ d.sql ++ ";" := rfl
    refine Text.contains_iff.2
      ⟨"ALTER TABLE " ++ table ++ " ADD COLUMN IF NOT EXISTS", rest ++ ";", ?_⟩
    rw [hsql, hd, hadd, CommentTarget.opening_column]
    simp only [String.append_assoc]
  | addMissing table additions =>
    obtain ⟨a, ha, rfl⟩ := List.mem_map.1 h
    exact Text.contains_trans a.contains_opening (contains_addition ha)
  | createIndex table index =>
    obtain rfl := List.mem_singleton.1 h
    have hclause : "IF NOT EXISTS " ++ index.effectiveName table ++ " ON " ++ table ∈
        indexClauses table index := by
      simp [indexClauses]
    refine Text.contains_append_left ";"
      (Text.contains_trans ?_ (Text.contains_intercalate hclause))
    exact Text.contains_iff.2 ⟨"", table, by rw [String.empty_append, CommentTarget.opening_index]⟩
  | addForeignKey table key =>
    obtain rfl := List.mem_singleton.1 h
    have hadd : (" ADD CONSTRAINT " : String) = " ADD " ++ "CONSTRAINT " := rfl
    have hclause : "ALTER TABLE " ++ table ++ " ADD CONSTRAINT " ++ key.effectiveName table ∈
        foreignKeyClauses table key := by
      simp [foreignKeyClauses]
    refine Text.contains_append_left ";"
      (Text.contains_trans ?_ (Text.contains_intercalate hclause))
    refine Text.contains_iff.2 ⟨"ALTER TABLE " ++ table ++ " ADD ", "", ?_⟩
    rw [hadd, CommentTarget.opening_constraint]
    simp only [String.append_assoc, String.append_empty]
  | createPolicy table policy =>
    obtain rfl := List.mem_singleton.1 h
    have hclause : "CREATE POLICY " ++ policy.name ++ " ON " ++ table ∈
        policyClauses table policy := by
      simp [policyClauses]
    exact Text.contains_append_left ";" (Text.contains_intercalate hclause)
  | dropTable table => simp [creates] at h
  | enableRowSecurity table => simp [creates] at h
  | comment target text => simp [creates] at h

/-- What every statement but a comment starts with. -/
theorem exists_opening_word {s : Statement} (h : s.commented? = none) :
    ∃ word ∈ ["CREATE", "DROP", "ALTER", "DO"], word.toList <+: s.sql.toList := by
  have hcreate : "CREATE" ∈ ["CREATE", "DROP", "ALTER", "DO"] := by decide
  have halter : "ALTER" ∈ ["CREATE", "DROP", "ALTER", "DO"] := by decide
  cases s with
  | createTable table unlessExists elements partition =>
    rw [sql_createTable]
    refine ⟨_, hcreate, Text.prefix_append (Text.prefix_append (Text.prefix_append
      (Text.prefix_append ?_)))⟩
    cases unlessExists <;> decide
  | dropTable table =>
    exact ⟨"DROP", by decide, Text.prefix_append (Text.prefix_append (by decide))⟩
  | addColumn table d =>
    exact ⟨_, halter, Text.prefix_append (Text.prefix_append (Text.prefix_append
      (Text.prefix_append (by decide))))⟩
  | addMissing table additions =>
    refine ⟨"DO", by decide, Text.prefix_intercalate ?_⟩
    decide
  | createIndex table index =>
    exact ⟨_, hcreate, Text.prefix_append (Text.prefix_intercalate (by decide))⟩
  | addForeignKey table key =>
    exact ⟨_, halter, Text.prefix_append (Text.prefix_intercalate
      (Text.prefix_append (Text.prefix_append (Text.prefix_append (by decide)))))⟩
  | enableRowSecurity table =>
    exact ⟨_, halter, Text.prefix_append (Text.prefix_append (by decide))⟩
  | createPolicy table policy =>
    exact ⟨_, hcreate, Text.prefix_append (Text.prefix_intercalate
      (Text.prefix_append (Text.prefix_append (Text.prefix_append (by decide)))))⟩
  | comment target text => cases h

/-- Only comments start as comments do. -/
theorem exists_eq_comment {s : Statement} {rest : String} (h : s.sql = "COMMENT ON " ++ rest) :
    ∃ target text, s = .comment target text := by
  by_contra hnot
  have hnone : s.commented? = none := by
    cases s with
    | comment target text => exact absurd ⟨target, text, rfl⟩ hnot
    | _ => rfl
  obtain ⟨word, hword, hstart⟩ := exists_opening_word hnone
  rw [h, String.toList_append] at hstart
  simp only [List.mem_cons, List.not_mem_nil, or_false] at hword
  rcases hword with rfl | rfl | rfl | rfl <;> simp at hstart

end Statement

end Opening

/-! ## Comments -/

/-- In the script of a table, the object of every comment has been created by a statement in front
of it, under the name that the comment has for it, and no table is dropped in between. -/
theorem Table.comment_after_creation {t : Table} {config : Config} {before after : Script}
    {s : Statement} {rest : String}
    (hscript : (t.script config).result = .ok (before ++ s :: after))
    (hcomment : s.sql = "COMMENT ON " ++ rest) :
    ∃ target text, s = .comment target text ∧ ∃ early create late,
      before = early ++ create :: late ∧ target ∈ create.creates ∧
      Text.contains create.sql target.opening = true ∧ ∀ s' ∈ late, s'.drops = false := by
  obtain ⟨target, text, rfl⟩ := Statement.exists_eq_comment hcomment
  have hscope : target ∈ Script.scopeBehind [] before :=
    (Script.wellScoped_append.1 (wellScoped_script hscript)).2.1 target rfl
  obtain hnone | ⟨early, create, late, hbefore, hcreates, hlate⟩ := Script.mem_scopeBehind hscope
  · cases hnone
  · exact ⟨target, text, rfl, early, create, late, hbefore, hcreates,
      Statement.contains_opening hcreates, hlate⟩

/-- The comment at the end of the script that recreates the table of orders. -/
theorem comment_after_creation_orders :
    ∃ before s, (ordersTable.script { migration := { mode := .dropAndRecreate } }).result =
        .ok (before ++ [s]) ∧
      s.sql = "COMMENT ON " ++ "COLUMN orders.customer IS 'who''s paying';" ∧
      ∃ create ∈ before, CommentTarget.column "orders" "customer" ∈ create.creates := by
  obtain ⟨before, hscript⟩ : ∃ before,
      (ordersTable.script { migration := { mode := .dropAndRecreate } }).result =
        .ok (before ++ [.comment (.column "orders" "customer") "who's paying"]) :=
    ⟨[_, _, _, _, _, _], rfl⟩
  have hcomment : (Statement.comment (.column "orders" "customer") "who's paying").sql =
      "COMMENT ON " ++ "COLUMN orders.customer IS 'who''s paying';" := by decide
  obtain ⟨target, text, heq, early, create, late, rfl, hcreates, -⟩ :=
    Table.comment_after_creation hscript hcomment
  obtain ⟨rfl, rfl⟩ := Statement.comment.inj heq
  exact ⟨_, _, hscript, hcomment, create, by simp, hcreates⟩

end PgSchema
