/-
# The modes of a migration

A configuration has a say in a script through the steps of its mode and through what each step
contributes, and no step looks at the mode.  So the script of a mode is put together from what its
steps contribute, and modes that share steps share statements.

* `Step.result_runAll_append` : steps in two parts;
* `Script.sql_flatten` : the text of a script in parts, some of which may be empty;
* `Table.script_createOrAlter` : creating and altering in one script.
-/
import PgSchema.Proofs.Table.Rerun

namespace PgSchema

/-! ## Texts -/

theorem Sql.guardedBlock_ne_empty (guards : List (String × String)) :
    Sql.guardedBlock guards ≠ "" := by
  have hlines : Sql.guardedBlock guards = "\n".intercalate ("DO $$" :: "BEGIN" ::
      (guards.flatMap (fun guard => Sql.guardLines guard.1 guard.2) ++ ["END $$;"])) := rfl
  rw [hlines, String.intercalate_cons_cons, Ne, String.append_eq_empty_iff,
    String.append_eq_empty_iff]
  exact fun h => absurd h.1.1 (by decide)

theorem append_ne_empty (s : String) {t : String} (h : t ≠ "") : s ++ t ≠ "" :=
  fun hempty => h (String.append_eq_empty_iff.1 hempty).2

/-- Every statement has a text. -/
theorem Statement.sql_ne_empty (s : Statement) : s.sql ≠ "" := by
  have hsemicolon : (";" : String) ≠ "" := by decide
  have hcascade : (" CASCADE;" : String) ≠ "" := by decide
  have hsecurity : (" ENABLE ROW LEVEL SECURITY;" : String) ≠ "" := by decide
  cases s with
  | dropTable table => exact append_ne_empty _ hcascade
  | addMissing table additions => exact Sql.guardedBlock_ne_empty _
  | enableRowSecurity table => exact append_ne_empty _ hsecurity
  | _ => exact append_ne_empty _ hsemicolon

namespace Script

theorem sql_nil : Script.sql [] = "" := String.intercalate_nil

theorem sql_singleton (s : Statement) : Script.sql [s] = s.sql := String.intercalate_singleton

/-- The text of a script in two parts. -/
theorem sql_append {xs ys : Script} (hxs : xs ≠ []) (hys : ys ≠ []) :
    Script.sql (xs ++ ys) = xs.sql ++ "\n\n" ++ ys.sql := by
  rw [sql, List.map_append, String.intercalate_append_of_ne_nil (by simpa) (by simpa)]
  rfl

theorem sql_eq_empty_iff {script : Script} : script.sql = "" ↔ script = [] := by
  constructor
  · intro h
    cases script with
    | nil => rfl
    | cons s script =>
      cases script with
      | nil =>
        rw [sql_singleton] at h
        exact absurd h s.sql_ne_empty
      | cons s' script =>
        rw [sql, List.map_cons, List.map_cons, String.intercalate_cons_cons,
          String.append_eq_empty_iff, String.append_eq_empty_iff] at h
        exact absurd h.1.1 s.sql_ne_empty
  · rintro rfl
    exact sql_nil

/-- The text of a script in parts: blank lines between the texts of the parts that are not
empty. -/
theorem sql_flatten (parts : List Script) :
    Script.sql parts.flatten = "\n\n".intercalate ((parts.map Script.sql).filter (· != "")) := by
  induction parts with
  | nil => rfl
  | cons part parts ih =>
    rw [List.flatten_cons, List.map_cons]
    by_cases hpart : part = []
    · rw [hpart, sql_nil, List.nil_append, ih, List.filter_cons_of_neg (by decide)]
    · have hsql : part.sql ≠ "" := mt sql_eq_empty_iff.1 hpart
      rw [List.filter_cons_of_pos (by simpa using hsql)]
      by_cases hparts : parts.flatten = []
      · have hfilter : (parts.map Script.sql).filter (· != "") = [] := by
          rw [List.filter_eq_nil_iff]
          intro text htext
          obtain ⟨part', hpart', rfl⟩ := List.mem_map.1 htext
          rw [List.flatten_eq_nil_iff.1 hparts part' hpart', sql_nil]
          decide
        rw [hparts, List.append_nil, hfilter, String.intercalate_singleton]
      · have hfilter : (parts.map Script.sql).filter (· != "") ≠ [] := by
          intro hnil
          rw [hnil, String.intercalate_nil, sql_eq_empty_iff] at ih
          exact hparts ih
        rw [sql_append hpart hparts, ih, String.intercalate_cons_of_ne_nil hfilter]

end Script

/-! ## Steps in a mode -/

/-- The configuration in another mode. -/
def Config.inMode (mode : MigrationMode) (config : Config) : Config :=
  { config with migration := { config.migration with mode } }

/-- What a step contributes does not depend on the mode. -/
theorem Step.statements_inMode (mode : MigrationMode) (config : Config) (t : Table) :
    Step.statements (config.inMode mode) t = Step.statements config t := by
  funext step
  cases step <;> rfl

/-- Steps in two parts contribute what the parts contribute. -/
theorem Step.result_runAll_append (config : Config) (t : Table) (xs ys : List Step) :
    (runAll config t (xs ++ ys)).result =
      (runAll config t xs).result.bind fun first =>
        (runAll config t ys).result.map fun second => first ++ second := by
  simp only [result_runAll, List.mapM_append]
  cases xs.mapM (statements config t) with
  | error e => rfl
  | ok first =>
    cases ys.mapM (statements config t) with
    | error e => rfl
    | ok second =>
      change Except.ok (first ++ second).flatten = Except.ok (first.flatten ++ second.flatten)
      rw [List.flatten_append]

theorem Step.result_runAll_singleton (config : Config) (t : Table) (step : Step) :
    (runAll config t [step]).result = step.statements config t := by
  rw [result_runAll, List.mapM_cons]
  cases step.statements config t with
  | error e => rfl
  | ok script => exact congrArg Except.ok (List.append_nil script)

namespace Table

/-- The script of a table in a mode is what the steps of the mode contribute. -/
theorem result_script_inMode (mode : MigrationMode) (config : Config) (t : Table) :
    (t.script (config.inMode mode)).result = (Step.runAll config t mode.steps).result := by
  rw [script, Run.result_bind, Run.result_report]
  change (Step.runAll (config.inMode mode) t mode.steps).result = _
  rw [Step.result_runAll, Step.result_runAll, Step.statements_inMode]

/-- The statement that creates a table is made of its parts. -/
theorem eq_of_createStatement_eq_ok {unlessExists explicit : Bool} {t : Table} {s : Statement}
    (h : t.createStatement unlessExists explicit = .ok s) :
    s = .createTable t.name unlessExists (t.elements explicit) t.partition := by
  obtain ⟨_, -, hrest⟩ := bind_eq_ok_iff.1 h
  obtain ⟨_, -, hstatement⟩ := bind_eq_ok_iff.1 hrest
  exact (Except.ok.inj hstatement).symm

/-- A table that can be created can be altered: its constraints are the same. -/
theorem exists_alter_of_createStatement {unlessExists explicit : Bool} {config : Config} {t : Table}
    {s : Statement} (h : t.createStatement unlessExists explicit = .ok s) :
    ∃ alter, (Step.runAll config t Step.alter).result = .ok alter := by
  obtain ⟨hconstraints, -⟩ := exists_createStatement_iff.1 ⟨s, h⟩
  refine (Step.exists_runAll_iff Step.alter).2 fun step hstep => ?_
  have hcases : step = .addColumns ∨ step = .addConstraints := by simpa [Step.alter] using hstep
  rcases hcases with rfl | rfl
  · trivial
  · exact fun _ => hconstraints

/-- Create-or-alter fails as create-if-not-exists does.  Otherwise alter-only gives a script too,
and create-or-alter gives the statement that creates the table unless it exists, the statements of
alter-only, and the other statements of create-if-not-exists; parts without statements leave no
trace in the text. -/
theorem script_createOrAlter (config : Config) (t : Table) :
    (∃ e, (t.script (config.inMode .createOrAlter)).result = .error e ∧
      (t.script (config.inMode .createIfNotExists)).result = .error e) ∨
    ∃ create alter rest,
      create = .createTable t.name true (t.elements config.explicitNullability) t.partition ∧
      (t.script (config.inMode .createIfNotExists)).result = .ok (create :: rest) ∧
      (t.script (config.inMode .alterOnly)).result = .ok alter ∧
      (t.script (config.inMode .createOrAlter)).result = .ok (create :: (alter ++ rest)) ∧
      Script.sql (create :: (alter ++ rest)) =
        "\n\n".intercalate
          ([create.sql, Script.sql alter, Script.sql rest].filter (· != "")) ∧
      ∀ s ∈ create :: (alter ++ rest), s.sql ≠ "" := by
  have hboth : MigrationMode.createOrAlter.steps =
      [Step.createTable true] ++ (Step.alter ++ Step.tail) := rfl
  have hcreates : MigrationMode.createIfNotExists.steps =
      [Step.createTable true] ++ Step.tail := rfl
  have halters : MigrationMode.alterOnly.steps = Step.alter := rfl
  simp only [result_script_inMode, hboth, hcreates, halters, Step.result_runAll_append,
    Step.result_runAll_singleton]
  cases hcreate : t.createStatement true config.explicitNullability with
  | error e =>
    have hstep : Step.statements config t (.createTable true) = .error e := by
      rw [Step.statements, hcreate]
      rfl
    exact .inl ⟨e, by rw [hstep]; rfl, by rw [hstep]; rfl⟩
  | ok create =>
    have hstep : Step.statements config t (.createTable true) = .ok [create] := by
      rw [Step.statements, hcreate]
      rfl
    -- altering checks nothing that creating does not
    obtain ⟨alter, halter⟩ : ∃ alter, (Step.runAll config t Step.alter).result = .ok alter :=
      exists_alter_of_createStatement hcreate
    rw [hstep, halter]
    cases (Step.runAll config t Step.tail).result with
    | error e => exact .inl ⟨e, rfl, rfl⟩
    | ok rest =>
      have hflatten : create :: (alter ++ rest) = List.flatten [[create], alter, rest] := by simp
      refine .inr ⟨create, alter, rest, eq_of_createStatement_eq_ok hcreate, rfl, rfl, rfl, ?_,
        fun s _ => s.sql_ne_empty⟩
      rw [hflatten, Script.sql_flatten, List.map_cons, Script.sql_singleton]
      rfl

end Table
end PgSchema
