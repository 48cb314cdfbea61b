/-
# Dropping a table first

The script that drops a table and creates it again is the statement that drops it, and the script
that creates it.  Where the name of the table is plain, nothing in the layout of that script
changes behind the statement.

* `Table.result_script_dropAndRecreate` : the statements of the script;
* `Config.draft_dropAndRecreate` : its text before it is laid out;
* `Config.finish_append_dropStatement` : the layout of a text behind the statement;
* `Config.compile_dropAndRecreate` : the text that a compilation gives.
-/
import PgSchema.Proofs.Batch
import PgSchema.Proofs.Layout.Drop
import PgSchema.Proofs.Table.ForeignKey
import PgSchema.Proofs.Table.Mode

namespace PgSchema

open Sql Text

/-! ## Statements -/

namespace Table

/-- Dropping and creating a table again is dropping it, and then creating it. -/
theorem result_script_dropAndRecreate (config : Config) (t : Table) :
    (t.script (config.inMode .dropAndRecreate)).result =
      (t.script (config.inMode .createOnly)).result.map (t.dropStatement :: ·) := by
  have hsteps : MigrationMode.dropAndRecreate.steps =
      [Step.dropTable] ++ MigrationMode.createOnly.steps := rfl
  rw [result_script_inMode, result_script_inMode, hsteps, Step.result_runAll_append,
    Step.result_runAll_singleton]
  rfl

/-- The script that creates a table starts with the statement that creates it. -/
theorem exists_of_script_createOnly {config : Config} {t : Table} {script : Script}
    (h : (t.script (config.inMode .createOnly)).result = .ok script) :
    ∃ rest, script = .createTable t.name false (t.elements config.explicitNullability)
      t.partition :: rest := by
  have hsteps : MigrationMode.createOnly.steps = [Step.createTable false] ++ Step.tail := rfl
  rw [result_script_inMode, hsteps, Step.result_runAll_append,
    Step.result_runAll_singleton] at h
  obtain ⟨create, hcreate, htail⟩ := bind_eq_ok_iff.1 h
  obtain ⟨rest, -, rfl⟩ := map_eq_ok_iff.1 htail
  obtain ⟨s, hs, hsingle⟩ := bind_eq_ok_iff.1 hcreate
  obtain rfl := Except.ok.inj hsingle
  exact ⟨rest, by rw [eq_of_createStatement_eq_ok hs]; rfl⟩

end Table

/-! ## Texts -/

/-- The text of a script that creates a table is not blank. -/
theorem Script.all_isBlank_sql_createTable (table : String) (unlessExists : Bool)
    (elements : List TableElement) (partition : Option Partition) (rest : Script) :
    (Script.sql (.createTable table unlessExists elements partition :: rest)).toList.all isBlank =
      false := by
  have hcreate :
      ';' ∈ (Statement.createTable table unlessExists elements partition).sql.toList := by
    obtain ⟨text, htext⟩ : ∃ text,
        (Statement.createTable table unlessExists elements partition).sql = text ++ ";" := ⟨_, rfl⟩
    rw [htext, String.toList_append]
    exact List.mem_append_right _ (by decide)
  have hmem : ';' ∈ (Script.sql (.createTable table unlessExists elements partition ::
      rest)).toList := by
    cases rest with
    | nil => rwa [sql_singleton]
    | cons s rest =>
      rw [← List.singleton_append, sql_append (List.cons_ne_nil _ _) (List.cons_ne_nil _ _),
        sql_singleton, String.toList_append, String.toList_append]
      exact List.mem_append_left _ (List.mem_append_left _ hcreate)
  rw [List.all_eq_false]
  exact ⟨';', hmem, by decide⟩

theorem sql_dropStatement (t : Table) :
    t.dropStatement.sql = "DROP TABLE IF EXISTS " ++ t.name ++ " CASCADE;" := rfl

theorem toList_sql_dropStatement (t : Table) :
    t.dropStatement.sql.toList = Layout.dropText t.name.toList := by
  have hfront : "DROP TABLE IF EXISTS ".toList = Layout.dropWords.flatMap (· ++ [' ']) := by
    decide
  have hend : " CASCADE;".toList = ' ' :: Layout.cascade ++ [';'] := by decide
  rw [sql_dropStatement]
  simp only [String.toList_append, hfront, hend, Layout.dropText, Layout.dropBody,
    List.append_assoc, List.cons_append]

namespace Config

theorem name_prepare (config : Config) (t : Table) : (config.prepare t).name = t.name := by
  rw [prepare]
  split <;> rfl

/-- The text before it is laid out. -/
theorem draft_dropAndRecreate (config : Config) (t : Table) :
    (config.inMode .dropAndRecreate).draft t =
      ((config.inMode .createOnly).draft t).map (t.dropStatement.sql ++ "\n\n" ++ ·) := by
  have hprepare (mode : MigrationMode) : (config.inMode mode).prepare t = config.prepare t := rfl
  have hvalidates (mode : MigrationMode) : (config.inMode mode).validates = config.validates := rfl
  have hdrop : (config.prepare t).dropStatement = t.dropStatement := by
    rw [Table.dropStatement, name_prepare]
    rfl
  simp only [draft, hprepare, hvalidates, Table.result_script_dropAndRecreate, hdrop]
  split
  · rfl
  · cases hscript : ((config.prepare t).script (config.inMode .createOnly)).result with
    | error e => rfl
    | ok script =>
      obtain ⟨rest, rfl⟩ := Table.exists_of_script_createOnly hscript
      simp only [Except.map, Except.mapError]
      rw [← List.singleton_append, Script.sql_append (List.cons_ne_nil _ _) (List.cons_ne_nil _ _),
        Script.sql_singleton]

/-- The text that creates a table is not blank. -/
theorem all_isBlank_of_draft_createOnly {config : Config} {t : Table} {draft : String}
    (h : (config.inMode .createOnly).draft t = .ok draft) : draft.toList.all isBlank = false := by
  rw [Config.draft] at h
  split at h
  · cases h
  · obtain ⟨script, hscript, rfl⟩ := map_eq_ok_iff.1 h
    cases hresult : (((config.inMode .createOnly).prepare t).script
        (config.inMode .createOnly)).result with
    | error e =>
      rw [hresult] at hscript
      cases hscript
    | ok script' =>
      rw [hresult] at hscript
      obtain rfl := Except.ok.inj hscript
      obtain ⟨rest, rfl⟩ := Table.exists_of_script_createOnly hresult
      exact Script.all_isBlank_sql_createTable ..

/-- A text that is not blank, behind the statement that drops a table with a plain name. -/
theorem finish_append_dropStatement (config : Config) {t : Table}
    (hname : isAsciiName t.name = true) {draft : String}
    (hdraft : draft.toList.all isBlank = false) :
    config.finish (t.dropStatement.sql ++ "\n\n" ++ draft) =
      (config.finish draft).map (t.dropStatement.sql ++ "\n\n" ++ ·) := by
  have halone : Layout.StandsAlone t.dropStatement.sql.toList := by
    rw [toList_sql_dropStatement]
    exact Layout.standsAlone_dropText hname
  rw [finish, finish]
  split
  · rw [Layout.format_append_of_standsAlone halone hdraft]
    cases Layout.format draft <;> rfl
  · rfl

/-- For a table with a plain name, dropping and creating it again fails as creating it does.
Otherwise the text is the statement that drops the table, a blank line, and the text that creates
it, laid out or not. -/
theorem compile_dropAndRecreate (config : Config) {t : Table} (hname : isAsciiName t.name = true) :
    ((config.inMode .dropAndRecreate).compile t).result =
      ((config.inMode .createOnly).compile t).result.map
        ("DROP TABLE IF EXISTS " ++ t.name ++ " CASCADE;" ++ "\n\n" ++ ·) := by
  rw [result_compile, result_compile, draft_dropAndRecreate]
  cases hdraft : (config.inMode .createOnly).draft t with
  | error e => rfl
  | ok draft =>
    have hblank := all_isBlank_of_draft_createOnly hdraft
    exact finish_append_dropStatement config hname hblank

/-- A table of one column, which is written on a line of its own. -/
theorem compile_dropAndRecreate_keyedTable :
    ((inMode .dropAndRecreate { validates := false }).compile (keyedTable [])).result =
      .ok "DROP TABLE IF EXISTS t CASCADE;\n\nCREATE TABLE t (\n  a TEXT\n);" := by
  have hscript : ((keyedTable []).script (inMode .createOnly { validates := false })).result =
      .ok [.createTable "t" false ((keyedTable []).elements false) none] := rfl
  have hsql : Script.sql [.createTable "t" false ((keyedTable []).elements false) none] =
      "CREATE TABLE t (\n  a TEXT\n);" := by decide +kernel
  have hfinish : (inMode .createOnly { validates := false }).finish
      "CREATE TABLE t (\n  a TEXT\n);" = .ok "CREATE TABLE t (\n  a TEXT\n);" :=
    toOption_eq_some_iff.1 (by decide)
  have hcreate : ((inMode .createOnly { validates := false }).compile (keyedTable [])).result =
      .ok "CREATE TABLE t (\n  a TEXT\n);" := by
    rw [result_compile, draft_of_not_validates rfl, prepare, if_neg (by decide), hscript]
    simp only [Except.mapError, Except.map, Except.bind, hsql, hfinish]
  rw [compile_dropAndRecreate _ (by decide), hcreate]
  rfl

end Config
end PgSchema
