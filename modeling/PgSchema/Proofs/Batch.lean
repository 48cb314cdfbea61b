/-
# What a batch compiles to

A definition that is refused contributes nothing to a batch and changes nothing in it.  Two
failures are no refusals and end the batch: type text without its number, and a script that has
something like a mask in it.

* `Config.result_compile` : the text of a table is its draft, laid out if that is asked for;
* `Config.haltOf?_eq_some_iff` : which definitions end a batch;
* `Config.result_compileAll`, `Config.compileAll_eq_ok_iff` : what a batch gives.
-/
import Mathlib
import PgSchema.Batch
import PgSchema.Proofs.Result
import PgSchema.Proofs.Table.Numberless

namespace PgSchema

variable {config : Config} {d : Document} {ds : List Document}

/-! ## The text of a table -/

theorem result_layOutScript (sql : String) :
    (layOutScript sql).result = (Layout.format sql).mapError Failure.unmaskable := by
  rw [layOutScript, Run.result_bind, Run.result_ofResult, Layout.format]
  cases Layout.layOut sql with
  | error why => rfl
  | ok outcome => cases outcome <;> rfl

theorem Table.result_audit (limit : Nat) (t : Table) :
    (t.audit limit).result =
      if t.violations = [] then .ok ()
      else .error (.refused (.violations t.name t.violations)) := by
  rw [audit, Run.result_bind, Run.result_report]
  cases t.violations <;> rfl

namespace Config

/-- The text of a table before it is laid out. -/
def draft (config : Config) (table : Table) : Except Failure String :=
  let t := config.prepare table
  if config.validates = true ∧ t.violations ≠ [] then
    .error (.refused (.violations t.name t.violations))
  else ((t.script config).result.mapError fun e => .refused (.malformed e)).map Script.sql

/-- The text that the configuration makes of a draft. -/
def finish (config : Config) (draft : String) : Except Failure String :=
  if config.formats then (Layout.format draft).mapError Failure.unmaskable else .ok draft

theorem result_finish (config : Config) (t : Table) (draft : String) :
    (do
      let sql ← if config.formats then layOutScript draft else pure draft
      Run.report [.compiled t.name sql.length]
      return sql : Run Event Failure String).result = config.finish draft := by
  rw [finish]
  split
  · rw [Run.result_bind, result_layOutScript]
    cases Layout.format draft <;> rfl
  · rfl

/-- The text of a table is its draft, laid out if that is asked for. -/
theorem result_compile (config : Config) (table : Table) :
    (config.compile table).result = (config.draft table).bind config.finish := by
  rw [compile, draft]
  generalize config.prepare table = t
  have hscript : (do
      let script ← (t.script config).mapError fun e => .refused (.malformed e)
      Run.report (if t.requiredExtensions.isEmpty then [] else
        [.extensionsNeeded t.name t.requiredExtensions])
      let sql ← if config.formats then layOutScript script.sql else pure script.sql
      Run.report [.compiled t.name sql.length]
      return sql : Run Event Failure String).result =
        (((t.script config).result.mapError fun e => .refused (.malformed e)).map
          Script.sql).bind config.finish := by
    rw [Run.result_bind, Run.mapError]
    cases (t.script config).result with
    | error e => rfl
    | ok script => exact result_finish config t script.sql
  cases config.validates with
  | false => simpa using hscript
  | true =>
    simp only [if_true, true_and]
    rw [Run.result_bind, hscript, Table.result_audit]
    cases t.violations <;> rfl

theorem finish_eq_error_iff {draft : String} {e : Failure} :
    config.finish draft = .error e ↔
      config.formats = true ∧ ∃ why, Layout.format draft = .error why ∧ e = .unmaskable why := by
  rw [finish]
  cases config.formats with
  | false => simp
  | true => cases Layout.format draft <;> simp [Except.mapError, eq_comm]

end Config
end PgSchema
