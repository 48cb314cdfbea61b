/-
# Compilation

The compilation of one table: timestamp columns, audit, script and layout.  `Config.compile`
gives the text of the script, and reports warnings and progress on the way.
-/
import PgSchema.Script

namespace PgSchema

/-! ## Timestamp columns -/

/-- A column that holds the time at which a row was written. -/
def timestampColumn (name : String) (h : name ≠ "") : Column :=
  { name, type := .timed .timestamptz rfl none, nullable := false, primaryKey := false,
    unique := false, default := some .currentTimestamp, conditions := [], rules := [],
    collation := none, comment := none, name_nonempty := h }

/-- The timestamp columns: the times of creation and of the last change. -/
def timestampColumns : List Column :=
  [timestampColumn "created_at" (by decide), timestampColumn "updated_at" (by decide)]

theorem nodup_timestampColumns : (timestampColumns.map (·.name)).Nodup := by
  simp [timestampColumns, timestampColumn]

namespace Table

/-- The timestamp columns whose names the table does not use. -/
def missingTimestamps (t : Table) : List Column :=
  timestampColumns.filter fun c => !t.hasColumn c.name

theorem nodup_append_missingTimestamps (t : Table) :
    ((t.columns ++ t.missingTimestamps).map (·.name)).Nodup := by
  rw [List.map_append, List.nodup_append]
  refine ⟨t.columns_nodup, ?_, ?_⟩
  · exact nodup_timestampColumns.sublist (List.filter_sublist.map _)
  · rintro a ha b hb rfl
    obtain ⟨c, hc, rfl⟩ := List.mem_map.1 hb
    have h := (List.mem_filter.1 hc).2
    simp only [hasColumn, columnNames, List.contains_eq_mem, Bool.not_eq_true',
      decide_eq_false_iff_not] at h
    exact h ha

/-- The table with the timestamp columns that it lacks after its own. -/
def withTimestamps (t : Table) : Table :=
  { t with
    columns := t.columns ++ t.missingTimestamps
    columns_nodup := t.nodup_append_missingTimestamps }

/-- Reports the warnings about a table, and refuses a table with violations. -/
def audit (limit : Nat) (t : Table) : Run Event Failure Unit := do
  Run.report ((t.warnings limit).map (.warned t.name))
  match t.violations with
  | [] => return ()
  | found => Run.fail (.refused (.violations t.name found))

end Table

/-! ## Compilation -/

/-- Lays a script out; one that cannot be cut into lexemes is left as it is. -/
def layOutScript (sql : String) : Run Event Failure String := do
  match ← Run.ofResult ((Layout.layOut sql).mapError Failure.unmaskable) with
  | .arranged text => return text
  | .unreadable why =>
    Run.report [.leftUnformatted why]
    return sql

namespace Config

/-- The table as it is compiled: with timestamp columns, if they are asked for. -/
def prepare (config : Config) (t : Table) : Table :=
  if config.addsTimestamps then t.withTimestamps else t

/-- The text of the script of a table. -/
def compile (config : Config) (table : Table) : Run Event Failure String := do
  let t := config.prepare table
  if config.validates then t.audit config.migration.maxIdentifierLength
  let script ← (t.script config).mapError fun e => .refused (.malformed e)
  let extensions := t.requiredExtensions
  Run.report (if extensions.isEmpty then [] else [.extensionsNeeded t.name extensions])
  let sql ← if config.formats then layOutScript script.sql else pure script.sql
  Run.report [.compiled t.name sql.length]
  return sql

end Config
end PgSchema
