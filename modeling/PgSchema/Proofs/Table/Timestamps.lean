/-
# Timestamp columns leave a table as it is

Timestamp columns are put behind the columns of a table, each only if the table has no column of its
name.  The table is evolved in its columns, so nothing else of it changes, and the rules between its
parts ask for columns that are there and not for columns that are not, so that they hold on.

* `Table.Timestamped` : a table with timestamp columns behind its own;
* `Table.Timestamped.violations_eq_nil` : timestamp columns bring no violation;
* `Table.withTimestamps_conservative` : what becomes of a table that gets timestamp columns.
-/
import PgSchema.Compilation
import PgSchema.Proofs.Table.Audit
import PgSchema.Proofs.Table.Change

namespace PgSchema

/-- The names of the timestamp columns. -/
def timestampNames : List String := ["created_at", "updated_at"]

theorem isTimed_timestamptz : Kind.timestamptz.family = .timed := rfl

/-- Holds for a column of zoned times that is never null and is the current time by default. -/
structure Column.IsTimestamp (c : Column) : Prop where
  type_eq : c.type = .timed .timestamptz isTimed_timestamptz none
  nullable_eq : c.nullable = false
  default_eq : c.default = some .currentTimestamp
  primaryKey_eq : c.primaryKey = false

namespace Table

variable {t t' : Table}

/-- Holds for two tables of which the second has the timestamp columns that the first lacks behind
its columns, and is otherwise the same. -/
structure Timestamped (t t' : Table) : Prop where
  columns_eq : ∃ added, t'.columns = t.columns ++ added ∧
    added.map (·.name) = timestampNames.filter (fun name => !t.hasColumn name) ∧
    ∀ c ∈ added, c.IsTimestamp
  name_eq : t'.name = t.name
  indexes_eq : t'.indexes = t.indexes
  policies_eq : t'.policies = t.policies
  foreignKeys_eq : t'.foreignKeys = t.foreignKeys
  constraints_eq : t'.constraints = t.constraints
  comment_eq : t'.comment = t.comment
  rowSecurity_eq : t'.rowSecurity = t.rowSecurity
  partition_eq : t'.partition = t.partition

namespace Timestamped

/-- A column is not lost. -/
theorem hasColumn (h : Timestamped t t') {name : String} (hname : t.hasColumn name = true) :
    t'.hasColumn name = true := by
  obtain ⟨added, hcolumns, -⟩ := h.columns_eq
  rw [Table.hasColumn, columnNames, List.contains_iff_mem] at hname ⊢
  rw [hcolumns, List.map_append]
  exact List.mem_append_left _ hname

theorem declaredKey_eq (h : Timestamped t t') : t'.declaredKey = t.declaredKey := by
  obtain ⟨added, hcolumns, -, hadded⟩ := h.columns_eq
  have hnone : added.filter (·.primaryKey) = [] :=
    List.filter_eq_nil_iff.2 fun c hc => by simp [(hadded c hc).primaryKey_eq]
  rw [declaredKey, hcolumns, List.filter_append, hnone, List.append_nil, declaredKey]

theorem effectiveKey_eq (h : Timestamped t t') : t'.effectiveKey = t.effectiveKey := by
  rw [effectiveKey, h.declaredKey_eq, h.partition_eq, effectiveKey]

theorem partitionColumnViolations_eq_nil (h : Timestamped t t') {column : String}
    (hcolumn : t.partitionColumnViolations column = []) :
    t'.partitionColumnViolations column = [] := by
  rw [partitionColumnViolations] at hcolumn ⊢
  split at hcolumn
  · next hblank => rw [if_pos hblank]
  · next hblank =>
    split at hcolumn
    · cases hcolumn
    · next hunknown =>
      have hknown : t'.hasColumn column = true := h.hasColumn (by simpa using hunknown)
      rw [if_neg hblank, if_neg (by simp [hknown]), h.declaredKey_eq]
      exact hcolumn

/-- What the audit asks of a table it finds in the table with timestamp columns too. -/
theorem violations_eq_nil (h : Timestamped t t') (hviolations : t.violations = []) :
    t'.violations = [] := by
  obtain ⟨hkeys, hindexes, hpolicies, hconstraints, hpartition⟩ :=
    violations_eq_nil_iff.1 hviolations
  rw [violations_eq_nil_iff, h.foreignKeys_eq, h.indexes_eq, h.policies_eq, h.constraints_eq,
    h.partition_eq]
  refine ⟨fun key hkey => ?_, fun index hindex column hcolumn => ?_, hpolicies, fun c hc => ?_,
    fun p hp => ?_⟩
  · exact ⟨(hkeys key hkey).1, h.hasColumn (hkeys key hkey).2⟩
  · exact h.hasColumn (hindexes index hindex column hcolumn)
  · exact ⟨(hconstraints c hc).1, fun column hcolumn =>
      h.hasColumn ((hconstraints c hc).2 column hcolumn)⟩
  · exact ⟨(hpartition p hp).1, fun column hcolumn =>
      h.partitionColumnViolations_eq_nil ((hpartition p hp).2 column hcolumn)⟩

end Timestamped

/-! ## Adding the columns -/

theorem map_name_missingTimestamps (t : Table) :
    t.missingTimestamps.map (·.name) = timestampNames.filter fun name => !t.hasColumn name := by
  have hnames : timestampNames = timestampColumns.map (·.name) := rfl
  rw [hnames, List.filter_map]
  rfl

theorem isTimestamp_of_mem_missingTimestamps {c : Column} (h : c ∈ t.missingTimestamps) :
    c.IsTimestamp := by
  have hmem : c ∈ timestampColumns := (List.mem_filter.1 h).1
  simp only [timestampColumns, List.mem_cons, List.not_mem_nil, or_false] at hmem
  rcases hmem with rfl | rfl <;> exact ⟨rfl, rfl, rfl, rfl⟩

theorem timestamped_withTimestamps (t : Table) : Timestamped t t.withTimestamps where
  columns_eq := ⟨t.missingTimestamps, rfl, t.map_name_missingTimestamps, fun _ =>
    isTimestamp_of_mem_missingTimestamps⟩
  name_eq := rfl
  indexes_eq := rfl
  policies_eq := rfl
  foreignKeys_eq := rfl
  constraints_eq := rfl
  comment_eq := rfl
  rowSecurity_eq := rfl
  partition_eq := rfl

theorem withTimestamps_eq_self (h : t.missingTimestamps = []) : t.withTimestamps = t := by
  have hcolumns : t.columns ++ t.missingTimestamps = t.columns := by rw [h, List.append_nil]
  unfold withTimestamps
  simp only [hcolumns]

/-- No timestamp column is missing from a table to which they were added. -/
theorem missingTimestamps_withTimestamps (t : Table) : t.withTimestamps.missingTimestamps = [] := by
  rw [missingTimestamps, List.filter_eq_nil_iff]
  intro c hc
  rw [Bool.not_eq_true', Bool.not_eq_false]
  by_cases hhas : t.hasColumn c.name = true
  · exact t.timestamped_withTimestamps.hasColumn hhas
  · have hmissing : c ∈ t.missingTimestamps := List.mem_filter.2 ⟨hc, by simpa using hhas⟩
    rw [hasColumn, columnNames, List.contains_iff_mem]
    exact List.mem_map_of_mem (List.mem_append_right t.columns hmissing)

/-- The table evolved in its columns, unless it has all timestamp columns. -/
def evolveTimestamps (t : Table) : Checked Table :=
  if t.missingTimestamps.isEmpty then .ok t
  else Definition.evolve t
    [(columnsField.name, .list ((t.columns ++ t.missingTimestamps).map (·.save .internal)))]

theorem evolveTimestamps_eq_ok (t : Table) : t.evolveTimestamps = .ok t.withTimestamps := by
  unfold evolveTimestamps
  split
  · next hempty => rw [withTimestamps_eq_self (List.isEmpty_iff.1 hempty)]
  · rw [evolve_eq_ok_iff]
    refine ⟨by simp [Entries.Name, fields], rfl, ?_, rfl, rfl, rfl, rfl, rfl, rfl, rfl⟩
    exact loadColumns_save t.nodup_append_missingTimestamps

/-- Timestamp columns can be added to every table.  They stand behind its columns, those of them
that it lacks in their order; all else of the table, its keys among it, is as it was.  Adding them
again changes nothing, and they bring no violation to a table that has none. -/
theorem withTimestamps_conservative (t : Table) :
    t.evolveTimestamps = .ok t.withTimestamps ∧ Timestamped t t.withTimestamps ∧
      t.withTimestamps.declaredKey = t.declaredKey ∧
      t.withTimestamps.effectiveKey = t.effectiveKey ∧
      t.withTimestamps.withTimestamps = t.withTimestamps ∧
      (t.violations = [] → t.withTimestamps.violations = []) := by
  have h := t.timestamped_withTimestamps
  exact ⟨t.evolveTimestamps_eq_ok, h, h.declaredKey_eq, h.effectiveKey_eq,
    withTimestamps_eq_self t.missingTimestamps_withTimestamps, h.violations_eq_nil⟩

/-- The table of orders has no timestamp column and no violation. -/
theorem withTimestamps_ordersTable :
    ordersTable.violations = [] ∧ ordersTable.withTimestamps.violations = [] ∧
      ordersTable.withTimestamps.columnNames = ["id", "customer", "created_at", "updated_at"] := by
  have hviolations : ordersTable.violations = [] := by decide
  exact ⟨hviolations, (withTimestamps_conservative ordersTable).2.2.2.2.2 hviolations, by decide⟩

end Table
end PgSchema
