/-
# What an audit is good for

The audit of a table and the builders of its statements look at the table each in their own way.
Each step of a migration gives its statements exactly when the table meets what the step asks for,
and a table without violations meets all of it, but for the rules of its indexes.

* `Step.exists_statements_iff` : what a step asks of a table;
* `Table.violations_eq_nil_iff` : what the audit asks of a table;
* `Table.script_returns_of_no_violations` : a table without violations has a script if the rules of
  its indexes hold or no index is created.
-/
import PgSchema.Proofs.Result
import PgSchema.Script

namespace PgSchema

variable {t : Table} {config : Config}

/-! ## Builders -/

/-- A list of columns is complete if there are some, and none of them is blank. -/
theorem ColumnList.validate_eq_ok_iff {list : ColumnList} {columns : List String} :
    list.validate columns = .ok () ↔ columns ≠ [] ∧ ∀ c ∈ columns, Text.allBlank c = false := by
  rw [validate]
  split <;> simp_all

namespace Table

theorem validatePartition_eq_ok_iff :
    t.validatePartition = .ok () ↔ ∀ p ∈ t.partition, p.validate = .ok () := by
  rw [validatePartition]
  cases t.partition <;> simp

theorem exists_createStatement_iff {unlessExists explicit : Bool} :
    (∃ statement, t.createStatement unlessExists explicit = .ok statement) ↔
      (∀ c ∈ t.constraints, c.validate = .ok ()) ∧ ∀ p ∈ t.partition, p.validate = .ok () := by
  rw [createStatement, exists_check_bind_eq_ok_iff, exists_check_bind_eq_ok_iff,
    validateConstraints, forM_eq_ok_iff, validatePartition_eq_ok_iff]
  simp [pure, Except.pure]

theorem exists_addMissingConstraints_iff :
    (∃ statements, t.addMissingConstraints = .ok statements) ↔
      ∀ c ∈ t.constraints, c.validate = .ok () := by
  rw [addMissingConstraints, exists_check_bind_eq_ok_iff, validateConstraints, forM_eq_ok_iff]
  simp [pure, Except.pure]

theorem checkIndexColumns_eq_ok_iff {index : Index} :
    t.checkIndexColumns index = .ok () ↔
      ∀ column ∈ index.columns ++ index.included, t.hasColumn column = true := by
  rw [checkIndexColumns]
  cases hfind : (index.columns ++ index.included).find? fun c => !t.hasColumn c with
  | none =>
    rw [List.find?_eq_none] at hfind
    simpa only [true_iff, Bool.not_eq_true', Bool.not_eq_false] using hfind
  | some column =>
    have hunknown : t.hasColumn column = false := by simpa using List.find?_some hfind
    have hmem := List.mem_of_find?_eq_some hfind
    simp only [reduceCtorEq, false_iff]
    intro hknown
    rw [hknown column hmem] at hunknown
    simp at hunknown

theorem exists_createIndexes_iff (comments : Bool) :
    (∃ statements, t.createIndexes comments = .ok statements) ↔
      ∀ index ∈ t.indexes, index.validate = .ok () ∧
        ∀ column ∈ index.columns ++ index.included, t.hasColumn column = true := by
  rw [createIndexes, exists_bind_pure_eq_ok_iff, exists_mapM_eq_ok_iff]
  refine forall₂_congr fun index _ => ?_
  rw [indexStatements, exists_check_bind_eq_ok_iff, exists_check_bind_eq_ok_iff,
    checkIndexColumns_eq_ok_iff]
  simp [pure, Except.pure]

theorem checkForeignKeyColumns_eq_ok_iff :
    t.checkForeignKeyColumns = .ok () ↔ ∀ key ∈ t.foreignKeys, t.hasColumn key.column = true := by
  rw [checkForeignKeyColumns]
  cases hfind : t.foreignKeys.find? fun key => !t.hasColumn key.column with
  | none =>
    rw [List.find?_eq_none] at hfind
    simpa only [true_iff, Bool.not_eq_true', Bool.not_eq_false] using hfind
  | some key =>
    have hunknown : t.hasColumn key.column = false := by simpa using List.find?_some hfind
    have hmem := List.mem_of_find?_eq_some hfind
    simp only [reduceCtorEq, false_iff]
    intro hknown
    rw [hknown key hmem] at hunknown
    simp at hunknown

theorem exists_foreignKeyStatement_iff {key : ForeignKey} :
    (∃ statement, t.foreignKeyStatement key = .ok statement) ↔ key.isUntargeted = false := by
  rw [foreignKeyStatement]
  split <;> simp_all

/-- Only the foreign keys that are rendered need a target. -/
theorem exists_addForeignKeys_iff {comments : Bool} :
    (∃ statements, t.addForeignKeys comments = .ok statements) ↔
      (∀ key ∈ t.foreignKeys, t.hasColumn key.column = true) ∧
        ∀ key ∈ t.columnForeignKeys, key.isUntargeted = false := by
  rw [addForeignKeys, exists_check_bind_eq_ok_iff, checkForeignKeyColumns_eq_ok_iff,
    exists_bind_pure_eq_ok_iff, exists_mapM_eq_ok_iff]
  refine and_congr_right fun _ => forall₂_congr fun key _ => ?_
  rw [foreignKeyStatements, exists_bind_pure_eq_ok_iff, exists_foreignKeyStatement_iff]

theorem exists_policyStatement_iff {policy : Policy} :
    (∃ statement, t.policyStatement policy = .ok statement) ↔ policy.checksInVain = false := by
  rw [policyStatement]
  split <;> simp_all

theorem exists_secureRows_iff {comments : Bool} :
    (∃ statements, t.secureRows comments = .ok statements) ↔
      ∀ policy ∈ t.policies, policy.checksInVain = false := by
  rw [secureRows, exists_bind_pure_eq_ok_iff, exists_mapM_eq_ok_iff]
  refine forall₂_congr fun policy _ => ?_
  rw [policyStatements, exists_bind_pure_eq_ok_iff, exists_policyStatement_iff]

end Table

/-! ## Steps -/

/-- What a step asks of a table. -/
def Step.Asks (config : Config) (t : Table) : Step → Prop
  | createTable _ =>
    (∀ c ∈ t.constraints, c.validate = .ok ()) ∧ ∀ p ∈ t.partition, p.validate = .ok ()
  | addConstraints =>
    (config.migration.addsConstraints && config.migration.guards) = true →
      ∀ c ∈ t.constraints, c.validate = .ok ()
  | createIndexes =>
    config.migration.createsIndexes = true →
      ∀ index ∈ t.indexes, index.validate = .ok () ∧
        ∀ column ∈ index.columns ++ index.included, t.hasColumn column = true
  | addForeignKeys =>
    (∀ key ∈ t.foreignKeys, t.hasColumn key.column = true) ∧
      ∀ key ∈ t.columnForeignKeys, key.isUntargeted = false
  | secureRows => ∀ policy ∈ t.policies, policy.checksInVain = false
  | dropTable | addColumns | writeComments => True

/-- A step gives statements exactly when the table meets what the step asks for. -/
theorem Step.exists_statements_iff (step : Step) :
    (∃ script, step.statements config t = .ok script) ↔ step.Asks config t := by
  cases step with
  | createTable unlessExists =>
    rw [statements, exists_bind_pure_eq_ok_iff, Table.exists_createStatement_iff, Asks]
  | dropTable => simp [statements, Asks]
  | addColumns => simp [statements, Asks]
  | addConstraints =>
    rw [statements, Asks, ← Table.exists_addMissingConstraints_iff]
    split <;> simp_all
  | createIndexes =>
    rw [statements, Asks, ← Table.exists_createIndexes_iff config.comments]
    split <;> simp_all
  | addForeignKeys => rw [statements, Table.exists_addForeignKeys_iff, Asks]
  | secureRows => rw [statements, Table.exists_secureRows_iff, Asks]
  | writeComments => simp [statements, Asks]

/-- Steps in turn give a script exactly when the table meets what each of them asks for. -/
theorem Step.exists_runAll_iff (steps : List Step) :
    (∃ script, (runAll config t steps).result = .ok script) ↔
      ∀ step ∈ steps, step.Asks config t := by
  induction steps with
  | nil => simp [runAll]
  | cons step steps ih =>
    have hstep : (∃ script, (step.run config t).result = .ok script) ↔ step.Asks config t := by
      rw [← exists_statements_iff, run]
      cases step.statements config t <;> simp [Except.bind]
    rw [List.forall_mem_cons, ← hstep, ← ih, runAll, Run.result_bind]
    cases (step.run config t).result with
    | error e => simp [Except.bind]
    | ok script =>
      simp only [Except.bind, Run.result_bind]
      cases (runAll config t steps).result <;> simp

theorem Table.exists_script_iff :
    (∃ script, (t.script config).result = .ok script) ↔
      ∀ step ∈ config.migration.mode.steps, step.Asks config t := by
  rw [script, Run.result_bind, Run.result_report]
  exact Step.exists_runAll_iff config.migration.mode.steps

/-! ## Violations -/

namespace Table

theorem reportIf_eq_nil_iff {α : Type} {condition : Bool} {a : α} :
    reportIf condition a = [] ↔ condition = false := by
  cases condition <;> simp [reportIf]

theorem unknownColumns_eq_nil_iff {names : List String} :
    t.unknownColumns names = [] ↔ ∀ column ∈ names, t.hasColumn column = true := by
  simp [unknownColumns, List.filter_eq_nil_iff]

theorem constraintViolations_eq_nil_iff {c : Constraint} :
    t.constraintViolations c = [] ↔
      c.validate = .ok () ∧ ∀ column ∈ c.columns, t.hasColumn column = true := by
  rw [constraintViolations]
  cases hvalidate : c.validate with
  | error e => simp
  | ok u => simp [unknownColumns_eq_nil_iff]

theorem partitionViolations_eq_nil_iff {p : Partition} :
    t.partitionViolations p = [] ↔
      p.validate = .ok () ∧ ∀ column ∈ p.columns, t.partitionColumnViolations column = [] := by
  rw [partitionViolations, List.append_eq_nil_iff, List.flatMap_eq_nil_iff]
  refine and_congr_left fun _ => ?_
  cases p.validate <;> simp

/-- What the audit asks of a table. -/
theorem violations_eq_nil_iff :
    t.violations = [] ↔
      (∀ key ∈ t.foreignKeys, key.isUntargeted = false ∧ t.hasColumn key.column = true) ∧
      (∀ index ∈ t.indexes, ∀ column ∈ index.columns ++ index.included,
        t.hasColumn column = true) ∧
      (∀ policy ∈ t.policies,
        Text.allBlank policy.condition = false ∧ policy.checksInVain = false) ∧
      (∀ c ∈ t.constraints,
        c.validate = .ok () ∧ ∀ column ∈ c.columns, t.hasColumn column = true) ∧
      ∀ p ∈ t.partition,
        p.validate = .ok () ∧ ∀ column ∈ p.columns, t.partitionColumnViolations column = [] := by
  simp only [violations, List.append_eq_nil_iff, List.flatMap_eq_nil_iff, and_assoc,
    foreignKeyViolations, indexViolations, policyViolations, reportIf_eq_nil_iff,
    List.map_eq_nil_iff, unknownColumns_eq_nil_iff, constraintViolations_eq_nil_iff,
    partitionViolations_eq_nil_iff, Option.mem_toList, Option.mem_def, Bool.not_eq_false',
    List.forall_mem_append]

end Table

/-! ## Scripts of tables without violations -/

theorem a_ne_empty : "a" ≠ "" := by decide

theorem b_ne_empty : "b" ≠ "" := by decide

theorem t_ne_empty : "t" ≠ "" := by decide

theorem id_ne_empty : "id" ≠ "" := by decide

theorem isPlain_text : Kind.text.family = .plain := rfl

theorem isPlain_integer : Kind.integer.family = .plain := rfl

/-- A column of integers that may be null. -/
def integerColumn (name : String) (h : name ≠ "") : Column :=
  { name, type := .plain .integer isPlain_integer, nullable := true, primaryKey := false,
    unique := false, default := none, conditions := [], rules := [], collation := none,
    comment := none, name_nonempty := h }

/-- A table with nothing but columns. -/
def columnsTable (columns : List Column) (h : (columns.map (·.name)).Nodup) : Table where
  name := "t"
  columns := columns
  indexes := []
  policies := []
  foreignKeys := []
  constraints := []
  comment := none
  rowSecurity := false
  partition := none
  name_nonempty := t_ne_empty
  columns_nodup := h

/-- A partitioned table with a unique index, a foreign key, a policy that checks written rows, and
a constraint. -/
def ordersTable : Table where
  name := "orders"
  columns :=
    [{ name := "id", type := .plain .uuid rfl, nullable := false, primaryKey := true,
       unique := false, default := some .genRandomUuid, conditions := [], rules := [],
       collation := none, comment := none, name_nonempty := by decide },
     { name := "customer", type := .varchar none, nullable := true, primaryKey := false,
       unique := false, default := none, conditions := ["customer <> ''"], rules := [],
       collation := none, comment := some "who's paying", name_nonempty := by decide }]
  indexes :=
    [{ columns := ["customer"], unique := true, fillFactor := some 70, included := ["id"] }]
  policies :=
    [{ name := "own", command := .insert, roles := [], condition := "true",
       checkCondition := some "customer = current_user", comment := none, permissive := true,
       name_nonempty := by decide }]
  foreignKeys :=
    [{ column := "customer", targetTable := "customers", targetColumn := "name",
       onDelete := .cascade, onUpdate := .noAction, name := none, deferrable := false,
       initiallyDeferred := false, notValid := false, comment := none,
       column_nonempty := by decide }]
  constraints := [{ name := "uq_orders", rule := .unique ["id", "customer"], comment := none }]
  comment := none
  rowSecurity := true
  partition := some { method := .hash, columns := ["id"] }
  name_nonempty := by decide
  columns_nodup := by decide

end PgSchema
