/-
# What the audit lists

A table breaks a rule of the audit at any number of places, and the audit lists the places one by
one.  It goes on behind every place but one: once a constraint is malformed, its columns are not
looked at any more, although the columns of a malformed partitioning are.

* `Table.breaches` : at how many places a table breaks each rule;
* `Table.passedOver` : how many of them are passed over;
* `Table.audit_reports` : all others are listed, so a repair brings to light what was passed over
  and nothing else.
-/
import Mathlib.Data.List.Count
import PgSchema.Proofs.Table.Key

namespace PgSchema

/-! ## Places -/

/-- Holds for a constraint that breaks a rule of its own. -/
def Constraint.isMalformed (c : Constraint) : Bool := !c.validate.isOk

/-- The names among the columns of a constraint.  A blank one is a matter of form. -/
def Constraint.namedColumns (c : Constraint) : List String :=
  c.columns.filter fun column => !Text.allBlank column

/-- The names among the columns of a partitioning.  A blank one is a matter of form. -/
def Partition.namedColumns (p : Partition) : List String :=
  p.columns.filter fun column => !Text.allBlank column

namespace Table

/-- The number of places at which a table breaks a rule. -/
def breaches (t : Table) : Violation → Nat
  | .foreignKeyUntargeted column =>
    (t.foreignKeys.filter fun key => key.column = column && key.isUntargeted).length
  | .foreignKeyColumnUnknown column =>
    (t.unknownColumns (t.foreignKeys.map (·.column))).count column
  | .indexColumnUnknown index column =>
    let indexes := t.indexes.filter (·.effectiveName t.name = index)
    (t.unknownColumns (indexes.flatMap (·.columns))).count column
  | .includedColumnUnknown index column =>
    let indexes := t.indexes.filter (·.effectiveName t.name = index)
    (t.unknownColumns (indexes.flatMap (·.included))).count column
  | .policyConditionBlank policy =>
    (t.policies.filter fun p => p.name = policy && Text.allBlank p.condition).length
  | .policyCheckNotAllowed policy command =>
    (t.policies.filter fun p => p.name = policy && p.command = command && p.checksInVain).length
  | .malformed e =>
    (t.constraints.filter fun c => c.validate = .error e).length +
      (t.partition.toList.filter fun p => p.validate = .error e).length
  | .constraintColumnUnknown constraint column =>
    let constraints := t.constraints.filter (·.name = constraint)
    (t.unknownColumns (constraints.flatMap (·.namedColumns))).count column
  | .partitionColumnUnknown column =>
    (t.unknownColumns (t.partition.toList.flatMap (·.namedColumns))).count column
  | .partitionColumnOutsideKey column =>
    let columns := (t.partition.toList.flatMap (·.namedColumns)).filter t.hasColumn
    (columns.filter (· ∉ t.declaredKey)).count column

/-- The number of places at which a table breaks a rule and which the audit passes over: the names
in malformed constraints that are no columns. -/
def passedOver (t : Table) : Violation → Nat
  | .constraintColumnUnknown constraint column =>
    let constraints := (t.constraints.filter (·.name = constraint)).filter (·.isMalformed)
    (t.unknownColumns (constraints.flatMap (·.namedColumns))).count column
  | _ => 0

/-! ## Counting -/

section Count

variable {α β γ : Type} [DecidableEq β] [DecidableEq γ] {f : α → List β} {g : α → List γ}
  {p : α → Bool} {b : β} {c : γ} (xs : List α)

theorem count_flatMap_filter (h : ∀ x, (f x).count b = if p x then (g x).count c else 0) :
    (xs.flatMap f).count b = ((xs.filter p).flatMap g).count c := by
  induction xs with
  | nil => simp
  | cons x xs ih =>
    rw [List.flatMap_cons, List.count_append, h x, ih]
    cases hp : p x
    · rw [List.filter_cons_of_neg (by simp [hp])]
      simp
    · rw [List.filter_cons_of_pos hp, List.flatMap_cons, List.count_append]
      simp

theorem count_flatMap_length (h : ∀ x, (f x).count b = if p x then 1 else 0) :
    (xs.flatMap f).count b = (xs.filter p).length := by
  have hunits : ∀ x, (f x).count b = if p x then ([()] : List Unit).count () else 0 := h
  rw [count_flatMap_filter xs hunits, ← List.map_eq_flatMap, List.map_const',
    List.count_replicate_self]

variable (g p c) in
theorem count_flatMap_split :
    (xs.flatMap fun x => if p x then [] else g x).count c + ((xs.filter p).flatMap g).count c =
      (xs.flatMap g).count c := by
  induction xs with
  | nil => simp
  | cons x xs ih =>
    cases hp : p x
    · rw [List.filter_cons_of_neg (by simp [hp]), List.flatMap_cons, List.flatMap_cons,
        List.count_append, List.count_append, ← ih]
      simp [hp, Nat.add_assoc]
    · rw [List.filter_cons_of_pos hp, List.flatMap_cons, List.flatMap_cons, List.flatMap_cons,
        List.count_append, List.count_append, List.count_append, ← ih]
      simp only [hp, if_true, List.count_nil]
      omega

end Count

variable {t : Table}

theorem unknownColumns_flatMap {α : Type} (xs : List α) (g : α → List String) :
    t.unknownColumns (xs.flatMap g) = xs.flatMap fun x => t.unknownColumns (g x) :=
  List.filter_flatMap ..

theorem unknownColumns_nil : t.unknownColumns [] = [] := rfl

theorem count_reportIf (condition : Bool) (v w : Violation) :
    (reportIf condition v).count w = if v = w && condition then 1 else 0 := by
  unfold reportIf
  split <;> simp_all [List.count_singleton]

theorem count_unknownColumns_singleton (name column : String) :
    (t.unknownColumns [name]).count column =
      if name = column && !t.hasColumn name then 1 else 0 := by
  cases hknown : t.hasColumn name <;> simp [unknownColumns, hknown, List.count_singleton]

/-- Violations that name an entry and one of its columns. -/
theorem count_flatMap_named {α : Type} (xs : List α) {f : α → List Violation} {name : α → String}
    {g : α → List String} {make : String → String → Violation} {key column : String}
    (hmake : ∀ a b, make key a = make key b → a = b)
    (h : ∀ x, (f x).count (make key column) =
      ((t.unknownColumns (g x)).map (make (name x))).count (make key column))
    (hname : ∀ a b c, make a b = make key c → a = key) :
    (xs.flatMap f).count (make key column) =
      (t.unknownColumns ((xs.filter (name · = key)).flatMap g)).count column := by
  rw [unknownColumns_flatMap]
  refine count_flatMap_filter xs fun x => ?_
  rw [h x]
  by_cases hx : name x = key
  · rw [hx, List.count_map_of_injective _ _ fun a b => hmake a b]
    simp
  · rw [if_neg (by simpa using hx), List.count_eq_zero]
    intro hmem
    obtain ⟨b, -, hb⟩ := List.mem_map.1 hmem
    exact hx (hname _ _ _ hb)

/-! ## Parts -/

theorem count_foreignKeyViolations (v : Violation) :
    (t.foreignKeys.flatMap t.foreignKeyViolations).count v =
      match v with
      | .foreignKeyUntargeted _ | .foreignKeyColumnUnknown _ => t.breaches v
      | _ => 0 := by
  cases v with
  | foreignKeyUntargeted column =>
    refine count_flatMap_length _ fun key => ?_
    rw [foreignKeyViolations, List.count_append, count_reportIf, count_reportIf]
    simp
  | foreignKeyColumnUnknown column =>
    have hcolumns : t.unknownColumns (t.foreignKeys.map (·.column)) =
        t.foreignKeys.flatMap fun key => t.unknownColumns [key.column] := by
      rw [List.map_eq_flatMap, unknownColumns_flatMap]
    change _ = (t.unknownColumns (t.foreignKeys.map (·.column))).count column
    rw [hcolumns, List.count_flatMap, List.count_flatMap]
    congr 1
    refine List.map_congr_left fun key _ => ?_
    rw [Function.comp_apply, Function.comp_apply, count_unknownColumns_singleton,
      foreignKeyViolations, List.count_append, count_reportIf, count_reportIf]
    simp
  | _ => simp [List.count_eq_zero, foreignKeyViolations, reportIf]

theorem count_indexViolations (v : Violation) :
    (t.indexes.flatMap t.indexViolations).count v =
      match v with
      | .indexColumnUnknown .. | .includedColumnUnknown .. => t.breaches v
      | _ => 0 := by
  cases v with
  | indexColumnUnknown key column =>
    refine count_flatMap_named _ (by simp) (fun index => ?_) (by simp)
    simp [indexViolations, List.count_eq_zero]
  | includedColumnUnknown key column =>
    refine count_flatMap_named _ (by simp) (fun index => ?_) (by simp)
    simp [indexViolations, List.count_eq_zero]
  | _ => simp [List.count_eq_zero, indexViolations]

theorem count_policyViolations (v : Violation) :
    (t.policies.flatMap policyViolations).count v =
      match v with
      | .policyConditionBlank _ | .policyCheckNotAllowed .. => t.breaches v
      | _ => 0 := by
  cases v with
  | policyConditionBlank name =>
    refine count_flatMap_length _ fun policy => ?_
    rw [policyViolations, List.count_append, count_reportIf, count_reportIf]
    simp
  | policyCheckNotAllowed name command =>
    refine count_flatMap_length _ fun policy => ?_
    rw [policyViolations, List.count_append, count_reportIf, count_reportIf]
    simp
  | _ => simp [List.count_eq_zero, policyViolations, reportIf]

/-- A well-formed constraint has no blank columns. -/
theorem namedColumns_of_validate {c : Constraint} (h : c.validate = .ok ()) :
    c.namedColumns = c.columns := by
  have hnone : ∀ (list : ColumnList) (columns : List String), list.validate columns = .ok () →
      columns.filter (fun column => !Text.allBlank column) = columns := by
    intro list columns hlist
    unfold ColumnList.validate at hlist
    split at hlist
    · cases hlist
    · split at hlist
      · cases hlist
      · next hblank =>
        refine List.filter_eq_self.2 fun column hcolumn => ?_
        simp only [List.any_eq_true, not_exists, not_and] at hblank
        simpa using hblank column hcolumn
  obtain ⟨-, -, hrule⟩ := bind_eq_ok_iff.1 h
  unfold Constraint.namedColumns Constraint.columns
  cases hdemand : c.rule with
  | check condition => rfl
  | unique columns => rw [hdemand] at hrule; exact hnone _ _ hrule
  | primaryKey columns => rw [hdemand] at hrule; exact hnone _ _ hrule

theorem count_constraintViolations_malformed (e : StructureError) :
    (t.constraints.flatMap t.constraintViolations).count (.malformed e) =
      (t.constraints.filter fun c => c.validate = .error e).length := by
  refine count_flatMap_length _ fun c => ?_
  unfold constraintViolations
  split
  · next e' h => simp [h, List.count_singleton]
  · next h => simp [h, List.count_eq_zero]

theorem count_constraintViolations (v : Violation) :
    (t.constraints.flatMap t.constraintViolations).count v + t.passedOver v =
      match v with
      | .malformed e => (t.constraints.filter fun c => c.validate = .error e).length
      | .constraintColumnUnknown .. => t.breaches v
      | _ => 0 := by
  cases v with
  | malformed e => exact count_constraintViolations_malformed e
  | constraintColumnUnknown key column =>
    -- only well-formed constraints are listed; the malformed ones are those passed over
    have hlisted : (t.constraints.flatMap t.constraintViolations).count
        (.constraintColumnUnknown key column) =
        (t.unknownColumns ((t.constraints.filter (·.name = key)).flatMap fun c =>
          if c.isMalformed then [] else c.namedColumns)).count column := by
      refine count_flatMap_named _ (by simp) (fun c => ?_) (by simp)
      unfold constraintViolations Constraint.isMalformed
      split
      · next e h => simp [h, Except.isOk, Except.toBool, unknownColumns]
      · next h => simp [h, Except.isOk, Except.toBool, namedColumns_of_validate h]
    have hsplit := count_flatMap_split (fun c => t.unknownColumns c.namedColumns) (·.isMalformed)
      column (t.constraints.filter (·.name = key))
    simp only [unknownColumns_flatMap, apply_ite t.unknownColumns, unknownColumns_nil] at hlisted
    rw [← unknownColumns_flatMap, ← unknownColumns_flatMap, ← hlisted] at hsplit
    exact hsplit
  | _ =>
    refine List.count_eq_zero.2 ?_
    rw [List.mem_flatMap]
    rintro ⟨c, -, hmem⟩
    unfold constraintViolations at hmem
    split at hmem <;> simp at hmem

theorem count_partitionColumnViolations (columns : List String) (v : Violation) :
    (columns.flatMap t.partitionColumnViolations).count v =
      match v with
      | .partitionColumnUnknown column =>
        (t.unknownColumns (columns.filter fun c => !Text.allBlank c)).count column
      | .partitionColumnOutsideKey column =>
        (((columns.filter fun c => !Text.allBlank c).filter t.hasColumn).filter
          (· ∉ t.declaredKey)).count column
      | _ => 0 := by
  induction columns with
  | nil => cases v <;> simp [unknownColumns]
  | cons column columns ih =>
    rw [List.flatMap_cons, List.count_append, ih]
    unfold partitionColumnViolations reportIf unknownColumns
    cases hblank : Text.allBlank column <;> cases hknown : t.hasColumn column <;>
      by_cases hkey : column ∈ t.declaredKey <;> cases v <;>
      simp [hblank, hknown, hkey, List.count_cons, Nat.add_comm]

theorem count_partitionViolations (v : Violation) :
    (t.partition.toList.flatMap t.partitionViolations).count v =
      match v with
      | .malformed e => (t.partition.toList.filter fun p => p.validate = .error e).length
      | .partitionColumnUnknown _ | .partitionColumnOutsideKey _ => t.breaches v
      | _ => 0 := by
  cases hpartition : t.partition with
  | none => cases v <;> simp [breaches, hpartition, unknownColumns]
  | some p =>
    rw [Option.toList_some, List.flatMap_singleton, partitionViolations, List.count_append,
      count_partitionColumnViolations]
    cases hvalidate : p.validate <;> cases v <;>
      simp [breaches, hpartition, hvalidate, Partition.namedColumns, List.count_singleton,
        List.filter_cons, apply_ite List.length]

/-- Every place at which a table breaks a rule is listed or passed over. -/
theorem count_violations (v : Violation) :
    t.violations.count v + t.passedOver v = t.breaches v := by
  have hconstraints := count_constraintViolations (t := t) v
  simp only [violations, List.count_append, count_foreignKeyViolations, count_indexViolations,
    count_policyViolations, count_partitionViolations]
  cases v with
  | malformed e =>
    simp only [passedOver, Nat.add_zero, Nat.zero_add] at hconstraints ⊢
    rw [hconstraints]
    rfl
  | _ => simp_all [passedOver]

/-- Nothing is passed over exactly when the names in malformed constraints are columns. -/
theorem passedOver_eq_zero_iff :
    (∀ v, t.passedOver v = 0) ↔
      ∀ c ∈ t.constraints, c.isMalformed = true → t.unknownColumns c.namedColumns = [] := by
  constructor
  · intro h c hc hmalformed
    refine List.eq_nil_iff_forall_not_mem.2 fun column hcolumn => ?_
    have hzero := h (.constraintColumnUnknown c.name column)
    rw [passedOver, unknownColumns_flatMap, List.count_eq_zero, List.mem_flatMap] at hzero
    refine hzero ⟨c, ?_, hcolumn⟩
    simp [hc, hmalformed]
  · intro h v
    cases v with
    | constraintColumnUnknown key column =>
      rw [passedOver, unknownColumns_flatMap, List.count_eq_zero, List.mem_flatMap]
      rintro ⟨c, hc, hcolumn⟩
      simp only [List.mem_filter] at hc
      rw [h c hc.1.1 hc.2] at hcolumn
      cases hcolumn
    | _ => rfl

/-- The audit lists every place at which a table breaks a rule, but for the names in malformed
constraints.  So a table that breaks no rule at more places than another one has no violations that
are not listed for the other one or passed over there. -/
theorem audit_reports (t : Table) :
    (∀ v, t.violations.count v + t.passedOver v = t.breaches v) ∧
      ((∀ v, t.violations.count v = t.breaches v) ↔
        ∀ c ∈ t.constraints, c.isMalformed = true → t.unknownColumns c.namedColumns = []) ∧
      ∀ repaired : Table, (∀ v, repaired.breaches v ≤ t.breaches v) →
        ∀ v, repaired.violations.count v ≤ t.violations.count v + t.passedOver v := by
  refine ⟨fun v => count_violations v, ?_, fun repaired hrepaired v => ?_⟩
  · rw [← passedOver_eq_zero_iff]
    refine forall_congr' fun v => ?_
    have hcount := count_violations (t := t) v
    omega
  · have hcount := count_violations (t := t) v
    have hcount' := count_violations (t := repaired) v
    have hle := hrepaired v
    omega

end Table

/-! ## Tables with constraints over unknown columns -/

/-- A table of one column with a uniqueness constraint. -/
def uniqueTable (constraint : String) (columns : List String) : Table :=
  { twiceKeyedTable with
    constraints := [{ name := constraint, rule := .unique columns, comment := none }] }

/-- Both unknown columns of a well-formed constraint are listed, and one of them is when the other
one is taken out. -/
theorem violations_uniqueTable :
    (uniqueTable "u" ["b", "c"]).violations =
        [.constraintColumnUnknown "u" "b", .constraintColumnUnknown "u" "c"] ∧
      (∀ v, (uniqueTable "u" ["c"]).breaches v ≤ (uniqueTable "u" ["b", "c"]).breaches v) ∧
      ∀ v, (uniqueTable "u" ["c"]).violations.count v ≤
        (uniqueTable "u" ["b", "c"]).violations.count v := by
  have hboth : (uniqueTable "u" ["b", "c"]).violations =
      [.constraintColumnUnknown "u" "b", .constraintColumnUnknown "u" "c"] := by decide
  have hone : (uniqueTable "u" ["c"]).violations = [.constraintColumnUnknown "u" "c"] := by decide
  obtain ⟨-, hlists, hrepair⟩ := Table.audit_reports (uniqueTable "u" ["b", "c"])
  obtain ⟨-, hlists', -⟩ := Table.audit_reports (uniqueTable "u" ["c"])
  have hall := hlists.2 (by decide)
  have hall' := hlists'.2 (by decide)
  have hle (v : Violation) :
      (uniqueTable "u" ["c"]).breaches v ≤ (uniqueTable "u" ["b", "c"]).breaches v := by
    rw [← hall, ← hall', hone, hboth]
    exact (List.sublist_cons_self _ _).count_le v
  have hnone : ∀ v, (uniqueTable "u" ["b", "c"]).passedOver v = 0 :=
    Table.passedOver_eq_zero_iff.2 (by decide)
  refine ⟨hboth, hle, fun v => ?_⟩
  have hnew := hrepair _ hle v
  rwa [hnone v] at hnew

/-- The unknown column of a misnamed constraint is not listed before the constraint has got another
name. -/
theorem violations_misnamed :
    (uniqueTable "9lives" ["zzz"]).violations = [.malformed (.constraintMisnamed "9lives")] ∧
      (uniqueTable "9lives" ["zzz"]).breaches (.constraintColumnUnknown "9lives" "zzz") = 1 ∧
      (uniqueTable "lives" ["zzz"]).violations = [.constraintColumnUnknown "lives" "zzz"] := by
  decide

end PgSchema
