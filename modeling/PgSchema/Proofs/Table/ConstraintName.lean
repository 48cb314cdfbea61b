/-
# Names of constraints

A constraint passes its check if its name is a plain one, or a plain one with a line feed behind it,
and what it demands is complete.  A statement that creates constraints has passed them all before.

* `Constraint.validate_eq_ok_iff` : the constraints that pass;
* `Table.constraints_validated` : the constraints in the statements of a table;
* `Constraint.validate_lineFeed` : a constraint that passes for all its line feed.
-/
import PgSchema.Proofs.Sql.Word
import PgSchema.Proofs.Table.KeyColumn
import PgSchema.Proofs.Table.Scope

namespace PgSchema

/-- Holds for a condition that is not blank, and for some columns none of which is. -/
def ConstraintRule.IsComplete : ConstraintRule → Prop
  | check condition => Text.allBlank condition = false
  | unique columns | primaryKey columns =>
    columns ≠ [] ∧ ∀ c ∈ columns, Text.allBlank c = false

namespace Constraint

/-! ## Names -/

/-- Holds for a plain name, and for a plain name with a line feed behind it. -/
def IsNearlyPlain (name : String) : Prop :=
  Sql.isAsciiName name = true ∨ ∃ plain, Sql.isAsciiName plain = true ∧ name = plain ++ "\n"

/-- A plain name starts with a letter or an underscore. -/
theorem isAlpha_or_eq (c : Char) :
    (c.isAlpha || c == '_') = (!c.isDigit && Sql.isNameChar c) := by
  have hname : Sql.isNameChar c = (c.isAlpha || c.isDigit || c == '_') := rfl
  cases hdigit : c.isDigit with
  | false => simp [hname, hdigit]
  | true =>
    have hfirst := @Sql.of_isNameChar (fun c => !c.isDigit || !(c.isAlpha || c == '_'))
      (by decide) c (by simp [hname, hdigit])
    simpa [hdigit] using hfirst

/-- The names that pass consist of a word and at most a line feed behind it. -/
theorem isWellNamed_iff_toList {name : String} :
    isWellNamed name = true ↔ ∃ word rest, Sql.isAsciiWord word = true ∧
      (rest = [] ∨ rest = ['\n']) ∧ name.toList = word ++ rest := by
  have hwell (c : Char) (cs : List Char) (h : name.toList = c :: cs) : isWellNamed name =
      ((c.isAlpha || c == '_') && (cs.dropWhile Sql.isNameChar == [] ||
        cs.dropWhile Sql.isNameChar == ['\n'])) := by
    rw [isWellNamed, h]
    rfl
  constructor
  · intro h
    cases hname : name.toList with
    | nil =>
      rw [isWellNamed, hname] at h
      cases h
    | cons c cs =>
      rw [hwell c cs hname, isAlpha_or_eq, Bool.and_eq_true, Bool.or_eq_true, beq_iff_eq,
        beq_iff_eq] at h
      obtain ⟨hfirst, hrest⟩ := h
      refine ⟨c :: cs.takeWhile Sql.isNameChar, cs.dropWhile Sql.isNameChar, ?_, hrest, ?_⟩
      · rw [Sql.isAsciiWord, List.all_cons, List.all_takeWhile, Bool.and_true]
        exact hfirst
      · rw [List.cons_append, List.takeWhile_append_dropWhile]
  · rintro ⟨word, rest, hword, hrest, hname⟩
    obtain ⟨c, cs, rfl, hdigit, hall⟩ := Sql.of_isAsciiWord hword
    obtain ⟨hc, hcs⟩ := List.forall_mem_cons.1 hall
    -- the line feed is no character of a name, so the word ends before it
    have hend : ∀ d ∈ rest.head?, Sql.isNameChar d = false := by
      have hfeed : Sql.isNameChar '\n' = false := by decide
      rcases hrest with rfl | rfl
      · simp
      · simpa using hfeed
    rw [hwell c (cs ++ rest) hname, Text.dropWhile_append_of_head? hcs hend, isAlpha_or_eq, hdigit,
      hc]
    simpa using hrest

theorem isWellNamed_iff {name : String} : isWellNamed name = true ↔ IsNearlyPlain name := by
  rw [isWellNamed_iff_toList]
  constructor
  · rintro ⟨word, rest, hword, rfl | rfl, hname⟩
    · left
      rwa [Sql.isAsciiName, hname, List.append_nil]
    · refine .inr ⟨String.ofList word, by rwa [Sql.isAsciiName, String.toList_ofList], ?_⟩
      rw [← String.toList_inj, hname, String.toList_append, String.toList_ofList]
      rfl
  · rintro (hplain | ⟨plain, hplain, rfl⟩)
    · exact ⟨_, [], hplain, .inl rfl, (List.append_nil _).symm⟩
    · exact ⟨_, ['\n'], hplain, .inr rfl, String.toList_append ..⟩

theorem validateName_eq_ok_iff {name : String} :
    validateName name = .ok () ↔ IsNearlyPlain name := by
  rw [← isWellNamed_iff, validateName]
  split
  · next hempty =>
    rw [hempty]
    simp [isWellNamed]
  · split <;> simp_all

/-! ## Checks -/

/-- The constraints that pass their check. -/
theorem validate_eq_ok_iff {c : Constraint} :
    c.validate = .ok () ↔ IsNearlyPlain c.name ∧ c.rule.IsComplete := by
  rw [validate, check_bind_eq_ok_iff, validateName_eq_ok_iff]
  refine and_congr_right fun _ => ?_
  cases c.rule with
  | check condition => simp [ConstraintRule.IsComplete]
  | unique columns => exact ColumnList.validate_eq_ok_iff
  | primaryKey columns => exact ColumnList.validate_eq_ok_iff

/-- A line feed behind a name is passed over. -/
theorem validate_lineFeed :
    Constraint.validate ⟨"a\n", .unique ["x"], none⟩ = .ok () ∧
      Sql.isAsciiName "a\n" = false :=
  ⟨rfl, by decide⟩

end Constraint

/-! ## Statements -/

/-- The constraint that an element of a new table is. -/
def TableElement.constraint? : TableElement → Option Constraint
  | constraint c => some c
  | column _ | primaryKey _ => none

/-- The constraint that is added. -/
def Addition.constraint? : Addition → Option Constraint
  | constraint c => some c
  | column _ => none

namespace Statement

/-- The constraints that a statement gives a new table, or adds to one. -/
def constraints : Statement → List Constraint
  | createTable _ _ elements _ => elements.filterMap (·.constraint?)
  | addMissing _ additions => additions.filterMap (·.constraint?)
  | _ => []

/-- The constraints of a statement stand in its text. -/
theorem contains_sql_of_mem_constraints {s : Statement} {c : Constraint} (h : c ∈ s.constraints) :
    Text.contains s.sql c.sql = true := by
  cases s with
  | createTable table unlessExists elements partition =>
    obtain ⟨element, hmem, helement⟩ := List.mem_filterMap.1 h
    cases element with
    | constraint c' =>
      obtain rfl := Option.some.inj helement
      obtain ⟨before, after, hline⟩ := exists_line_of_mem_elements
        (s := createTable table unlessExists elements partition) hmem
      exact Text.contains_iff.2 ⟨before ++ "\n  ", after, hline⟩
    | _ => cases helement
  | addMissing table additions =>
    obtain ⟨addition, hmem, haddition⟩ := List.mem_filterMap.1 h
    cases addition with
    | constraint c' =>
      obtain rfl := Option.some.inj haddition
      exact Text.contains_trans (Text.contains_iff.2 ⟨_, ";", rfl⟩) (contains_addition hmem)
    | column d => cases haddition
  | _ => cases h

end Statement

namespace Table

variable {t : Table} {s : Statement}

theorem constraints_createTable (unlessExists explicit : Bool) :
    (Statement.createTable t.name unlessExists (t.elements explicit) t.partition).constraints =
      t.constraints := by
  rw [Statement.constraints, filterMap_elements fun _ => rfl]
  simp [TableElement.constraint?]

theorem constraints_of_mem_addMissing (h : s ∈ t.addMissing (t.constraints.map .constraint)) :
    s.constraints = t.constraints := by
  unfold addMissing at h
  split at h
  · cases h
  · rw [List.mem_singleton.1 h, Statement.constraints, List.filterMap_map]
    simp [Function.comp_def, Addition.constraint?]

/-- The statement that creates a table and the block that adds its constraints have the constraints
of the table in them, every one with a name that is plain up to a line feed behind it. -/
theorem constraints_validated (t : Table) :
    (∀ c : Constraint,
      c.validate = .ok () ↔ Constraint.IsNearlyPlain c.name ∧ c.rule.IsComplete) ∧
    ∀ s, (∃ unlessExists explicit, t.createStatement unlessExists explicit = .ok s) ∨
        (∃ script, t.addMissingConstraints = .ok script ∧ s ∈ script) →
      s.constraints = t.constraints ∧ ∀ c ∈ s.constraints,
        Constraint.IsNearlyPlain c.name ∧
          Text.contains s.sql
            ("CONSTRAINT " ++ c.name ++ " " ++ Constraint.ruleSql c.rule) = true := by
  refine ⟨fun c => Constraint.validate_eq_ok_iff, fun s hs => ?_⟩
  have hbuilt : (∀ c ∈ t.constraints, c.validate = .ok ()) ∧ s.constraints = t.constraints := by
    rcases hs with ⟨unlessExists, explicit, hs⟩ | ⟨script, hscript, hs⟩
    · refine ⟨(exists_createStatement_iff.1 ⟨s, hs⟩).1, ?_⟩
      rw [eq_of_createStatement_eq_ok hs, constraints_createTable]
    · refine ⟨exists_addMissingConstraints_iff.1 ⟨script, hscript⟩, ?_⟩
      obtain ⟨-, hblock⟩ := check_bind_eq_ok_iff.1 hscript
      obtain rfl := Except.ok.inj hblock
      exact constraints_of_mem_addMissing hs
  obtain ⟨hvalid, hconstraints⟩ := hbuilt
  refine ⟨hconstraints, fun c hc => ⟨?_, Statement.contains_sql_of_mem_constraints hc⟩⟩
  exact (Constraint.validate_eq_ok_iff.1 (hvalid c (hconstraints ▸ hc))).1

/-- The constraint of the orders, created with the table and added to it. -/
theorem constraints_validated_ordersTable :
    ∃ create block, ordersTable.createStatement false false = .ok create ∧
      ordersTable.addMissingConstraints = .ok [block] ∧
      (∀ c ∈ create.constraints, Constraint.IsNearlyPlain c.name) ∧
      ∀ c ∈ block.constraints, Constraint.IsNearlyPlain c.name := by
  obtain ⟨-, hbuilt⟩ := constraints_validated ordersTable
  have hcreate : ordersTable.createStatement false false = .ok _ := rfl
  have hblock : ordersTable.addMissingConstraints = .ok [_] := rfl
  exact ⟨_, _, hcreate, hblock,
    fun c hc => ((hbuilt _ (.inl ⟨_, _, hcreate⟩)).2 c hc).1,
    fun c hc => ((hbuilt _ (.inr ⟨_, hblock, List.mem_singleton_self _⟩)).2 c hc).1⟩

end Table
end PgSchema
