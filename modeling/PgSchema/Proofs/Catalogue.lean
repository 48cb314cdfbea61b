/-
# What a script does to a database

A catalogue is what a database knows of its tables: the stored names of their columns and of their
named constraints.  A statement that adds a part fails if the part is there already, unless it looks
first; a guard reads what it looks for from its query and what it adds from its statement.

* `Catalogue.runGuard`, `Catalogue.run`, `Catalogue.rerun` : a guard, a statement, and a script as
  often as one likes;
* `Guard.Matches` : a guard looks for the stored names of what it adds;
* `runGuard_ne_partThere`, `Repeatable.foldlM` : what matching guards never do, and what a second
  run changes.
-/
import PgSchema.Proofs.Result
import PgSchema.Proofs.Sql.Names
import PgSchema.Script
import PgSchema.Text.Search

namespace PgSchema

open Text Sql

/-! ## Catalogues -/

/-- A part of a table, under its stored names. -/
inductive Part
  | column (table column : String)
  | constraint (table constraint : String)
deriving DecidableEq

/-- What can be looked for: a column of a table, or a constraint of any table. -/
inductive Lookup
  | column (table column : String)
  | constraint (constraint : String)
deriving DecidableEq

namespace Part

/-- The table of a part. -/
def table : Part → String
  | column table _ => table
  | constraint table _ => table

/-- What finds a part. -/
def lookup : Part → Lookup
  | column table name => .column table name
  | constraint _ name => .constraint name

end Part

/-- The tables of a database and their parts. -/
@[ext] structure Catalogue where
  tables : List String
  parts : List Part
  parts_known : ∀ p ∈ parts, p.table ∈ tables
deriving DecidableEq

/-- Why a statement fails. -/
inductive ExecutionError
  | tableThere (table : String)
  | tableMissing (table : String)
  | partThere (part : Part)
  | partRepeated (table : String)
  | unreadable (text : String)
deriving DecidableEq

namespace Catalogue

/-- A database without tables. -/
def empty : Catalogue := ⟨[], [], by simp⟩

/-- Holds when something is found. -/
def finds (c : Catalogue) (l : Lookup) : Bool := c.parts.any fun p => p.lookup == l

/-- Adds a part to a table that lacks it. -/
def add (c : Catalogue) (p : Part) : Except ExecutionError Catalogue :=
  if h : p.table ∈ c.tables then
    if p ∈ c.parts then .error (.partThere p)
    else .ok ⟨c.tables, p :: c.parts, List.forall_mem_cons.2 ⟨h, c.parts_known⟩⟩
  else .error (.tableMissing p.table)

/-- Adds a table with parts of distinct names. -/
def create (c : Catalogue) (table : String) (parts : List { p : Part // p.table = table }) :
    Except ExecutionError Catalogue :=
  if (parts.map (·.val)).Nodup then
    .ok ⟨table :: c.tables, parts.map (·.val) ++ c.parts, by
      intro p hp
      rcases List.mem_append.1 hp with hnew | hold
      · obtain ⟨q, -, rfl⟩ := List.mem_map.1 hnew
        rw [q.property]
        exact List.mem_cons_self
      · exact List.mem_cons_of_mem table (c.parts_known p hold)⟩
  else .error (.partRepeated table)

/-- Removes a table and its parts. -/
def drop (c : Catalogue) (table : String) : Catalogue :=
  ⟨c.tables.filter (· ≠ table), c.parts.filter (·.table ≠ table), by
    intro p hp
    obtain ⟨hmem, hne⟩ := List.mem_filter.1 hp
    exact List.mem_filter.2 ⟨c.parts_known p hmem, hne⟩⟩

/-- One catalogue knows all that another one knows. -/
instance : LE Catalogue := ⟨fun c d => c.tables ⊆ d.tables ∧ c.parts ⊆ d.parts⟩

theorem le_refl (c : Catalogue) : c ≤ c := ⟨List.Subset.refl _, List.Subset.refl _⟩

theorem le_trans {c d e : Catalogue} (hcd : c ≤ d) (hde : d ≤ e) : c ≤ e :=
  ⟨List.Subset.trans hcd.1 hde.1, List.Subset.trans hcd.2 hde.2⟩

theorem finds_iff {c : Catalogue} {l : Lookup} :
    c.finds l = true ↔ ∃ p ∈ c.parts, p.lookup = l := by
  simp [finds, List.any_eq_true]

theorem finds_of_le {c d : Catalogue} {l : Lookup} (hle : c ≤ d) (h : c.finds l = true) :
    d.finds l = true := by
  obtain ⟨p, hp, hl⟩ := finds_iff.1 h
  exact finds_iff.2 ⟨p, hle.2 hp, hl⟩

theorem mem_of_add_eq_partThere {c : Catalogue} {p q : Part}
    (h : c.add p = .error (.partThere q)) : p ∈ c.parts := by
  unfold add at h
  split at h
  · split at h
    · next hmem => exact hmem
    · simp at h
  · simp at h

theorem of_add_eq_ok {c d : Catalogue} {p : Part} (h : c.add p = .ok d) :
    c ≤ d ∧ p ∈ d.parts := by
  unfold add at h
  split at h
  · split at h
    · simp at h
    · obtain rfl := Except.ok.inj h
      exact ⟨⟨List.Subset.refl _, List.subset_cons_self p _⟩, List.mem_cons_self⟩
  · simp at h

theorem add_of_mem {c : Catalogue} {p : Part} (h : p ∈ c.parts) :
    c.add p = .error (.partThere p) := by
  rw [add, dif_pos (c.parts_known p h), if_pos h]

theorem of_create_eq_ok {c d : Catalogue} {table : String}
    {parts : List { p : Part // p.table = table }} (h : c.create table parts = .ok d) :
    c ≤ d ∧ table ∈ d.tables := by
  unfold create at h
  split at h
  · obtain rfl := Except.ok.inj h
    exact ⟨⟨List.subset_cons_self table _, List.subset_append_right _ _⟩, List.mem_cons_self⟩
  · simp at h

end Catalogue

/-! ## Guards -/

/-- A query, and the statement that is run if the query finds nothing. -/
abbrev Guard := String × String

namespace Guard

/-- What a query looks for: the names that it compares with. -/
def readQuery? (cs : List Char) : Option Lookup :=
  match dropStart? "SELECT 1 FROM information_schema.columns WHERE table_name = ".toList cs with
  | some cs => do
    let (table, cs) ← readLiteral? cs
    let cs ← dropStart? " AND column_name = ".toList cs
    let (column, cs) ← readLiteral? cs
    if cs.isEmpty then some (.column table column) else none
  | none => do
    let cs ← dropStart? "SELECT 1 FROM pg_constraint WHERE conname = ".toList cs
    let (constraint, cs) ← readLiteral? cs
    if cs.isEmpty then some (.constraint constraint) else none

/-- What a statement adds, under its stored names. -/
def readAddition? (cs : List Char) : Option Part := do
  let cs ← dropStart? "ALTER TABLE ".toList cs
  let (table, cs) ← readName? cs
  match dropStart? " ADD COLUMN ".toList cs with
  | some cs => (readName? cs).map fun (column, _) => .column table column
  | none => do
    let cs ← dropStart? " ADD CONSTRAINT ".toList cs
    (readName? cs).map fun (constraint, _) => .constraint table constraint

/-- Holds for a guard that looks for what it adds: the names that its query compares with are the
stored names of the part. -/
def Matches (g : Guard) : Prop :=
  ∃ p, readAddition? g.2.toList = some p ∧ readQuery? g.1.toList = some p.lookup

end Guard

/-! ## Statements -/

/-- The part that an element of a new table makes. -/
def TableElement.part? (table : String) : TableElement → Option { p : Part // p.table = table }
  | column d => some ⟨.column table (stored d.name), rfl⟩
  | constraint c => some ⟨.constraint table (stored c.name), rfl⟩
  | primaryKey _ => none

/-- The guards of a statement. -/
def Statement.guards : Statement → List Guard
  | addMissing table additions => additions.map fun a => (a.query table, a.sql table)
  | _ => []

/-- The guards of a script. -/
def Script.guards (script : Script) : List Guard := script.flatMap Statement.guards

namespace Catalogue

/-- Runs a guard: the statement is run if the query finds nothing. -/
def runGuard (c : Catalogue) (g : Guard) : Except ExecutionError Catalogue :=
  match Guard.readQuery? g.1.toList, Guard.readAddition? g.2.toList with
  | some l, some p => if c.finds l then .ok c else c.add p
  | none, _ => .error (.unreadable g.1)
  | some _, none => .error (.unreadable g.2)

/-- Runs a statement on tables with plain names.  Indexes, row security and comments make no columns
and no constraints. -/
def run (c : Catalogue) : Statement → Except ExecutionError Catalogue
  | .createTable table unlessExists elements _ =>
    if stored table ∈ c.tables then
      if unlessExists then .ok c else .error (.tableThere (stored table))
    else c.create (stored table) (elements.filterMap (·.part? (stored table)))
  | .dropTable table => .ok (c.drop (stored table))
  | .addColumn table d =>
    let p : Part := .column (stored table) (stored d.name)
    if p ∈ c.parts then .ok c else c.add p
  | .addMissing table additions => (Statement.addMissing table additions).guards.foldlM runGuard c
  | .addForeignKey table key =>
    c.add (.constraint (stored table) (stored (key.effectiveName table)))
  | .createIndex .. | .enableRowSecurity .. | .createPolicy .. | .comment .. => .ok c

/-- Runs a script a number of times. -/
def rerun (script : Script) : Nat → Catalogue → Except ExecutionError Catalogue
  | 0, c => .ok c
  | n + 1, c => do rerun script n (← script.foldlM run c)

theorem run_createTable_of_mem {c : Catalogue} {table : String} (h : stored table ∈ c.tables)
    (elements : List TableElement) (partition : Option Partition) :
    c.run (.createTable table true elements partition) = .ok c := by
  rw [run, if_pos h, if_pos rfl]

theorem run_addColumn_of_mem {c : Catalogue} {table : String} {d : ColumnDefinition}
    (h : .column (stored table) (stored d.name) ∈ c.parts) :
    c.run (.addColumn table d) = .ok c := by
  rw [run, if_pos h]

/-! ## Matching guards -/

theorem runGuard_of_matches {g : Guard} (h : g.Matches) :
    ∃ p : Part, ∀ c : Catalogue, c.runGuard g = if c.finds p.lookup then .ok c else c.add p := by
  obtain ⟨p, hp, hl⟩ := h
  exact ⟨p, fun c => by rw [runGuard, hp, hl]⟩

/-- A guard that looks for what it adds never adds what is there. -/
theorem runGuard_ne_partThere {g : Guard} (h : g.Matches) (c : Catalogue) (q : Part) :
    c.runGuard g ≠ .error (.partThere q) := by
  obtain ⟨p, hrun⟩ := runGuard_of_matches h
  rw [hrun]
  intro herror
  split at herror
  · simp at herror
  · next hfinds => exact hfinds (finds_iff.2 ⟨p, mem_of_add_eq_partThere herror, rfl⟩)

/-- Holds for a step that keeps what is there and has nothing left to do once it is done. -/
def Repeatable {α : Type} (f : Catalogue → α → Except ExecutionError Catalogue) (x : α) : Prop :=
  ∀ c d, f c x = .ok d → c ≤ d ∧ ∀ e, d ≤ e → f e x = .ok e

theorem repeatable_runGuard {g : Guard} (h : g.Matches) : Repeatable runGuard g := by
  obtain ⟨p, hrun⟩ := runGuard_of_matches h
  intro c d hd
  have hdone : c ≤ d ∧ d.finds p.lookup = true := by
    rw [hrun] at hd
    split at hd
    · next hfinds =>
      obtain rfl := Except.ok.inj hd
      exact ⟨le_refl c, hfinds⟩
    · obtain ⟨hle, hmem⟩ := of_add_eq_ok hd
      exact ⟨hle, finds_iff.2 ⟨p, hmem, rfl⟩⟩
  exact ⟨hdone.1, fun e he => by rw [hrun, if_pos (finds_of_le he hdone.2)]⟩

/-- Repeatable steps in turn are repeatable. -/
theorem Repeatable.foldlM {α : Type} {f : Catalogue → α → Except ExecutionError Catalogue}
    {xs : List α} (h : ∀ x ∈ xs, Repeatable f x) : Repeatable (List.foldlM f) xs := by
  induction xs with
  | nil =>
    intro c d hd
    obtain rfl := Except.ok.inj hd
    exact ⟨le_refl c, fun _ _ => rfl⟩
  | cons x xs ih =>
    obtain ⟨hx, hxs⟩ := List.forall_mem_cons.1 h
    intro c d hd
    rw [List.foldlM_cons] at hd
    obtain ⟨c', hc', hd'⟩ := bind_eq_ok_iff.1 hd
    obtain ⟨hle, hagain⟩ := hx c c' hc'
    obtain ⟨hle', hagain'⟩ := ih hxs c' d hd'
    refine ⟨le_trans hle hle', fun e he => ?_⟩
    rw [List.foldlM_cons, hagain e (le_trans hle' he)]
    exact hagain' e he

/-- Steps that never add what is there never do so in turn. -/
theorem foldlM_ne_partThere {α : Type} {f : Catalogue → α → Except ExecutionError Catalogue}
    {xs : List α} {p : Part} (h : ∀ x ∈ xs, ∀ c, f c x ≠ .error (.partThere p)) (c : Catalogue) :
    xs.foldlM f c ≠ .error (.partThere p) := by
  induction xs generalizing c with
  | nil => simp [pure, Except.pure]
  | cons x xs ih =>
    obtain ⟨hx, hxs⟩ := List.forall_mem_cons.1 h
    rw [List.foldlM_cons]
    cases hc : f c x with
    | error e =>
      intro herror
      exact hx c (hc.trans herror)
    | ok d => exact ih hxs d

/-- Steps that could only add what is there do so in turn, or leave the catalogue as it is. -/
theorem foldlM_eq_ok_or_partThere {α : Type}
    {f : Catalogue → α → Except ExecutionError Catalogue} {xs : List α} {c : Catalogue}
    (h : ∀ x ∈ xs, f c x = .ok c ∨ ∃ p, f c x = .error (.partThere p)) :
    xs.foldlM f c = .ok c ∨ ∃ p, xs.foldlM f c = .error (.partThere p) := by
  induction xs with
  | nil => exact .inl rfl
  | cons x xs ih =>
    obtain ⟨hx, hxs⟩ := List.forall_mem_cons.1 h
    rw [List.foldlM_cons]
    obtain hsame | ⟨p, herror⟩ := hx
    · rw [hsame]
      exact ih hxs
    · rw [herror]
      exact .inr ⟨p, rfl⟩

/-- Steps that could only add what is there leave the catalogue as it is if they never do so. -/
theorem eq_ok_of_foldlM_ne_partThere {α : Type}
    {f : Catalogue → α → Except ExecutionError Catalogue} {xs : List α} {c : Catalogue}
    (h : ∀ x ∈ xs, f c x = .ok c ∨ ∃ p, f c x = .error (.partThere p))
    (hnever : ∀ p, xs.foldlM f c ≠ .error (.partThere p)) : ∀ x ∈ xs, f c x = .ok c := by
  induction xs with
  | nil => simp
  | cons x xs ih =>
    obtain ⟨hx, hxs⟩ := List.forall_mem_cons.1 h
    simp only [List.foldlM_cons] at hnever
    obtain hsame | ⟨p, herror⟩ := hx
    · rw [hsame] at hnever
      exact List.forall_mem_cons.2 ⟨hsame, ih hxs hnever⟩
    · rw [herror] at hnever
      exact absurd rfl (hnever p)

/-- Running a script once more changes nothing if it is repeatable. -/
theorem rerun_of_repeatable {script : Script} (h : ∀ s ∈ script, Repeatable run s)
    {c d : Catalogue} (hd : script.foldlM run c = .ok d) (n : Nat) : rerun script n d = .ok d := by
  obtain ⟨-, hagain⟩ := Repeatable.foldlM h c d hd
  induction n with
  | zero => rfl
  | succ n ih => rw [rerun, hagain d (le_refl d)]; exact ih

/-- A script that never adds what is there does so however often it is run. -/
theorem rerun_ne_partThere {script : Script} {p : Part}
    (h : ∀ s ∈ script, ∀ c, run c s ≠ .error (.partThere p)) (n : Nat) (c : Catalogue) :
    rerun script n c ≠ .error (.partThere p) := by
  induction n generalizing c with
  | zero => simp [rerun]
  | succ n ih =>
    rw [rerun]
    cases hd : script.foldlM run c with
    | error e =>
      intro herror
      exact foldlM_ne_partThere h c (hd.trans herror)
    | ok d => exact ih d

end Catalogue
end PgSchema
