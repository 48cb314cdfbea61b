/-
# Running a script again

A script that creates a table, or adds to it what it lacks, can be run again if its guards look for
what they add.  The query of a guard compares with the names as they are written, but the database
stores them with small letters, so that is so for names without capitals.

* `Addition.readQuery?_query`, `Addition.readAddition?_sql` : what the two texts of a guard say;
* `Table.rerun_upgrade` : when a script can be run again.
-/
import PgSchema.Proofs.Catalogue
import PgSchema.Proofs.Table.Audit

namespace PgSchema

open Text Sql

/-! ## The texts of a guard -/

namespace Addition

/-- What the query of an addition looks for. -/
def lookup (table : String) : Addition → Lookup
  | column d => .column table d.name
  | constraint c => .constraint c.name

/-- What an addition adds. -/
def part (table : String) : Addition → Part
  | column d => .column (stored table) (stored d.name)
  | constraint c => .constraint (stored table) (stored c.name)

/-- The query compares with the names as they are written, whatever characters they have. -/
theorem readQuery?_query (table : String) (a : Addition) :
    Guard.readQuery? (a.query table).toList = some (a.lookup table) := by
  cases a with
  | column d =>
    have hcut (cs : List Char) :
        " AND column_name = ".toList ++ cs = ' ' :: ("AND column_name = ".toList ++ cs) := rfl
    have hquery : (query table (.column d)).toList =
        "SELECT 1 FROM information_schema.columns WHERE table_name = ".toList ++
          ((literal table).toList ++ ' ' :: ("AND column_name = ".toList ++
            ((literal d.name).toList ++ []))) := by
      rw [query_column, ← hcut]
      simp only [String.toList_append, List.append_assoc, List.append_nil]
    have hname : readLiteral? ((literal d.name).toList ++ []) = some (d.name, []) :=
      readLiteral?_append d.name (by simp)
    -- the reader depends on the literals only through what is read of them
    generalize (literal d.name).toList ++ [] = rest at hquery hname
    have hspace : (' ' : Char) ≠ '\'' := by decide
    have htable := readLiteral?_append_cons table hspace ("AND column_name = ".toList ++ rest)
    have hand := dropStart?_eq_some.2 (hcut rest).symm
    simp only [hquery, Guard.readQuery?, dropStart?_eq_some.2 rfl, htable, hand, hname,
      Option.bind_eq_bind, Option.bind_some, List.isEmpty_nil, if_true, lookup]
  | constraint c =>
    have hquery : (query table (.constraint c)).toList =
        "SELECT 1 FROM pg_constraint WHERE conname = ".toList ++
          ((literal c.name).toList ++ []) := by
      rw [query_constraint, String.toList_append, List.append_nil]
    have hname : readLiteral? ((literal c.name).toList ++ []) = some (c.name, []) :=
      readLiteral?_append c.name (by simp)
    generalize (literal c.name).toList ++ [] = rest at hquery hname
    have hother : dropStart?
        "SELECT 1 FROM information_schema.columns WHERE table_name = ".toList
        ("SELECT 1 FROM pg_constraint WHERE conname = ".toList ++ rest) = none := rfl
    simp only [hquery, Guard.readQuery?, hother, dropStart?_eq_some.2 rfl, hname,
      Option.bind_eq_bind, Option.bind_some, List.isEmpty_nil, if_true, lookup]

theorem exists_sql_append (d : ColumnDefinition) : ∃ rest, d.sql = d.name ++ " " ++ rest :=
  ⟨_, by rw [ColumnDefinition.sql, String.intercalate_cons_cons]⟩

/-- The statement adds the part under its stored names. -/
theorem readAddition?_sql {table : String} {a : Addition} (htable : isPlainName table = true)
    (hname : isPlainName a.name = true) :
    Guard.readAddition? (a.sql table).toList = some (a.part table) := by
  have hspace : continuesWord ' ' = false := by decide
  have htail (s : String) : " ".toList ++ s.toList = ' ' :: s.toList := rfl
  cases a with
  | column d =>
    obtain ⟨rest, hd⟩ := exists_sql_append d
    have hcut (cs : List Char) :
        " ADD COLUMN ".toList ++ cs = ' ' :: ("ADD COLUMN ".toList ++ cs) := rfl
    have hsql : (sql table (.column d)).toList = "ALTER TABLE ".toList ++ (table.toList ++
        ' ' :: ("ADD COLUMN ".toList ++ (d.name.toList ++ ' ' :: (rest ++ ";").toList))) := by
      rw [sql_column, ← hcut, ← htail, hd]
      simp only [String.toList_append, List.append_assoc]
    have hcolumn := readName?_append_cons hname hspace (rest ++ ";").toList
    rw [name] at hcolumn
    generalize d.name.toList ++ ' ' :: (rest ++ ";").toList = inside at hsql hcolumn
    have htable := readName?_append_cons htable hspace ("ADD COLUMN ".toList ++ inside)
    have hadd := dropStart?_eq_some.2 (hcut inside).symm
    simp only [hsql, Guard.readAddition?, dropStart?_eq_some.2 rfl, htable, hadd, hcolumn,
      Option.bind_eq_bind, Option.bind_some, Option.map_some, part]
  | constraint c =>
    have hcut (cs : List Char) :
        " ADD CONSTRAINT ".toList ++ cs = ' ' :: ("ADD CONSTRAINT ".toList ++ cs) := rfl
    have hsql : (sql table (.constraint c)).toList = "ALTER TABLE ".toList ++ (table.toList ++
        ' ' :: ("ADD CONSTRAINT ".toList ++
          (c.name.toList ++ ' ' :: (Constraint.ruleSql c.rule ++ ";").toList))) := by
      rw [sql_constraint, ← hcut, ← htail]
      simp only [String.toList_append, List.append_assoc]
    have hconstraint := readName?_append_cons hname hspace (Constraint.ruleSql c.rule ++ ";").toList
    rw [name] at hconstraint
    generalize c.name.toList ++ ' ' :: (Constraint.ruleSql c.rule ++ ";").toList = inside
      at hsql hconstraint
    have htable := readName?_append_cons htable hspace ("ADD CONSTRAINT ".toList ++ inside)
    have hcolumn : dropStart? " ADD COLUMN ".toList (' ' :: ("ADD CONSTRAINT ".toList ++ inside)) =
        none := rfl
    have hadd := dropStart?_eq_some.2 (hcut inside).symm
    simp only [hsql, Guard.readAddition?, dropStart?_eq_some.2 rfl, htable, hcolumn, hadd,
      hconstraint, Option.bind_eq_bind, Option.bind_some, Option.map_some, part]

/-- A guard looks for what it adds if the names are written as they are stored. -/
theorem matches_iff {table : String} {a : Addition} (htable : isPlainName table = true)
    (hname : isPlainName a.name = true) :
    Guard.Matches (a.query table, a.sql table) ↔ a.lookup table = (a.part table).lookup := by
  constructor
  · rintro ⟨p, hp, hl⟩
    rw [readAddition?_sql htable hname] at hp
    rw [readQuery?_query] at hl
    obtain rfl := Option.some.inj hp
    exact Option.some.inj hl
  · intro h
    refine ⟨a.part table, readAddition?_sql htable hname, ?_⟩
    rw [readQuery?_query, h]

/-- The guard of an addition, run in a database. -/
theorem runGuard_eq {table : String} {a : Addition} (htable : isPlainName table = true)
    (hname : isPlainName a.name = true) (c : Catalogue) :
    c.runGuard (a.query table, a.sql table) =
      if c.finds (a.lookup table) then .ok c else c.add (a.part table) := by
  rw [Catalogue.runGuard, readQuery?_query, readAddition?_sql htable hname]

end Addition

/-! ## Upgrades -/

/-- Steps taken in turn give the statements of each, one after another. -/
theorem Step.result_runAll (config : Config) (t : Table) (steps : List Step) :
    (Step.runAll config t steps).result =
      (steps.mapM (Step.statements config t)).map List.flatten := by
  induction steps with
  | nil => rfl
  | cons step steps ih =>
    rw [Step.runAll, List.mapM_cons]
    simp only [Run.result_bind, ih, Step.run, Run.result_ofResult, Run.result_report,
      Run.result_pure]
    cases step.statements config t with
    | error e => rfl
    | ok script => cases steps.mapM (Step.statements config t) <;> rfl

namespace Table

/-- Holds for a table whose own name and the names of whose columns and constraints are plain. -/
def HasPlainNames (t : Table) : Prop :=
  isPlainName t.name = true ∧ (∀ c ∈ t.columns, isPlainName c.name = true) ∧
    ∀ c ∈ t.constraints, isPlainName c.name = true

/-- Holds for a table whose names are written as they are stored. -/
def HasStoredNames (t : Table) : Prop :=
  stored t.name = t.name ∧ (∀ c ∈ t.columns, stored c.name = c.name) ∧
    ∀ c ∈ t.constraints, stored c.name = c.name

/-- What the guarded part of a script may add to a table: columns and constraints of its own. -/
def Offers (t : Table) : Addition → Prop
  | .column d => ∃ c ∈ t.columns, d.name = c.name
  | .constraint c => c ∈ t.constraints

/-- Holds for the statements that create a table unless it exists and add to it what it lacks. -/
def Upgrades (t : Table) : Statement → Prop
  | .createTable table unlessExists _ _ => table = t.name ∧ unlessExists = true
  | .addColumn table d => table = t.name ∧ ∃ c ∈ t.columns, d.name = c.name
  | .addMissing table additions => table = t.name ∧ ∀ a ∈ additions, t.Offers a
  | _ => False

/-- The script of an upgrade: the steps of create-or-alter up to the additions. -/
def upgrade (config : Config) (t : Table) : Except StructureError Script :=
  (Step.runAll config t (.createTable true :: Step.alter)).result

variable {config : Config} {t : Table} {script : Script}

theorem exists_of_mem_addableColumns {explicit : Bool} {d : ColumnDefinition}
    (h : d ∈ t.addableColumns explicit) : ∃ c ∈ t.columns, d.name = c.name := by
  obtain ⟨c, hc, rfl⟩ := List.mem_map.1 h
  exact ⟨c, (List.mem_filter.1 hc).1, rfl⟩

theorem upgrades_of_mem_addMissing {additions : List Addition}
    (h : ∀ a ∈ additions, t.Offers a) : ∀ s ∈ t.addMissing additions, t.Upgrades s := by
  unfold addMissing
  split
  · simp
  · intro s hs
    obtain rfl := List.mem_singleton.1 hs
    exact ⟨rfl, h⟩

theorem upgrades_of_mem_columnStatements : ∀ s ∈ Step.columnStatements config t, t.Upgrades s := by
  unfold Step.columnStatements
  split
  · simp
  · split
    · refine upgrades_of_mem_addMissing fun a ha => ?_
      obtain ⟨d, hd, rfl⟩ := List.mem_map.1 ha
      exact exists_of_mem_addableColumns hd
    · intro s hs
      obtain ⟨d, hd, rfl⟩ := List.mem_map.1 hs
      exact ⟨rfl, exists_of_mem_addableColumns hd⟩

theorem upgrades_of_mem_statements {step : Step} (hstep : step ∈ .createTable true :: Step.alter)
    (h : step.statements config t = .ok script) : ∀ s ∈ script, t.Upgrades s := by
  have hcases : step = .createTable true ∨ step = .addColumns ∨ step = .addConstraints := by
    simpa [Step.alter] using hstep
  rcases hcases with rfl | rfl | rfl
  · obtain ⟨statement, hcreate, hscript⟩ := bind_eq_ok_iff.1 h
    obtain ⟨_, -, hrest⟩ := bind_eq_ok_iff.1 hcreate
    obtain ⟨_, -, hstatement⟩ := bind_eq_ok_iff.1 hrest
    obtain rfl := Except.ok.inj hstatement
    obtain rfl := Except.ok.inj hscript
    intro s hs
    obtain rfl := List.mem_singleton.1 hs
    exact ⟨rfl, rfl⟩
  · obtain rfl := Except.ok.inj h
    exact upgrades_of_mem_columnStatements
  · simp only [Step.statements] at h
    split at h
    · obtain ⟨_, -, hadditions⟩ := bind_eq_ok_iff.1 h
      obtain rfl := Except.ok.inj hadditions
      refine upgrades_of_mem_addMissing fun a ha => ?_
      obtain ⟨c, hc, rfl⟩ := List.mem_map.1 ha
      exact hc
    · obtain rfl := Except.ok.inj h
      simp

theorem upgrades_of_mem (h : t.upgrade config = .ok script) : ∀ s ∈ script, t.Upgrades s := by
  rw [upgrade, Step.result_runAll] at h
  obtain ⟨scripts, hscripts, rfl⟩ := map_eq_ok_iff.1 h
  intro s hs
  obtain ⟨part, hpart, hs⟩ := List.mem_flatten.1 hs
  exact forall_of_mapM_eq_ok (fun _ hstep _ => upgrades_of_mem_statements hstep) hscripts part hpart
    s hs

/-! ## Guards that match -/

theorem isPlainName_of_offers (hplain : t.HasPlainNames) {a : Addition} (h : t.Offers a) :
    isPlainName a.name = true := by
  obtain ⟨-, hcolumns, hconstraints⟩ := hplain
  cases a with
  | column d =>
    obtain ⟨c, hc, hname⟩ := h
    rw [Addition.name, hname]
    exact hcolumns c hc
  | constraint c => exact hconstraints c h

theorem matches_of_hasStoredNames (hplain : t.HasPlainNames) (hstored : t.HasStoredNames)
    {s : Statement} (h : t.Upgrades s) : ∀ g ∈ s.guards, g.Matches := by
  cases s with
  | addMissing table additions =>
    obtain ⟨rfl, hoffers⟩ := h
    intro g hg
    obtain ⟨a, ha, rfl⟩ := List.mem_map.1 hg
    obtain ⟨htable, hcolumns, hconstraints⟩ := hstored
    refine (Addition.matches_iff hplain.1 (isPlainName_of_offers hplain (hoffers a ha))).2 ?_
    cases a with
    | column d =>
      obtain ⟨c, hc, hname⟩ := hoffers _ ha
      rw [Addition.lookup, Addition.part, Part.lookup, hname, htable, hcolumns c hc]
    | constraint c =>
      rw [Addition.lookup, Addition.part, Part.lookup, hconstraints c (hoffers _ ha)]
  | _ => simp [Statement.guards]

/-- Statements of an upgrade never add what is there if their guards match. -/
theorem run_ne_partThere {s : Statement} (h : t.Upgrades s) (hmatches : ∀ g ∈ s.guards, g.Matches)
    (p : Part) (c : Catalogue) : c.run s ≠ .error (.partThere p) := by
  cases s with
  | createTable table unlessExists elements partition =>
    obtain ⟨-, rfl⟩ := h
    unfold Catalogue.run Catalogue.create
    grind
  | addColumn table d =>
    simp only [Catalogue.run]
    split
    · simp
    · next hmissing =>
      intro herror
      exact hmissing (Catalogue.mem_of_add_eq_partThere herror)
  | addMissing table additions =>
    exact Catalogue.foldlM_ne_partThere
      (fun g hg c => Catalogue.runGuard_ne_partThere (hmatches g hg) c p) c
  | _ => exact h.elim

/-- Statements of an upgrade are repeatable if their guards match. -/
theorem repeatable_run {s : Statement} (h : t.Upgrades s)
    (hmatches : ∀ g ∈ s.guards, g.Matches) : Catalogue.Repeatable Catalogue.run s := by
  cases s with
  | createTable table unlessExists elements partition =>
    obtain ⟨-, rfl⟩ := h
    intro c d hd
    by_cases hc : stored table ∈ c.tables
    · rw [Catalogue.run_createTable_of_mem hc] at hd
      obtain rfl := Except.ok.inj hd
      exact ⟨Catalogue.le_refl c, fun e he => Catalogue.run_createTable_of_mem (he.1 hc) _ _⟩
    · rw [Catalogue.run, if_neg hc] at hd
      obtain ⟨hle, htable⟩ := Catalogue.of_create_eq_ok hd
      exact ⟨hle, fun e he => Catalogue.run_createTable_of_mem (he.1 htable) _ _⟩
  | addColumn table d =>
    intro c c' hc'
    by_cases hc : .column (stored table) (stored d.name) ∈ c.parts
    · rw [Catalogue.run_addColumn_of_mem hc] at hc'
      obtain rfl := Except.ok.inj hc'
      exact ⟨Catalogue.le_refl c, fun e he => Catalogue.run_addColumn_of_mem (he.2 hc)⟩
    · rw [Catalogue.run, if_neg hc] at hc'
      obtain ⟨hle, hmem⟩ := Catalogue.of_add_eq_ok hc'
      exact ⟨hle, fun e he => Catalogue.run_addColumn_of_mem (he.2 hmem)⟩
  | addMissing table additions =>
    exact Catalogue.Repeatable.foldlM fun g hg => Catalogue.repeatable_runGuard (hmatches g hg)
  | _ => exact h.elim

/-! ## Guards that do not match -/

/-- The catalogue of a database that has the table with all its columns and constraints. -/
def catalogue (t : Table) : Catalogue :=
  ⟨[stored t.name],
    t.columns.map (fun c => .column (stored t.name) (stored c.name)) ++
      t.constraints.map (fun c => .constraint (stored t.name) (stored c.name)), by
    intro p hp
    rcases List.mem_append.1 hp with hp | hp <;> obtain ⟨c, -, rfl⟩ := List.mem_map.1 hp <;>
      exact List.mem_singleton_self _⟩

theorem part_mem_catalogue {a : Addition} (h : t.Offers a) : a.part t.name ∈ t.catalogue.parts := by
  cases a with
  | column d =>
    obtain ⟨c, hc, hname⟩ := h
    refine List.mem_append_left _ (List.mem_map.2 ⟨c, hc, ?_⟩)
    rw [Addition.part, hname]
  | constraint c => exact List.mem_append_right _ (List.mem_map.2 ⟨c, h, rfl⟩)

/-- Only stored names are found in the catalogue of a table. -/
theorem lookup_eq_of_finds {a : Addition} (h : t.catalogue.finds (a.lookup t.name) = true) :
    a.lookup t.name = (a.part t.name).lookup := by
  obtain ⟨p, hp, hl⟩ := Catalogue.finds_iff.1 h
  rcases List.mem_append.1 hp with hp | hp <;> obtain ⟨c, -, rfl⟩ := List.mem_map.1 hp <;>
    cases a <;> simp only [Part.lookup, Addition.lookup, Addition.part, reduceCtorEq] at hl ⊢
  · obtain ⟨htable, hname⟩ := Lookup.column.inj hl
    rw [← htable, ← hname, stored_stored, stored_stored]
  · rw [← Lookup.constraint.inj hl, stored_stored]

/-- In the catalogue of a table, a guard of an upgrade finds what it looks for or adds what is
there. -/
theorem runGuard_catalogue (hplain : t.HasPlainNames) {a : Addition} (h : t.Offers a) :
    t.catalogue.runGuard (a.query t.name, a.sql t.name) = .ok t.catalogue ∨
      ∃ p, t.catalogue.runGuard (a.query t.name, a.sql t.name) = .error (.partThere p) := by
  rw [Addition.runGuard_eq hplain.1 (isPlainName_of_offers hplain h),
    Catalogue.add_of_mem (part_mem_catalogue h)]
  split
  · exact .inl rfl
  · exact .inr ⟨_, rfl⟩

theorem run_catalogue (hplain : t.HasPlainNames) {s : Statement} (h : t.Upgrades s) :
    t.catalogue.run s = .ok t.catalogue ∨
      ∃ p, t.catalogue.run s = .error (.partThere p) := by
  cases s with
  | createTable table unlessExists elements partition =>
    obtain ⟨rfl, rfl⟩ := h
    exact .inl (Catalogue.run_createTable_of_mem (List.mem_singleton_self _) _ _)
  | addColumn table d =>
    obtain ⟨rfl, hcolumn⟩ := h
    have hmem : (Addition.column d).part t.name ∈ t.catalogue.parts := part_mem_catalogue hcolumn
    exact .inl (Catalogue.run_addColumn_of_mem hmem)
  | addMissing table additions =>
    obtain ⟨rfl, hoffers⟩ := h
    refine Catalogue.foldlM_eq_ok_or_partThere fun g hg => ?_
    obtain ⟨a, ha, rfl⟩ := List.mem_map.1 hg
    exact runGuard_catalogue hplain (hoffers a ha)
  | _ => exact h.elim

theorem matches_of_run_catalogue (hplain : t.HasPlainNames) {s : Statement} (h : t.Upgrades s)
    (hrun : t.catalogue.run s = .ok t.catalogue) : ∀ g ∈ s.guards, g.Matches := by
  cases s with
  | addMissing table additions =>
    obtain ⟨rfl, hoffers⟩ := h
    have hguards : ∀ g ∈ (Statement.addMissing t.name additions).guards,
        t.catalogue.runGuard g = .ok t.catalogue := by
      refine Catalogue.eq_ok_of_foldlM_ne_partThere (fun g hg => ?_) fun p herror => ?_
      · obtain ⟨a, ha, rfl⟩ := List.mem_map.1 hg
        exact runGuard_catalogue hplain (hoffers a ha)
      · rw [Catalogue.run, herror] at hrun
        simp at hrun
    intro g hg
    have hguard := hguards g hg
    obtain ⟨a, ha, rfl⟩ := List.mem_map.1 hg
    have hname := isPlainName_of_offers hplain (hoffers a ha)
    rw [Addition.runGuard_eq hplain.1 hname,
      Catalogue.add_of_mem (part_mem_catalogue (hoffers a ha))] at hguard
    refine (Addition.matches_iff hplain.1 hname).2 (lookup_eq_of_finds ?_)
    split at hguard
    · next hfinds => exact hfinds
    · simp at hguard
  | _ => simp [Statement.guards]

/-! ## Running again -/

/-- A script that creates a table, or adds what it lacks, never adds what is there, in any database
and however often it is run, exactly when its guards compare with the stored names of what they
add.  Then a script that has run once changes nothing any more.  A table whose names are written as
they are stored has such guards. -/
theorem rerun_upgrade (config : Config) (hplain : t.HasPlainNames)
    (h : t.upgrade config = .ok script) :
    ((∀ c n p, Catalogue.rerun script n c ≠ .error (.partThere p)) ↔
      ∀ g ∈ script.guards, g.Matches) ∧
    ((∀ g ∈ script.guards, g.Matches) → ∀ c d, script.foldlM Catalogue.run c = .ok d →
      ∀ n, Catalogue.rerun script n d = .ok d) ∧
    (t.HasStoredNames → ∀ g ∈ script.guards, g.Matches) := by
  have hupgrades := upgrades_of_mem h
  have hguards : (∀ g ∈ script.guards, g.Matches) ↔ ∀ s ∈ script, ∀ g ∈ s.guards, g.Matches := by
    simp only [Script.guards, List.mem_flatMap]
    exact ⟨fun hall s hs g hg => hall g ⟨s, hs, hg⟩, fun hall g ⟨s, hs, hg⟩ => hall s hs g hg⟩
  rw [hguards]
  refine ⟨⟨fun hnever => ?_, fun hmatches c n p => ?_⟩, fun hmatches c d hd n => ?_,
    fun hstored s hs => matches_of_hasStoredNames hplain hstored (hupgrades s hs)⟩
  · -- run once in the database that has all of the table
    have hsame := Catalogue.eq_ok_of_foldlM_ne_partThere
      (fun s hs => run_catalogue hplain (hupgrades s hs)) fun p herror =>
        hnever t.catalogue 1 p (by rw [Catalogue.rerun, herror]; rfl)
    exact fun s hs => matches_of_run_catalogue hplain (hupgrades s hs) (hsame s hs)
  · exact Catalogue.rerun_ne_partThere
      (fun s hs c => run_ne_partThere (hupgrades s hs) (hmatches s hs) p c) n c
  · exact Catalogue.rerun_of_repeatable
      (fun s hs => repeatable_run (hupgrades s hs) (hmatches s hs)) hd n

instance : DecidablePred HasPlainNames := fun _ => inferInstanceAs (Decidable (_ ∧ _ ∧ _))

instance : DecidablePred HasStoredNames := fun _ => inferInstanceAs (Decidable (_ ∧ _ ∧ _))

/-- The script of the table of orders can be run again. -/
theorem rerun_upgrade_orders : ordersTable.HasPlainNames ∧ ∃ script,
    ordersTable.upgrade {} = .ok script ∧
      ∀ c n p, Catalogue.rerun script n c ≠ .error (.partThere p) := by
  have hplain : ordersTable.HasPlainNames := by decide
  have hstored : ordersTable.HasStoredNames := by decide +kernel
  obtain ⟨script, hscript⟩ : ∃ script, ordersTable.upgrade {} = .ok script := ⟨_, rfl⟩
  obtain ⟨hiff, -, hmatches⟩ := rerun_upgrade {} hplain hscript
  exact ⟨hplain, script, hscript, hiff.2 (hmatches hstored)⟩

/-- A table whose name starts with a capital. -/
def usersTable : Table where
  name := "Users"
  columns :=
    [{ name := "id", type := .plain .text isPlain_text, nullable := true, primaryKey := false,
       unique := false, default := none, conditions := [], rules := [], collation := none,
       comment := none, name_nonempty := id_ne_empty }]
  indexes := []
  policies := []
  foreignKeys := []
  constraints := []
  comment := none
  rowSecurity := false
  partition := none
  name_nonempty := by decide
  columns_nodup := by decide

/-- The one column of the table of users, as an addition. -/
def idAddition : Addition :=
  .column { name := "id", type := .plain .text isPlain_text, clauses := [] }

/-- The guard of a table whose name has a capital finds nothing, and the script fails as it adds a
column that it has just created. -/
theorem rerun_upgrade_users : usersTable.HasPlainNames ∧ ∃ script,
    usersTable.upgrade {} = .ok script ∧
      Catalogue.rerun script 1 .empty = .error (.partThere (.column "users" "id")) := by
  have hplain : usersTable.HasPlainNames := by decide
  refine ⟨hplain, [.createTable "Users" true (usersTable.elements false) none,
    .addMissing "Users" [idAddition]], rfl, ?_⟩
  have hcreate : Catalogue.empty.run (.createTable "Users" true (usersTable.elements false) none) =
      .ok usersTable.catalogue := rfl
  have hfinds : ¬ usersTable.catalogue.finds (idAddition.lookup "Users") = true := by
    decide +kernel
  have hmem : idAddition.part "Users" ∈ usersTable.catalogue.parts := by decide +kernel
  have hpart : idAddition.part "Users" = .column "users" "id" := by decide +kernel
  have hguard : usersTable.catalogue.runGuard (idAddition.query "Users", idAddition.sql "Users") =
      .error (.partThere (.column "users" "id")) := by
    rw [Addition.runGuard_eq (by decide) (by decide), if_neg hfinds,
      Catalogue.add_of_mem hmem, hpart]
  have hadd : usersTable.catalogue.run (.addMissing "Users" [idAddition]) =
      .error (.partThere (.column "users" "id")) := by
    rw [Catalogue.run, Statement.guards, List.map_singleton, List.foldlM_cons, hguard]
    rfl
  rw [Catalogue.rerun, List.foldlM_cons, hcreate]
  change (Catalogue.run _ _ >>= _) >>= _ = _
  rw [hadd]
  rfl

end Table
end PgSchema
