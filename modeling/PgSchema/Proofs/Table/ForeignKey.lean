/-
# Foreign keys that cannot be written

The builder of foreign keys looks at the columns of all keys before it writes any, but it looks at a
target only as it writes the key, and of the keys of one column it writes the first.  A key without
a target behind another key of its column is passed over.

* `Table.mem_columnForeignKeys_iff` : which keys are written;
* `Config.exists_malformed_iff` : what a table is refused for when it is not audited;
* `Config.compile_refuses_iff` : the part that foreign keys have in it.
-/
import PgSchema.Proofs.Batch
import PgSchema.Proofs.Table.Audit

namespace PgSchema

/-! ## The keys that are written -/

namespace Table

variable {t : Table} {key : ForeignKey}

/-- Holds for the first foreign key of a column. -/
def IsFirstKey (t : Table) (key : ForeignKey) : Prop :=
  t.foreignKeys.find? (fun other => other.column == key.column) = some key

/-- Holds for a foreign key that cannot be written: the table lacks its column, or it is the first
key of its column and has no target. -/
def StopsAt (t : Table) (key : ForeignKey) : Prop :=
  t.hasColumn key.column = false ∨ (t.IsFirstKey key ∧ key.isUntargeted = true)

theorem hasColumn_eq_true_iff {name : String} :
    t.hasColumn name = true ↔ ∃ c ∈ t.columns, c.name = name := by
  simp [hasColumn, columnNames]

/-- Written are the first keys of the columns that the table has. -/
theorem mem_columnForeignKeys_iff :
    key ∈ t.columnForeignKeys ↔ t.hasColumn key.column = true ∧ t.IsFirstKey key := by
  rw [columnForeignKeys, List.mem_filterMap, hasColumn_eq_true_iff]
  constructor
  · rintro ⟨c, hc, hkey⟩
    rw [foreignKeyOf?] at hkey
    have hname : key.column = c.name := by simpa using List.find?_some hkey
    refine ⟨⟨c, hc, hname.symm⟩, ?_⟩
    rw [IsFirstKey, hname]
    exact hkey
  · rintro ⟨⟨c, hc, hname⟩, hkey⟩
    rw [IsFirstKey, ← hname] at hkey
    exact ⟨c, hc, hkey⟩

theorem mem_of_isFirstKey (h : t.IsFirstKey key) : key ∈ t.foreignKeys :=
  List.mem_of_find?_eq_some h

/-- The keys that cannot be written are what the step of the foreign keys is refused for. -/
theorem asks_addForeignKeys_iff {config : Config} :
    Step.Asks config t .addForeignKeys ↔ ∀ key ∈ t.foreignKeys, ¬ t.StopsAt key := by
  rw [Step.Asks]
  constructor
  · rintro ⟨hcolumns, htargets⟩ key hkey (hunknown | ⟨hfirst, huntargeted⟩)
    · rw [hcolumns key hkey] at hunknown
      cases hunknown
    · rw [htargets key (mem_columnForeignKeys_iff.2 ⟨hcolumns key hkey, hfirst⟩)] at huntargeted
      cases huntargeted
  · intro hstops
    refine ⟨fun key hkey => ?_, fun key hkey => ?_⟩
    · by_contra hunknown
      exact hstops key hkey (.inl (Bool.not_eq_true _ ▸ hunknown))
    · have hfirst := (mem_columnForeignKeys_iff.1 hkey).2
      by_contra huntargeted
      exact hstops key (mem_of_isFirstKey hfirst)
        (.inr ⟨hfirst, Bool.not_eq_false _ ▸ huntargeted⟩)

end Table

/-! ## Tables that are not audited -/

namespace Config

theorem foreignKeys_prepare (config : Config) (table : Table) :
    (config.prepare table).foreignKeys = table.foreignKeys := by
  rw [prepare]
  split <;> rfl

theorem draft_of_not_validates {config : Config} {table : Table} (h : config.validates = false) :
    config.draft table = (((config.prepare table).script config).result.mapError
      fun e => .refused (.malformed e)).map Script.sql := by
  rw [draft, if_neg]
  simp [h]

/-- A table that is not audited is refused exactly when a step asks for what the table does not
meet. -/
theorem exists_malformed_iff {config : Config} (table : Table)
    (hvalidates : config.validates = false) :
    (∃ e, (config.compile table).result = .error (.refused (.malformed e))) ↔
      ∃ step ∈ config.migration.mode.steps, ¬ step.Asks config (config.prepare table) := by
  have hasks : (∃ step ∈ config.migration.mode.steps, ¬ step.Asks config (config.prepare table)) ↔
      ¬ ∃ script, ((config.prepare table).script config).result = .ok script := by
    rw [Table.exists_script_iff]
    simp only [not_forall, exists_prop]
  rw [hasks, result_compile, draft_of_not_validates hvalidates]
  cases ((config.prepare table).script config).result with
  | error e => simp [Except.bind, Except.map, Except.mapError]
  | ok script =>
    simp only [Except.mapError, Except.map, Except.bind,
      Except.ok.injEq, exists_eq', not_true_eq_false, iff_false, not_exists]
    intro e he
    obtain ⟨-, why, -, hwhy⟩ := finish_eq_error_iff.1 he
    cases hwhy

/-- A table that is not audited, in a mode that writes foreign keys, is refused exactly when one of
its keys names an unknown column, or is the first of its column and has no target, or another step
is refused. -/
theorem compile_refuses_iff (config : Config) (table : Table)
    (hvalidates : config.validates = false)
    (hmode : Step.addForeignKeys ∈ config.migration.mode.steps) :
    (∃ e, (config.compile table).result = .error (.refused (.malformed e))) ↔
      (∃ key ∈ table.foreignKeys, (config.prepare table).StopsAt key) ∨
        ∃ step ∈ config.migration.mode.steps, step ≠ .addForeignKeys ∧
          ¬ step.Asks config (config.prepare table) := by
  have hkeys : ¬ Step.addForeignKeys.Asks config (config.prepare table) ↔
      ∃ key ∈ table.foreignKeys, (config.prepare table).StopsAt key := by
    rw [Table.asks_addForeignKeys_iff, foreignKeys_prepare]
    simp only [not_forall, exists_prop, not_not]
  rw [exists_malformed_iff table hvalidates, ← hkeys]
  constructor
  · rintro ⟨step, hstep, hasks⟩
    by_cases hforeign : step = .addForeignKeys
    · subst hforeign
      exact .inl hasks
    · exact .inr ⟨step, hstep, hforeign, hasks⟩
  · rintro (hasks | ⟨step, hstep, -, hasks⟩)
    · exact ⟨_, hmode, hasks⟩
    · exact ⟨step, hstep, hasks⟩

/-- A foreign key on column `a` that leads to the given table. -/
def keyTo (targetTable : String) : ForeignKey :=
  { column := "a", targetTable, targetColumn := "id", onDelete := .noAction, onUpdate := .noAction,
    name := none, deferrable := false, initiallyDeferred := false, notValid := false,
    comment := none, column_nonempty := a_ne_empty }

/-- A table with one column `a` and the given foreign keys. -/
def keyedTable (foreignKeys : List ForeignKey) : Table where
  name := "t"
  columns :=
    [{ name := "a", type := .plain .text isPlain_text, nullable := true, primaryKey := false,
       unique := false, default := none, conditions := [], rules := [], collation := none,
       comment := none, name_nonempty := a_ne_empty }]
  indexes := []
  policies := []
  foreignKeys := foreignKeys
  constraints := []
  comment := none
  rowSecurity := false
  partition := none
  name_nonempty := t_ne_empty
  columns_nodup := by decide

/-- A key without a target is found in front of another key of its column. -/
theorem compile_untargeted_first :
    ∃ e, (compile { validates := false } (keyedTable [keyTo " ", keyTo "u"])).result =
      .error (.refused (.malformed e)) := by
  refine (compile_refuses_iff _ _ rfl (by decide)).2 (.inl ⟨keyTo " ", ?_, .inr ⟨rfl, rfl⟩⟩)
  exact List.mem_cons_self

/-- A key without a target behind another key of its column is passed over. -/
theorem compile_untargeted_second :
    (keyTo " ").isUntargeted = true ∧ keyTo " " ∈ (keyedTable [keyTo "u", keyTo " "]).foreignKeys ∧
      (compile { formats := false, validates := false }
        (keyedTable [keyTo "u", keyTo " "])).result =
        .ok ("CREATE TABLE t (\n  a TEXT\n);\n\n" ++
          "ALTER TABLE t ADD CONSTRAINT fk_t_a_u_id FOREIGN KEY (a) REFERENCES u(id);") := by
  refine ⟨rfl, List.mem_cons_of_mem _ List.mem_cons_self, ?_⟩
  have hscript : ((keyedTable [keyTo "u", keyTo " "]).script
      { formats := false, validates := false }).result =
        .ok [.createTable "t" false ((keyedTable []).elements false) none,
          .addForeignKey "t" (keyTo "u")] := rfl
  rw [result_compile, draft_of_not_validates rfl, prepare, if_neg (by decide), hscript]
  change Except.ok (Script.sql _) = Except.ok _
  congr 1
  decide +kernel

end Config
end PgSchema
