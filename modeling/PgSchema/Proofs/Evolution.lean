/-
# Definitions evolve field by field

Changing a definition reads it anew from all its fields, those that the changes name from the values
given for them.  Whatever the definition, this succeeds exactly when the changes name fields of it
and give values that are read, and then the other fields are what they were, however deep they are
nested.  The command line changes its configuration in this way.

* `EvolvesByField` : definitions that change in the named fields only;
* `evolve_changes_named_fields` : all definitions are of this kind, and a command line changes the
  options that it names.
-/
import PgSchema.CommandLine
import PgSchema.Proofs.Result
import PgSchema.Proofs.Table.Change

namespace PgSchema

variable {changes : Entries}

/-! ## Migrations -/

namespace Migration

/-- What changes make of a migration. -/
structure Becomes (m : Migration) (changes : Entries) (m' : Migration) : Prop where
  mode : modeField.Becomes changes Loading.member m.mode m'.mode
  addsColumns : addsColumnsField.Becomes changes Loading.flag m.addsColumns m'.addsColumns
  dropsColumns : dropsColumnsField.Becomes changes Loading.flag m.dropsColumns m'.dropsColumns
  createsIndexes :
    createsIndexesField.Becomes changes Loading.flag m.createsIndexes m'.createsIndexes
  addsConstraints :
    addsConstraintsField.Becomes changes Loading.flag m.addsConstraints m'.addsConstraints
  guards : guardsField.Becomes changes Loading.flag m.guards m'.guards
  maxIdentifierLength : maxIdentifierLengthField.Becomes changes Loading.positive
    ⟨m.maxIdentifierLength, m.maxIdentifierLength_pos⟩
    ⟨m'.maxIdentifierLength, m'.maxIdentifierLength_pos⟩

theorem evolve_eq_ok_iff {m m' : Migration} :
    Definition.evolve m changes = .ok m' ↔ changes.Name fields ∧ m.Becomes changes m' := by
  have hnamed : FieldName.Named fields := by decide
  change load ((m.save .internal).changed changes) = _ ↔ _
  rw [save, load]
  refine asRecord_changed_eq_ok_iff (by rfl) hnamed fun entries _ h => ?_
  simp only [List.forall_mem_cons] at h
  obtain ⟨hmode, hadds, hdrops, hindexes, hconstraints, hguards, hlimit, -⟩ := h
  rw [Checked.eq_ok_iff_yields]
  simp only [Checked.seq_yields_iff, Checked.map_yields_iff]
  simp only [Checked.Yields, hmode.optional_iff (Loading.member_word _),
    hadds.optional_iff (Loading.flag_flag _), hdrops.optional_iff (Loading.flag_flag _),
    hindexes.optional_iff (Loading.flag_flag _), hconstraints.optional_iff (Loading.flag_flag _),
    hguards.optional_iff (Loading.flag_flag _),
    hlimit.optional_iff
      (SqlType.positive_integer ⟨m.maxIdentifierLength, m.maxIdentifierLength_pos⟩)]
  constructor
  · rintro ⟨_, h1, _, h2, _, h3, _, h4, _, h5, _, h6, _, h7, rfl⟩
    exact ⟨h1, h2, h3, h4, h5, h6, h7⟩
  · intro h
    exact ⟨_, h.mode, _, h.addsColumns, _, h.dropsColumns, _, h.createsIndexes,
      _, h.addsConstraints, _, h.guards, _, h.maxIdentifierLength, rfl⟩

theorem evolve_nil (m : Migration) : Definition.evolve m [] = .ok m :=
  evolve_eq_ok_iff.2 ⟨Entries.name_nil fields, rfl, rfl, rfl, rfl, rfl, rfl, rfl⟩

theorem load_save_internal (m : Migration) : load (m.save .internal) = .ok m := m.evolve_nil

end Migration

/-! ## Configurations -/

namespace Config

/-- What changes make of a configuration. -/
structure Becomes (c : Config) (changes : Entries) (c' : Config) : Prop where
  formats : formatsField.Becomes changes Loading.flag c.formats c'.formats
  rowSecurityByDefault : rowSecurityByDefaultField.Becomes changes Loading.flag
    c.rowSecurityByDefault c'.rowSecurityByDefault
  addsTimestamps :
    addsTimestampsField.Becomes changes Loading.flag c.addsTimestamps c'.addsTimestamps
  explicitNullability : explicitNullabilityField.Becomes changes Loading.flag
    c.explicitNullability c'.explicitNullability
  comments : commentsField.Becomes changes Loading.flag c.comments c'.comments
  validates : validatesField.Becomes changes Loading.flag c.validates c'.validates
  migration : migrationField.Becomes changes Migration.load c.migration c'.migration

theorem evolve_eq_ok_iff {c c' : Config} :
    Definition.evolve c changes = .ok c' ↔ changes.Name fields ∧ c.Becomes changes c' := by
  have hnamed : FieldName.Named fields := by decide
  change load ((c.save .internal).changed changes) = _ ↔ _
  rw [save, load]
  refine asRecord_changed_eq_ok_iff (by rfl) hnamed fun entries _ h => ?_
  simp only [List.forall_mem_cons] at h
  obtain ⟨hformats, hsecurity, htimestamps, hnullability, hcomments, hvalidates, hmigration, -⟩ := h
  rw [Checked.eq_ok_iff_yields]
  simp only [Checked.seq_yields_iff, Checked.map_yields_iff]
  simp only [Checked.Yields, hformats.optional_iff (Loading.flag_flag _),
    hsecurity.optional_iff (Loading.flag_flag _), htimestamps.optional_iff (Loading.flag_flag _),
    hnullability.optional_iff (Loading.flag_flag _), hcomments.optional_iff (Loading.flag_flag _),
    hvalidates.optional_iff (Loading.flag_flag _),
    hmigration.optional_iff c.migration.load_save_internal]
  constructor
  · rintro ⟨_, h1, _, h2, _, h3, _, h4, _, h5, _, h6, _, h7, rfl⟩
    exact ⟨h1, h2, h3, h4, h5, h6, h7⟩
  · intro h
    exact ⟨_, h.formats, _, h.rowSecurityByDefault, _, h.addsTimestamps, _, h.explicitNullability,
      _, h.comments, _, h.validates, _, h.migration, rfl⟩

theorem evolve_nil (c : Config) : Definition.evolve c [] = .ok c :=
  evolve_eq_ok_iff.2 ⟨Entries.name_nil fields, rfl, rfl, rfl, rfl, rfl, rfl, rfl⟩

end Config

/-! ## Command lines -/

namespace Arguments

/-- The configuration that arguments start from: that of the file they name, or the default. -/
def baseConfigIn (a : Arguments) (tree : FileTree) : Except BuildError Config :=
  match a.config.filter (· != "") with
  | some path => tree.readConfig (FilePath.ofText path)
  | none => .ok default

/-- The changes to the migration that arguments ask for. -/
def migrationChanges (a : Arguments) : Entries :=
  (a.mode.map fun mode => (Migration.modeField.name, Document.ofWord mode)).toList

/-- The changes to the configuration that arguments ask for, given the changed migration. -/
def configChanges (a : Arguments) (migration : Migration) : Entries :=
  (if a.noFormat then [(Config.formatsField.name, .flag false)] else []) ++
    (if a.timestamps then [(Config.addsTimestampsField.name, .flag true)] else []) ++
      (a.mode.map fun _ => (Config.migrationField.name, migration.save .internal)).toList

/-- The mode that arguments name is the only option of the migration that they change. -/
theorem evolve_migrationChanges (a : Arguments) (m : Migration) :
    Definition.evolve m a.migrationChanges = .ok { m with mode := a.mode.getD m.mode } := by
  rw [Migration.evolve_eq_ok_iff, migrationChanges]
  cases a.mode with
  | none => exact ⟨Entries.name_nil _, rfl, rfl, rfl, rfl, rfl, rfl, rfl⟩
  | some mode =>
    refine ⟨by simp [Entries.Name, Migration.fields], ?_, rfl, rfl, rfl, rfl, rfl, rfl⟩
    exact Loading.member_word mode

/-- What arguments give for the options of the configuration. -/
theorem given?_configChanges (a : Arguments) (migration : Migration) :
    (a.configChanges migration).given? Config.formatsField.name =
        (if a.noFormat then some (.flag false) else none) ∧
      (a.configChanges migration).given? Config.addsTimestampsField.name =
        (if a.timestamps then some (.flag true) else none) ∧
      (a.configChanges migration).given? Config.migrationField.name =
        a.mode.map fun _ => migration.save .internal := by
  unfold configChanges
  cases a.mode <;> cases a.timestamps <;> cases a.noFormat <;> exact ⟨rfl, rfl, rfl⟩

/-- Arguments give nothing for the other options of the configuration. -/
theorem not_given_configChanges (a : Arguments) (migration : Migration) :
    ∀ field ∈ [Config.rowSecurityByDefaultField, Config.explicitNullabilityField,
      Config.commentsField, Config.validatesField],
      (a.configChanges migration).given? field.name = none := by
  unfold configChanges
  simp only [List.forall_mem_cons]
  cases a.mode <;> cases a.timestamps <;> cases a.noFormat <;>
    exact ⟨rfl, rfl, rfl, rfl, List.forall_mem_nil _⟩

theorem configChanges_name (a : Arguments) (migration : Migration) :
    (a.configChanges migration).Name Config.fields := by
  unfold configChanges Entries.Name
  cases a.mode <;> cases a.timestamps <;> cases a.noFormat <;> simp [Config.fields]

/-- A flag that may be given becomes what is given, or stays. -/
theorem becomes_flag {field : FieldName} {given : Bool} {b old : Bool}
    (h : changes.given? field.name = if given then some (.flag b) else none) :
    field.Becomes changes Loading.flag old (if given then b else old) := by
  cases given with
  | true => exact (FieldName.becomes_of_given h).2 rfl
  | false => exact (FieldName.becomes_of_not_given h).2 rfl

/-- Arguments change the options that they name. -/
theorem evolve_configChanges (a : Arguments) (config : Config) {migration : Migration}
    (h : Definition.evolve config.migration a.migrationChanges = .ok migration) :
    Definition.evolve config (a.configChanges migration) = .ok (a.adjust config) := by
  rw [evolve_migrationChanges, Checked.ok.injEq] at h
  obtain ⟨hformats, htimestamps, hmigration⟩ := a.given?_configChanges migration
  have hothers := a.not_given_configChanges migration
  simp only [List.forall_mem_cons] at hothers
  obtain ⟨hsecurity, hnullability, hcomments, hvalidates, -⟩ := hothers
  -- flags that are not set leave their options as they are
  have hformat : (a.adjust config).formats = if a.noFormat then false else config.formats := by
    cases hflag : a.noFormat <;> simp [adjust, hflag]
  have htimes : (a.adjust config).addsTimestamps =
      if a.timestamps then true else config.addsTimestamps := by
    cases hflag : a.timestamps <;> simp [adjust, hflag]
  rw [Config.evolve_eq_ok_iff]
  refine ⟨a.configChanges_name migration, ⟨?_, ?_, ?_, ?_, ?_, ?_, ?_⟩⟩
  · rw [hformat]
    exact becomes_flag hformats
  · exact (FieldName.becomes_of_not_given hsecurity).2 rfl
  · rw [htimes]
    exact becomes_flag htimestamps
  · exact (FieldName.becomes_of_not_given hnullability).2 rfl
  · exact (FieldName.becomes_of_not_given hcomments).2 rfl
  · exact (FieldName.becomes_of_not_given hvalidates).2 rfl
  · cases hmode : a.mode with
    | none =>
      rw [hmode] at hmigration
      rw [FieldName.becomes_of_not_given hmigration, adjust, hmode]
      rfl
    | some mode =>
      rw [hmode] at hmigration
      have hmigrates : (a.adjust config).migration = migration := h
      rw [FieldName.becomes_of_given hmigration, hmigrates]
      exact migration.load_save_internal

/-- The configuration of arguments is the one they start from, evolved by their changes. -/
theorem configIn_eq_ok_iff {a : Arguments} {tree : FileTree} {config : Config} :
    a.configIn tree = .ok config ↔
      ∃ base migration, a.baseConfigIn tree = .ok base ∧
        Definition.evolve base.migration a.migrationChanges = .ok migration ∧
        Definition.evolve base (a.configChanges migration) = .ok config := by
  have hconfig : a.configIn tree = (a.baseConfigIn tree).map a.adjust := by
    unfold configIn baseConfigIn
    cases a.config.filter (· != "") with
    | none => rfl
    | some path =>
      change (tree.readConfig (FilePath.ofText path) >>= fun config => pure (a.adjust config)) =
        (tree.readConfig (FilePath.ofText path)).map a.adjust
      cases tree.readConfig (FilePath.ofText path) <;> rfl
  rw [hconfig, map_eq_ok_iff]
  constructor
  · rintro ⟨base, hbase, rfl⟩
    have hmigration := a.evolve_migrationChanges base.migration
    exact ⟨base, _, hbase, hmigration, a.evolve_configChanges base hmigration⟩
  · rintro ⟨base, migration, hbase, hmigration, hevolve⟩
    rw [a.evolve_configChanges base hmigration] at hevolve
    exact ⟨base, hbase, Checked.ok.inj hevolve⟩

end Arguments

/-! ## All definitions -/

/-- Holds for definitions that evolve field by field: by changes that name fields and are read, and
into what the fields become.  Without changes they stay what they are. -/
structure EvolvesByField (α : Type) [Definition α] (fields : α → List FieldName)
    (Becomes : α → Entries → α → Prop) : Prop where
  evolve_eq_ok_iff : ∀ (a : α) (changes : Entries) (a' : α),
    Definition.evolve a changes = .ok a' ↔ changes.Name (fields a) ∧ Becomes a changes a'
  evolve_nil : ∀ a : α, Definition.evolve a [] = .ok a

/-- All definitions evolve in the fields that the changes name and in no others, at any depth.  The
configuration of a command line is the one it starts from, changed in the options that it names. -/
theorem evolve_changes_named_fields :
    EvolvesByField Table (fun _ => Table.fields) Table.Becomes ∧
      EvolvesByField Column (fun _ => Column.fields) Column.Becomes ∧
      EvolvesByField SqlType (fun _ => SqlType.fields)
        (fun t changes t' => t.parts.Becomes changes t'.parts) ∧
      EvolvesByField DefaultValue (fun _ => DefaultValue.fields) DefaultValue.Becomes ∧
      EvolvesByField Index (fun _ => Index.fields) Index.Becomes ∧
      EvolvesByField Policy (fun _ => Policy.fields) Policy.Becomes ∧
      EvolvesByField ForeignKey (fun _ => ForeignKey.fields) ForeignKey.Becomes ∧
      EvolvesByField ValueRule (fun rule => ValueRule.fields rule.tag)
        (fun rule changes rule' =>
          changes.KeepTag rule.tag.word ∧ ValueRule.Becomes changes rule rule') ∧
      EvolvesByField Constraint (fun c => Constraint.fields c.tag)
        (fun c changes c' => changes.KeepTag c.tag.word ∧ c.Becomes changes c') ∧
      EvolvesByField Partition (fun _ => Partition.fields)
        (fun p changes p' => changes.KeepTag p.method.word ∧ p.Becomes changes p') ∧
      EvolvesByField Migration (fun _ => Migration.fields) Migration.Becomes ∧
      EvolvesByField Config (fun _ => Config.fields) Config.Becomes ∧
      ∀ (a : Arguments) (tree : FileTree) (config : Config),
        a.configIn tree = .ok config ↔
          ∃ base migration, a.baseConfigIn tree = .ok base ∧
            Definition.evolve base.migration a.migrationChanges = .ok migration ∧
            Definition.evolve base (a.configChanges migration) = .ok config :=
  ⟨⟨fun _ _ _ => Table.evolve_eq_ok_iff, Table.evolve_nil⟩,
    ⟨fun _ _ _ => Column.evolve_eq_ok_iff, Column.evolve_nil⟩,
    ⟨fun _ _ _ => SqlType.evolve_eq_ok_iff, SqlType.evolve_nil⟩,
    ⟨fun _ _ _ => DefaultValue.evolve_eq_ok_iff, DefaultValue.evolve_nil⟩,
    ⟨fun _ _ _ => Index.evolve_eq_ok_iff, Index.evolve_nil⟩,
    ⟨fun _ _ _ => Policy.evolve_eq_ok_iff, Policy.evolve_nil⟩,
    ⟨fun _ _ _ => ForeignKey.evolve_eq_ok_iff, ForeignKey.evolve_nil⟩,
    ⟨fun _ _ _ => ValueRule.evolve_eq_ok_iff, ValueRule.evolve_nil⟩,
    ⟨fun _ _ _ => Constraint.evolve_eq_ok_iff, Constraint.evolve_nil⟩,
    ⟨fun _ _ _ => Partition.evolve_eq_ok_iff, Partition.evolve_nil⟩,
    ⟨fun _ _ _ => Migration.evolve_eq_ok_iff, Migration.evolve_nil⟩,
    ⟨fun _ _ _ => Config.evolve_eq_ok_iff, Config.evolve_nil⟩,
    fun _ _ _ => Arguments.configIn_eq_ok_iff⟩

end PgSchema
