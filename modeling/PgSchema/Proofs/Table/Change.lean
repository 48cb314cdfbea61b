/-
# Tables and their parts change field by field

A part of a table is changed by naming fields: a named field becomes the value given for it, read
like the field of a definition, and every other field stays, whatever it is made of.

* `DefaultValue.evolve_eq_ok_iff`, `ForeignKey.evolve_eq_ok_iff`, `Index.evolve_eq_ok_iff`,
  `Policy.evolve_eq_ok_iff`, `Constraint.evolve_eq_ok_iff`, `Partition.evolve_eq_ok_iff`,
  `Column.evolve_eq_ok_iff`, `Table.evolve_eq_ok_iff` : what a table and each of its parts becomes;
* `Column.load_save_internal` and its like : a part is read back as it was written under the names
  of its fields.
-/
import PgSchema.Proofs.SqlType.Change
import PgSchema.Proofs.Table.Saved
import PgSchema.Proofs.ValueRule.Change

namespace PgSchema

variable {changes : Entries}

/-! ## Defaults -/

namespace DefaultValue

/-- What changes make of a default. -/
structure Becomes (d : DefaultValue) (changes : Entries) (d' : DefaultValue) : Prop where
  kind : kindField.Becomes changes Loading.member d.kind d'.kind
  expression : expressionField.Becomes changes Loading.nonemptyText
    ⟨d.expression, d.nonempty⟩ ⟨d'.expression, d'.nonempty⟩
  description : descriptionField.Becomes changes Loading.text d.description d'.description

theorem evolve_eq_ok_iff {d d' : DefaultValue} :
    Definition.evolve d changes = .ok d' ↔ changes.Name fields ∧ d.Becomes changes d' := by
  have hnamed : FieldName.Named fields := by decide
  change load ((d.save .internal).changed changes) = _ ↔ _
  simp only [save, Style.record, Document.changed, load]
  refine asRecord_changed_eq_ok_iff (by rfl) hnamed fun entries _ h => ?_
  simp only [written, List.forall_mem_cons] at h
  obtain ⟨hkind, hexpression, hdescription, -⟩ := h
  rw [Checked.eq_ok_iff_yields]
  simp only [Checked.seq_yields_iff, Checked.map_yields_iff]
  simp only [Checked.Yields, hkind.optional_iff (Loading.member_word _),
    hexpression.required_iff (Loading.nonemptyText_text d.nonempty),
    hdescription.optional_iff (Loading.text_text _)]
  constructor
  · rintro ⟨_, h1, _, h2, _, h3, rfl⟩
    exact ⟨h1, h2, h3⟩
  · intro h
    exact ⟨_, h.kind, _, h.expression, _, h.description, rfl⟩

theorem evolve_nil (d : DefaultValue) : Definition.evolve d [] = .ok d :=
  evolve_eq_ok_iff.2 ⟨Entries.name_nil fields, rfl, rfl, rfl⟩

theorem load_save_internal (d : DefaultValue) : load (d.save .internal) = .ok d := d.evolve_nil

end DefaultValue

/-! ## Foreign keys -/

namespace ForeignKey

/-- What changes make of a foreign key. -/
structure Becomes (key : ForeignKey) (changes : Entries) (key' : ForeignKey) : Prop where
  column : columnField.Becomes changes Loading.nonemptyText
    ⟨key.column, key.column_nonempty⟩ ⟨key'.column, key'.column_nonempty⟩
  targetTable : targetTableField.Becomes changes Loading.text key.targetTable key'.targetTable
  targetColumn : targetColumnField.Becomes changes Loading.text key.targetColumn key'.targetColumn
  onDelete : onDeleteField.Becomes changes loadAction key.onDelete key'.onDelete
  onUpdate : onUpdateField.Becomes changes loadAction key.onUpdate key'.onUpdate
  name : nameField.Becomes changes (Loading.orNull Loading.text) key.name key'.name
  deferrable : deferrableField.Becomes changes Loading.flag key.deferrable key'.deferrable
  initiallyDeferred : initiallyDeferredField.Becomes changes Loading.flag
    key.initiallyDeferred key'.initiallyDeferred
  notValid : notValidField.Becomes changes Loading.flag key.notValid key'.notValid
  comment : commentField.Becomes changes (Loading.orNull Loading.text) key.comment key'.comment

theorem evolve_eq_ok_iff {key key' : ForeignKey} :
    Definition.evolve key changes = .ok key' ↔ changes.Name fields ∧ key.Becomes changes key' := by
  have hnamed : FieldName.Named fields := by decide
  change load ((key.save .internal).changed changes) = _ ↔ _
  rw [save, load]
  refine asRecord_changed_eq_ok_iff (by rfl) hnamed fun entries _ h => ?_
  simp only [written, List.forall_mem_cons] at h
  obtain ⟨hcolumn, htable, htarget, hdelete, hupdate, hname, hdeferrable, hdeferred, hvalid,
    hcomment, -⟩ := h
  rw [Checked.eq_ok_iff_yields]
  simp only [Checked.seq_yields_iff, Checked.map_yields_iff]
  simp only [Checked.Yields, Entries.nullable,
    hcolumn.required_iff (Loading.nonemptyText_text key.column_nonempty),
    htable.optional_iff (Loading.text_text _), htarget.optional_iff (Loading.text_text _),
    hdelete.optional_iff (loadAction_ofWord _), hupdate.optional_iff (loadAction_ofWord _),
    hname.optional_iff (Loading.orNull_ofText? _), hdeferrable.optional_iff (Loading.flag_flag _),
    hdeferred.optional_iff (Loading.flag_flag _), hvalid.optional_iff (Loading.flag_flag _),
    hcomment.optional_iff (Loading.orNull_ofText? _)]
  constructor
  · rintro ⟨_, h1, _, h2, _, h3, _, h4, _, h5, _, h6, _, h7, _, h8, _, h9, _, h10, rfl⟩
    exact ⟨h1, h2, h3, h4, h5, h6, h7, h8, h9, h10⟩
  · intro h
    exact ⟨_, h.column, _, h.targetTable, _, h.targetColumn, _, h.onDelete, _, h.onUpdate,
      _, h.name, _, h.deferrable, _, h.initiallyDeferred, _, h.notValid, _, h.comment, rfl⟩

theorem evolve_nil (key : ForeignKey) : Definition.evolve key [] = .ok key :=
  evolve_eq_ok_iff.2
    ⟨Entries.name_nil fields, rfl, rfl, rfl, rfl, rfl, rfl, rfl, rfl, rfl, rfl⟩

theorem load_save_internal (key : ForeignKey) : load (key.save .internal) = .ok key :=
  key.evolve_nil

end ForeignKey

/-! ## Indexes -/

namespace Index

/-- What changes make of an index. -/
structure Becomes (index : Index) (changes : Entries) (index' : Index) : Prop where
  name : nameField.Becomes changes (Loading.orNull Loading.text) index.name index'.name
  columns : columnsField.Becomes changes Loading.oneOrMoreTexts index.columns index'.columns
  expression :
    expressionField.Becomes changes (Loading.orNull Loading.text) index.expression index'.expression
  unique : uniqueField.Becomes changes Loading.flag index.unique index'.unique
  method : methodField.Becomes changes loadMethod index.method index'.method
  condition :
    conditionField.Becomes changes (Loading.orNull Loading.text) index.condition index'.condition
  included : includedField.Becomes changes Loading.oneOrMoreTexts index.included index'.included
  storageParameters :
    storageField.Becomes changes loadMapping index.storageParameters index'.storageParameters
  fillFactor : fillFactorField.Becomes changes (Loading.orNull Loading.integer)
    index.fillFactor index'.fillFactor
  descending : descendingField.Becomes changes Loading.flag index.descending index'.descending
  nullsFirst :
    nullsFirstField.Becomes changes (Loading.orNull Loading.flag) index.nullsFirst index'.nullsFirst
  operatorClass : operatorClassField.Becomes changes (Loading.orNull Loading.text)
    index.operatorClass index'.operatorClass
  tablespace :
    tablespaceField.Becomes changes (Loading.orNull Loading.text) index.tablespace index'.tablespace
  concurrent : concurrentField.Becomes changes Loading.flag index.concurrent index'.concurrent
  comment : commentField.Becomes changes (Loading.orNull Loading.text) index.comment index'.comment

theorem orNull_integer (n? : Option Int) :
    Loading.orNull Loading.integer ((n?.map Document.integer).getD .null) = .ok n? :=
  Loading.orNull_written n? _ (fun _ _ => rfl) fun _ _ => rfl

theorem orNull_flag (b? : Option Bool) :
    Loading.orNull Loading.flag ((b?.map Document.flag).getD .null) = .ok b? :=
  Loading.orNull_written b? _ (fun _ _ => rfl) fun _ _ => rfl

theorem evolve_eq_ok_iff {index index' : Index} :
    Definition.evolve index changes = .ok index' ↔
      changes.Name fields ∧ index.Becomes changes index' := by
  have hnamed : FieldName.Named fields := by decide
  change load ((index.save .internal).changed changes) = _ ↔ _
  rw [save, load]
  refine asRecord_changed_eq_ok_iff (by rfl) hnamed fun entries _ h => ?_
  simp only [written, List.forall_mem_cons] at h
  obtain ⟨hname, hcolumns, hexpression, hunique, hmethod, hcondition, hincluded, hstorage, hfill,
    hdescending, hnulls, hclass, htablespace, hconcurrent, hcomment, -⟩ := h
  rw [Checked.eq_ok_iff_yields]
  simp only [Checked.seq_yields_iff, Checked.map_yields_iff]
  simp only [Checked.Yields, Entries.nullable,
    hname.optional_iff (Loading.orNull_ofText? _),
    hcolumns.optional_iff (Loading.oneOrMoreTexts_ofTexts _),
    hexpression.optional_iff (Loading.orNull_ofText? _),
    hunique.optional_iff (Loading.flag_flag _), hmethod.optional_iff (loadMethod_ofWord _),
    hcondition.optional_iff (Loading.orNull_ofText? _),
    hincluded.optional_iff (Loading.oneOrMoreTexts_ofTexts _),
    hstorage.optional_iff (loadMapping_record _), hfill.optional_iff (orNull_integer _),
    hdescending.optional_iff (Loading.flag_flag _), hnulls.optional_iff (orNull_flag _),
    hclass.optional_iff (Loading.orNull_ofText? _),
    htablespace.optional_iff (Loading.orNull_ofText? _),
    hconcurrent.optional_iff (Loading.flag_flag _),
    hcomment.optional_iff (Loading.orNull_ofText? _)]
  constructor
  · rintro ⟨_, h1, _, h2, _, h3, _, h4, _, h5, _, h6, _, h7, _, h8, _, h9, _, h10, _, h11, _, h12,
      _, h13, _, h14, _, h15, rfl⟩
    exact ⟨h1, h2, h3, h4, h5, h6, h7, h8, h9, h10, h11, h12, h13, h14, h15⟩
  · intro h
    exact ⟨_, h.name, _, h.columns, _, h.expression, _, h.unique, _, h.method, _, h.condition,
      _, h.included, _, h.storageParameters, _, h.fillFactor, _, h.descending, _, h.nullsFirst,
      _, h.operatorClass, _, h.tablespace, _, h.concurrent, _, h.comment, rfl⟩

theorem evolve_nil (index : Index) : Definition.evolve index [] = .ok index :=
  evolve_eq_ok_iff.2 ⟨Entries.name_nil fields, rfl, rfl, rfl, rfl, rfl, rfl, rfl, rfl, rfl, rfl,
    rfl, rfl, rfl, rfl, rfl⟩

theorem load_save_internal (index : Index) : load (index.save .internal) = .ok index :=
  index.evolve_nil

end Index

/-! ## Policies -/

namespace Policy

/-- What changes make of a policy. -/
structure Becomes (p : Policy) (changes : Entries) (p' : Policy) : Prop where
  name : nameField.Becomes changes Loading.nonemptyText
    ⟨p.name, p.name_nonempty⟩ ⟨p'.name, p'.name_nonempty⟩
  command : commandField.Becomes changes loadCommand p.command p'.command
  roles : rolesField.Becomes changes Loading.oneOrMoreTexts p.roles p'.roles
  condition : conditionField.Becomes changes Loading.text p.condition p'.condition
  checkCondition :
    checkField.Becomes changes (Loading.orNull Loading.text) p.checkCondition p'.checkCondition
  comment : commentField.Becomes changes (Loading.orNull Loading.text) p.comment p'.comment
  permissive : permissiveField.Becomes changes Loading.flag p.permissive p'.permissive

theorem evolve_eq_ok_iff {p p' : Policy} :
    Definition.evolve p changes = .ok p' ↔ changes.Name fields ∧ p.Becomes changes p' := by
  have hnamed : FieldName.Named fields := by decide
  change load ((p.save .internal).changed changes) = _ ↔ _
  rw [save, load]
  refine asRecord_changed_eq_ok_iff (by rfl) hnamed fun entries _ h => ?_
  simp only [written, List.forall_mem_cons] at h
  obtain ⟨hname, hcommand, hroles, hcondition, hcheck, hcomment, hpermissive, -⟩ := h
  rw [Checked.eq_ok_iff_yields]
  simp only [Checked.seq_yields_iff, Checked.map_yields_iff]
  simp only [Checked.Yields, Entries.nullable,
    hname.required_iff (Loading.nonemptyText_text p.name_nonempty),
    hcommand.optional_iff (loadCommand_ofWord _),
    hroles.optional_iff (Loading.oneOrMoreTexts_ofTexts _),
    hcondition.optional_iff (Loading.text_text _), hcheck.optional_iff (Loading.orNull_ofText? _),
    hcomment.optional_iff (Loading.orNull_ofText? _),
    hpermissive.optional_iff (Loading.flag_flag _)]
  constructor
  · rintro ⟨_, h1, _, h2, _, h3, _, h4, _, h5, _, h6, _, h7, rfl⟩
    exact ⟨h1, h2, h3, h4, h5, h6, h7⟩
  · intro h
    exact ⟨_, h.name, _, h.command, _, h.roles, _, h.condition, _, h.checkCondition,
      _, h.comment, _, h.permissive, rfl⟩

theorem evolve_nil (p : Policy) : Definition.evolve p [] = .ok p :=
  evolve_eq_ok_iff.2 ⟨Entries.name_nil fields, rfl, rfl, rfl, rfl, rfl, rfl, rfl⟩

theorem load_save_internal (p : Policy) : load (p.save .internal) = .ok p := p.evolve_nil

end Policy

/-! ## Constraints -/

namespace Constraint

/-- What changes make of the rule of a constraint. -/
def RuleBecomes (changes : Entries) : ConstraintRule → ConstraintRule → Prop
  | .check condition, .check condition' =>
    conditionField.Becomes changes Loading.text condition condition'
  | .unique columns, .unique columns' =>
    columnsField.Becomes changes Loading.texts columns columns'
  | .primaryKey columns, .primaryKey columns' =>
    columnsField.Becomes changes Loading.texts columns columns'
  | _, _ => False

/-- What changes make of a constraint. -/
structure Becomes (c : Constraint) (changes : Entries) (c' : Constraint) : Prop where
  name : nameField.Becomes changes Loading.text c.name c'.name
  comment : commentField.Becomes changes (Loading.orNull Loading.text) c.comment c'.comment
  rule : RuleBecomes changes c.rule c'.rule

theorem fields_named (tag : Tag) : FieldName.Named (fields tag) := by
  cases tag <;> decide

theorem written_fields (c : Constraint) : c.written.map (·.field) = fields c.tag := by
  obtain ⟨name, rule, comment⟩ := c
  cases rule <;> rfl

/-- The rule of a constraint is read from changed entries by its kind. -/
theorem loadRule_eq_ok_iff {c : Constraint} {rule' : ConstraintRule} {entries : Entries}
    (h : ∀ w ∈ c.written, Reading entries changes w) :
    loadRule c.tag entries = .ok rule' ↔ RuleBecomes changes c.rule rule' := by
  obtain ⟨name, rule, comment⟩ := c
  simp only [written, List.forall_mem_cons] at h
  obtain ⟨-, -, -, hrule, -⟩ := h
  cases rule with
  | check condition =>
    simp only [tag, loadRule, Checked.map_eq_ok_iff, hrule.required_iff (Loading.text_text _)]
    cases rule' <;> simp [RuleBecomes]
  | unique columns =>
    simp only [tag, loadRule, Checked.map_eq_ok_iff, hrule.optional_iff (Loading.texts_ofTexts _)]
    cases rule' <;> simp [RuleBecomes]
  | primaryKey columns =>
    simp only [tag, loadRule, Checked.map_eq_ok_iff, hrule.optional_iff (Loading.texts_ofTexts _)]
    cases rule' <;> simp [RuleBecomes]

theorem evolve_eq_ok_iff {c c' : Constraint} :
    Definition.evolve c changes = .ok c' ↔
      changes.Name (fields c.tag) ∧ changes.KeepTag c.tag.word ∧ c.Becomes changes c' := by
  change ofRecord c.tag (changedEntries c.written changes) = _ ↔ _
  rw [ofRecord]
  refine entries_asRecord_changed_eq_ok_iff c.written_fields (fields_named c.tag)
    fun entries _ h => ?_
  have hrule : ∀ rule', loadRule c.tag entries = .ok rule' ↔ RuleBecomes changes c.rule rule' :=
    fun _ => loadRule_eq_ok_iff h
  simp only [written, List.forall_mem_cons] at h
  obtain ⟨hname, hcomment, htag, -⟩ := h
  have htagged : ∀ u, entries.tagged c.tag.word = .ok u ↔ changes.KeepTag c.tag.word :=
    fun _ => htag.tagged_iff
  rw [Checked.eq_ok_iff_yields]
  simp only [Checked.seq_yields_iff, Checked.map_yields_iff]
  simp only [Checked.Yields, Entries.nullable, hname.required_iff (Loading.text_text _),
    hcomment.optional_iff (Loading.orNull_ofText? _), htagged, hrule]
  constructor
  · rintro ⟨_, h1, _, h2, _, htag, _, h3, rfl⟩
    exact ⟨htag, h1, h2, h3⟩
  · rintro ⟨htag, h⟩
    exact ⟨_, h.name, _, h.comment, (), htag, _, h.rule, rfl⟩

/-- Without changes a constraint is what it was. -/
theorem becomes_nil (c : Constraint) : c.Becomes [] c := by
  obtain ⟨name, rule, comment⟩ := c
  cases rule <;> exact ⟨rfl, rfl, rfl⟩

theorem evolve_nil (c : Constraint) : Definition.evolve c [] = .ok c :=
  evolve_eq_ok_iff.2 ⟨Entries.name_nil _, Entries.keepTag_nil _, c.becomes_nil⟩

theorem load_save_internal (c : Constraint) : load (c.save .internal) = .ok c := by
  have hsame : ofRecord c.tag (Style.internal.entries c.written) = .ok c := c.evolve_nil
  rw [save, load, byTag_internal c.written_fields (fields_named c.tag) c.tag (by simp [written]),
    hsame, Checked.under_ok]

end Constraint

/-! ## Partitionings -/

namespace Partition

/-- What changes make of a partitioning; its method stays. -/
structure Becomes (p : Partition) (changes : Entries) (p' : Partition) : Prop where
  columns : columnsField.Becomes changes Loading.texts p.columns p'.columns
  method_eq : p'.method = p.method

theorem fields_named : FieldName.Named fields := by decide

theorem evolve_eq_ok_iff {p p' : Partition} :
    Definition.evolve p changes = .ok p' ↔
      changes.Name fields ∧ changes.KeepTag p.method.word ∧ p.Becomes changes p' := by
  change ofRecord p.method (changedEntries p.written changes) = _ ↔ _
  rw [ofRecord]
  refine entries_asRecord_changed_eq_ok_iff (by rfl) fields_named fun entries _ h => ?_
  simp only [written, List.forall_mem_cons] at h
  obtain ⟨hcolumns, htag, -⟩ := h
  have htagged : ∀ u, entries.tagged p.method.word = .ok u ↔ changes.KeepTag p.method.word :=
    fun _ => htag.tagged_iff
  rw [Checked.eq_ok_iff_yields]
  simp only [Checked.seq_yields_iff, Checked.map_yields_iff]
  simp only [Checked.Yields, hcolumns.optional_iff (Loading.texts_ofTexts _), htagged]
  constructor
  · rintro ⟨_, hcolumns, _, htag, rfl⟩
    exact ⟨htag, hcolumns, rfl⟩
  · rintro ⟨htag, hcolumns, hmethod⟩
    exact ⟨_, hcolumns, (), htag, by rw [← hmethod]⟩

theorem evolve_nil (p : Partition) : Definition.evolve p [] = .ok p :=
  evolve_eq_ok_iff.2 ⟨Entries.name_nil fields, Entries.keepTag_nil _, rfl, rfl⟩

theorem load_save_internal (p : Partition) : load (p.save .internal) = .ok p := by
  have hsame : ofRecord p.method (Style.internal.entries p.written) = .ok p := p.evolve_nil
  have hfields : p.written.map (·.field) = fields := rfl
  rw [save, load, byTag_internal hfields fields_named p.method (by simp [written]), hsame,
    Checked.under_ok]

end Partition

/-! ## Columns -/

namespace Column

/-- What changes make of a column. -/
structure Becomes (c : Column) (changes : Entries) (c' : Column) : Prop where
  name : nameField.Becomes changes Loading.nonemptyText
    ⟨c.name, c.name_nonempty⟩ ⟨c'.name, c'.name_nonempty⟩
  type : typeField.Becomes changes SqlType.load c.type c'.type
  nullable : nullableField.Becomes changes Loading.flag c.nullable c'.nullable
  primaryKey : primaryKeyField.Becomes changes Loading.flag c.primaryKey c'.primaryKey
  unique : uniqueField.Becomes changes Loading.flag c.unique c'.unique
  default : defaultField.Becomes changes (Loading.orNull DefaultValue.load) c.default c'.default
  conditions : conditionsField.Becomes changes Loading.oneOrMoreTexts c.conditions c'.conditions
  rules : rulesField.Becomes changes ValueRule.loadList c.rules c'.rules
  collation : collationField.Becomes changes (Loading.orNull Loading.text) c.collation c'.collation
  comment : commentField.Becomes changes (Loading.orNull Loading.text) c.comment c'.comment

theorem orNull_default (d? : Option DefaultValue) :
    Loading.orNull DefaultValue.load ((d?.map (·.save .internal)).getD .null) = .ok d? :=
  Loading.orNull_written d? _ (fun _ _ => rfl) fun d _ => d.load_save_internal

theorem evolve_eq_ok_iff {c c' : Column} :
    Definition.evolve c changes = .ok c' ↔ changes.Name fields ∧ c.Becomes changes c' := by
  have hnamed : FieldName.Named fields := by decide
  change load ((c.save .internal).changed changes) = _ ↔ _
  rw [save, load]
  refine asRecord_changed_eq_ok_iff (by rfl) hnamed fun entries _ h => ?_
  simp only [written, List.forall_mem_cons] at h
  obtain ⟨hname, htype, hnullable, hkey, hunique, hdefault, hconditions, hrules, hcollation,
    hcomment, -⟩ := h
  have hread : ValueRule.loadList (.list (ValueRule.saveParts .internal c.rules)) = .ok c.rules :=
    ValueRule.loadItems_saveParts_internal c.rules 0
  rw [Checked.eq_ok_iff_yields]
  simp only [Checked.seq_yields_iff, Checked.map_yields_iff]
  simp only [Checked.Yields, Entries.nullable,
    hname.required_iff (Loading.nonemptyText_text c.name_nonempty),
    htype.required_iff (SqlType.load_save_internal _),
    hnullable.optional_iff (Loading.flag_flag _), hkey.optional_iff (Loading.flag_flag _),
    hunique.optional_iff (Loading.flag_flag _), hdefault.optional_iff (orNull_default _),
    hconditions.optional_iff (Loading.oneOrMoreTexts_ofTexts _), hrules.optional_iff hread,
    hcollation.optional_iff (Loading.orNull_ofText? _),
    hcomment.optional_iff (Loading.orNull_ofText? _)]
  constructor
  · rintro ⟨_, h1, _, h2, _, h3, _, h4, _, h5, _, h6, _, h7, _, h8, _, h9, _, h10, rfl⟩
    exact ⟨h1, h2, h3, h4, h5, h6, h7, h8, h9, h10⟩
  · intro h
    exact ⟨_, h.name, _, h.type, _, h.nullable, _, h.primaryKey, _, h.unique, _, h.default,
      _, h.conditions, _, h.rules, _, h.collation, _, h.comment, rfl⟩

theorem evolve_nil (c : Column) : Definition.evolve c [] = .ok c :=
  evolve_eq_ok_iff.2 ⟨Entries.name_nil fields, rfl, rfl, rfl, rfl, rfl, rfl, rfl, rfl, rfl, rfl⟩

theorem load_save_internal (c : Column) : load (c.save .internal) = .ok c := c.evolve_nil

end Column

/-! ## Tables -/

namespace Table

/-- Reads columns with distinct names. -/
def loadColumns (d : Document) : Checked Columns :=
  (Loading.list Column.load d).andThen distinctColumns

/-- What changes make of a table. -/
structure Becomes (t : Table) (changes : Entries) (t' : Table) : Prop where
  name : nameField.Becomes changes Loading.nonemptyText
    ⟨t.name, t.name_nonempty⟩ ⟨t'.name, t'.name_nonempty⟩
  columns : columnsField.Becomes changes loadColumns
    ⟨t.columns, t.columns_nodup⟩ ⟨t'.columns, t'.columns_nodup⟩
  indexes : indexesField.Becomes changes (Loading.list Index.load) t.indexes t'.indexes
  policies : policiesField.Becomes changes (Loading.list Policy.load) t.policies t'.policies
  foreignKeys :
    foreignKeysField.Becomes changes (Loading.list ForeignKey.load) t.foreignKeys t'.foreignKeys
  constraints :
    constraintsField.Becomes changes (Loading.list Constraint.load) t.constraints t'.constraints
  comment : commentField.Becomes changes (Loading.orNull Loading.text) t.comment t'.comment
  rowSecurity : rowSecurityField.Becomes changes Loading.flag t.rowSecurity t'.rowSecurity
  partition :
    partitionField.Becomes changes (Loading.orNull Partition.load) t.partition t'.partition

/-- Columns with distinct names are read back as they were written under the names of their
fields. -/
theorem loadColumns_save {columns : List Column} (h : (columns.map (·.name)).Nodup) :
    loadColumns (.list (columns.map (·.save .internal))) = .ok ⟨columns, h⟩ := by
  rw [loadColumns, Loading.list_map_eq_ok fun c _ => c.load_save_internal, Checked.ok_andThen]
  exact dif_pos h

theorem orNull_partition (p? : Option Partition) :
    Loading.orNull Partition.load ((p?.map (·.save .internal)).getD .null) = .ok p? :=
  Loading.orNull_written p? _ (fun _ _ => rfl) fun p _ => p.load_save_internal

theorem evolve_eq_ok_iff {t t' : Table} :
    Definition.evolve t changes = .ok t' ↔ changes.Name fields ∧ t.Becomes changes t' := by
  have hnamed : FieldName.Named fields := by decide
  change load ((t.save .internal).changed changes) = _ ↔ _
  rw [save, load]
  refine asRecord_changed_eq_ok_iff (by rfl) hnamed fun entries _ h => ?_
  simp only [written, List.forall_mem_cons] at h
  obtain ⟨hname, hcolumns, hindexes, hpolicies, hkeys, hconstraints, hcomment, hsecurity,
    hpartition, -⟩ := h
  have hcolumns (columns : Columns) :
      (entries.optional columnsField ⟨[], by simp⟩ fun d =>
        (Loading.list Column.load d).andThen distinctColumns) = .ok columns ↔
      columnsField.Becomes changes loadColumns ⟨t.columns, t.columns_nodup⟩ columns :=
    hcolumns.optional_iff (loadColumns_save t.columns_nodup)
  rw [Checked.eq_ok_iff_yields]
  simp only [Checked.seq_yields_iff, Checked.map_yields_iff]
  simp only [Checked.Yields, Entries.nullable,
    hname.required_iff (Loading.nonemptyText_text t.name_nonempty), hcolumns,
    hindexes.optional_iff (Loading.list_map_eq_ok fun i _ => i.load_save_internal),
    hpolicies.optional_iff (Loading.list_map_eq_ok fun p _ => p.load_save_internal),
    hkeys.optional_iff (Loading.list_map_eq_ok fun k _ => k.load_save_internal),
    hconstraints.optional_iff (Loading.list_map_eq_ok fun c _ => c.load_save_internal),
    hcomment.optional_iff (Loading.orNull_ofText? _), hsecurity.optional_iff (Loading.flag_flag _),
    hpartition.optional_iff (orNull_partition _)]
  constructor
  · rintro ⟨_, h1, _, h2, _, h3, _, h4, _, h5, _, h6, _, h7, _, h8, _, h9, rfl⟩
    exact ⟨h1, h2, h3, h4, h5, h6, h7, h8, h9⟩
  · intro h
    exact ⟨_, h.name, _, h.columns, _, h.indexes, _, h.policies, _, h.foreignKeys,
      _, h.constraints, _, h.comment, _, h.rowSecurity, _, h.partition, rfl⟩

theorem evolve_nil (t : Table) : Definition.evolve t [] = .ok t :=
  evolve_eq_ok_iff.2 ⟨Entries.name_nil fields, rfl, rfl, rfl, rfl, rfl, rfl, rfl, rfl, rfl⟩

end Table
end PgSchema
