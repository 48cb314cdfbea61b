/-
# The parts of a table are read back

Defaults, foreign keys, indexes and policies are read back as they were written, with or without
the fields that have their default.  Constraints and partitionings are read back if their tag was
written, and not otherwise.

* `DefaultValue.load_save`, `ForeignKey.load_save`, `Index.load_save`, `Policy.load_save`;
* `Constraint.load_save_full`, `Partition.load_save_full` : tagged records in full;
* `Constraint.load_save_brief`, `Partition.load_save_brief` : tagged records without their tag.
-/
import PgSchema.Proofs.Loading.Record
import PgSchema.Table

namespace PgSchema

variable {style : Style}

/-! ## Defaults -/

namespace DefaultValue

theorem writing (h : style ≠ .internal) (d : DefaultValue) : Writing style fields d.written :=
  ⟨h, rfl, by decide⟩

theorem load_save (h : style ≠ .internal) (d : DefaultValue) : load (d.save style) = .ok d := by
  have hw := writing h d
  simp only [save, Style.record, load, Document.asRecord, hw.entries_asRecord_eq]
  rw [hw.word_eq_ok d.kind (Loading.member_word _) (by simp [written]),
    hw.name_eq_ok d.expression d.nonempty (by simp [written]),
    hw.text_eq_ok d.description (by simp [written])]
  rfl

end DefaultValue

/-! ## Foreign keys -/

namespace ForeignKey

theorem loadAction_ofWord (action : ReferentialAction) :
    loadAction (.ofWord action) = .ok action := by
  cases action <;> rfl

theorem writing (h : style ≠ .internal) (key : ForeignKey) : Writing style fields key.written :=
  ⟨h, rfl, by decide⟩

theorem load_save (h : style ≠ .internal) (key : ForeignKey) :
    load (key.save style) = .ok key := by
  have hw := writing h key
  rw [save, load, hw.asRecord_eq,
    hw.name_eq_ok key.column key.column_nonempty (by simp [written]),
    hw.text_eq_ok key.targetTable (by simp [written]),
    hw.text_eq_ok key.targetColumn (by simp [written]),
    hw.word_eq_ok key.onDelete (loadAction_ofWord _) (by simp [written]),
    hw.word_eq_ok key.onUpdate (loadAction_ofWord _) (by simp [written]),
    hw.text?_eq_ok key.name (by simp [written]),
    hw.flag_eq_ok key.deferrable (by simp [written]),
    hw.flag_eq_ok key.initiallyDeferred (by simp [written]),
    hw.flag_eq_ok key.notValid (by simp [written]),
    hw.text?_eq_ok key.comment (by simp [written])]
  rfl

end ForeignKey

/-! ## Indexes -/

namespace Index

theorem loadMethod_ofWord (method : IndexMethod) : loadMethod (.ofWord method) = .ok method := by
  cases method <;> rfl

theorem loadMapping_record (entries : Entries) : loadMapping (.record entries) = .ok entries := rfl

theorem writing (h : style ≠ .internal) (index : Index) : Writing style fields index.written :=
  ⟨h, rfl, by decide⟩

theorem load_save (h : style ≠ .internal) (index : Index) :
    load (index.save style) = .ok index := by
  have hw := writing h index
  rw [save, load, hw.asRecord_eq, hw.text?_eq_ok index.name (by simp [written]),
    hw.list_eq_ok index.columns rfl (Loading.oneOrMoreTexts_ofTexts _) (by simp [written]),
    hw.text?_eq_ok index.expression (by simp [written]),
    hw.flag_eq_ok index.unique (by simp [written]),
    hw.word_eq_ok index.method (loadMethod_ofWord _) (by simp [written]),
    hw.text?_eq_ok index.condition (by simp [written]),
    hw.list_eq_ok index.included rfl (Loading.oneOrMoreTexts_ofTexts _) (by simp [written]),
    hw.list_eq_ok index.storageParameters rfl (loadMapping_record _) (by simp [written]),
    hw.nullable_eq_ok index.fillFactor .integer (fun _ _ => rfl) (fun _ _ => rfl)
      (by simp [written]),
    hw.flag_eq_ok index.descending (by simp [written]),
    hw.nullable_eq_ok index.nullsFirst .flag (fun _ _ => rfl) (fun _ _ => rfl)
      (by simp [written]),
    hw.text?_eq_ok index.operatorClass (by simp [written]),
    hw.text?_eq_ok index.tablespace (by simp [written]),
    hw.flag_eq_ok index.concurrent (by simp [written]),
    hw.text?_eq_ok index.comment (by simp [written])]
  rfl

end Index

/-! ## Policies -/

namespace Policy

theorem loadCommand_ofWord (command : PolicyCommand) :
    loadCommand (.ofWord command) = .ok command := by
  cases command <;> rfl

theorem writing (h : style ≠ .internal) (p : Policy) : Writing style fields p.written :=
  ⟨h, rfl, by decide⟩

theorem load_save (h : style ≠ .internal) (p : Policy) : load (p.save style) = .ok p := by
  have hw := writing h p
  rw [save, load, hw.asRecord_eq, hw.name_eq_ok p.name p.name_nonempty (by simp [written]),
    hw.word_eq_ok p.command (loadCommand_ofWord _) (by simp [written]),
    hw.list_eq_ok p.roles rfl (Loading.oneOrMoreTexts_ofTexts _) (by simp [written]),
    hw.text_eq_ok p.condition (by simp [written]),
    hw.text?_eq_ok p.checkCondition (by simp [written]),
    hw.text?_eq_ok p.comment (by simp [written]),
    hw.flag_eq_ok p.permissive (by simp [written])]
  rfl

end Policy

/-! ## Constraints -/

namespace Constraint

theorem fields_apart (tag : Tag) : (fields tag).Pairwise FieldName.Apart := by
  cases tag <;> decide

theorem writing (h : style ≠ .internal) (c : Constraint) :
    Writing style (fields c.tag) c.written := by
  refine ⟨h, ?_, fields_apart c.tag⟩
  obtain ⟨name, rule, comment⟩ := c
  cases rule <;> rfl

theorem loadRule_eq_ok (h : style ≠ .internal) (c : Constraint) :
    loadRule c.tag (style.entries c.written) = .ok c.rule := by
  have hw := writing h c
  obtain ⟨name, rule, comment⟩ := c
  cases rule with
  | check condition =>
    rw [tag, loadRule, hw.required_eq_ok condition rfl (Loading.text_text _) (by simp [written])]
    rfl
  | unique columns =>
    rw [tag, loadRule, hw.list_eq_ok columns rfl (Loading.texts_ofTexts _) (by simp [written])]
    rfl
  | primaryKey columns =>
    rw [tag, loadRule, hw.list_eq_ok columns rfl (Loading.texts_ofTexts _) (by simp [written])]
    rfl

theorem load_save_full (c : Constraint) : load (c.save .full) = .ok c := by
  have hlabelled : Style.full ≠ .internal := by decide
  have hw := writing hlabelled c
  have htag : (Style.full.entries c.written).tagged c.tag.word = .ok () :=
    hw.tagged_eq_ok c.tag (by simp [written])
  rw [save, load, hw.byTag_full c.tag (by simp [written]), ofRecord, hw.entries_asRecord_eq,
    hw.required_eq_ok c.name rfl (Loading.text_text _) (by simp [written]),
    hw.text?_eq_ok c.comment (by simp [written]), htag,
    loadRule_eq_ok hlabelled c]
  rfl

/-- Without their tags a unique constraint and a primary key are one record, so that no reader can
tell them apart. -/
theorem save_brief_unique_eq_primaryKey (name : String) (columns : List String)
    (comment : Option String) :
    save .brief ⟨name, .unique columns, comment⟩ =
      save .brief ⟨name, .primaryKey columns, comment⟩ :=
  rfl

/-- Without its tag a constraint is not read. -/
theorem load_save_brief (c : Constraint) : load (c.save .brief) = .fault .tagMissing :=
  (writing (by decide) c).byTag_brief c.tag (by simp [written]) _

end Constraint

/-! ## Partitionings -/

namespace Partition

theorem writing (h : style ≠ .internal) (p : Partition) : Writing style fields p.written :=
  ⟨h, rfl, by decide⟩

theorem load_save_full (p : Partition) : load (p.save .full) = .ok p := by
  have hlabelled : Style.full ≠ .internal := by decide
  have hw := writing hlabelled p
  have htag : (Style.full.entries p.written).tagged p.method.word = .ok () :=
    hw.tagged_eq_ok p.method (by simp [written])
  rw [save, load, hw.byTag_full p.method (by simp [written]), ofRecord, hw.entries_asRecord_eq,
    hw.list_eq_ok p.columns rfl (Loading.texts_ofTexts _) (by simp [written]),
    htag]
  rfl

/-- Without its tag a partitioning is not read. -/
theorem load_save_brief (p : Partition) : load (p.save .brief) = .fault .tagMissing :=
  (writing (by decide) p).byTag_brief p.method (by simp [written]) _

end Partition
end PgSchema
