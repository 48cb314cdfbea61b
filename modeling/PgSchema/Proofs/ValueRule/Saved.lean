/-
# Value rules are read back

A rule written in full is read back, however deep its parts are nested: its tag names its kind,
and each kind finds its own fields.  Without the tag no rule is read.

* `ValueRule.load_save_full` : a rule is read back as it was written in full;
* `ValueRule.load_save_brief` : a rule written without its tag is not read.
-/
import PgSchema.Proofs.Loading.Record
import PgSchema.ValueRule.Load

namespace PgSchema.ValueRule

variable {style : Style} {ws : List Written}

/-! ## Fields -/

theorem fields_apart (tag : Tag) : (fields tag).Pairwise FieldName.Apart := by
  cases tag <;> decide

/-- The bounds of a rule break no rule. -/
theorem make_bounds (bounds : Bounds) : Bounds.make bounds.min bounds.max = .ok bounds := by
  match bounds with
  | ⟨none, none, hbounded, _⟩ => simp at hbounded
  | ⟨some a, none, _, _⟩ => rfl
  | ⟨none, some b, _, _⟩ => rfl
  | ⟨some a, some b, _, hordered⟩ => exact dif_pos (hordered a rfl b rfl)

/-! ## Parts -/

theorem loadEntries_eq_map (entries : Entries) :
    loadEntries entries = entries.map fun entry => (entry.1, loadList entry.2) := by
  induction entries with
  | nil => rfl
  | cons entry entries ih => rw [loadEntries, ih, List.map_cons]

/-- The parts are read like any other field that must be present. -/
theorem loadParts_loadEntries (entries : Entries) :
    loadParts entries (loadEntries entries) =
      entries.required partsField fun d => (loadList d).andThen nonemptyList := by
  rw [loadParts, Entries.required, Entries.required, FieldName.locate?_of_no_alias rfl,
    loadEntries_eq_map, Entries.find?_map_read]
  cases entries.find? partsField.name <;> rfl

theorem loadItems_saveParts_cons {first : ValueRule} {others : List ValueRule} {position : Nat}
    (hfirst : load (first.save style) = .ok first)
    (hothers : loadItems (position + 1) (saveParts style others) = .ok others) :
    loadItems position (saveParts style (first :: others)) = .ok (first :: others) := by
  rw [saveParts, loadItems, hfirst, hothers]
  rfl

/-- A composed rule finds its parts again if they are read back. -/
theorem loadParts_eq_ok {fields : List FieldName} (h : Writing style fields ws)
    {first : ValueRule} {others : List ValueRule}
    (hread : loadItems 0 (saveParts style (first :: others)) = .ok (first :: others))
    (hw : { field := partsField, value := .list (saveParts style (first :: others)) } ∈ ws) :
    loadParts (style.entries ws) (loadEntries (style.entries ws)) = .ok (first, others) := by
  rw [loadParts_loadEntries]
  refine h.required_eq_ok _ rfl ?_ hw
  rw [loadList, hread]
  rfl

/-! ## Kinds -/

/-- A rule written in full is read back if its fields are, by the reader of its kind. -/
theorem load_record_full (tag : Tag) {rule : ValueRule} (hfields : ws.map (·.field) = fields tag)
    (htag : writtenTag tag ∈ ws)
    (hread : Writing .full (fields tag) ws →
      (Style.full.entries ws).tagged tag.word = .ok () →
      ofRecord tag (loadEntries (Style.full.entries ws)) (Style.full.entries ws) = .ok rule) :
    load (Style.full.record ws) = .ok rule := by
  have h : Writing .full (fields tag) ws := ⟨by decide, hfields, fields_apart tag⟩
  have hload : load (Style.full.record ws) =
      (ofRecord tag (loadEntries (Style.full.entries ws)) (Style.full.entries ws)).under
        (.key tag.word) :=
    h.byTag_full tag htag fun tag => ofRecord tag (loadEntries (Style.full.entries ws))
  rw [hload, hread h (h.tagged_eq_ok tag htag), Checked.under_ok]

theorem loadBounds_eq_ok {tag : Tag} (bounds : Bounds) (h : Writing .full (fields tag) ws)
    (htag : (Style.full.entries ws).tagged tag.word = .ok ())
    (hmin : writtenBound minField bounds.min ∈ ws) (hmax : writtenBound maxField bounds.max ∈ ws) :
    loadBounds tag (Style.full.entries ws) = .ok bounds := by
  rw [loadBounds, h.entries_asRecord_eq,
    h.nullable_eq_ok bounds.min .float (fun _ _ => rfl) (fun _ _ => rfl) hmin,
    h.nullable_eq_ok bounds.max .float (fun _ _ => rfl) (fun _ _ => rfl) hmax, htag]
  simp only [Checked.map_ok, Checked.ok_seq_ok, Checked.ok_andThen, make_bounds]
  rfl

/-! ## Rules -/

mutual

/-- A rule written in full is read back. -/
theorem load_save_full : ∀ rule : ValueRule, load (rule.save .full) = .ok rule
  | range bounds => load_record_full .range rfl (by simp) fun h htag => by
    rw [ofRecord, loadBounds_eq_ok bounds h htag (by simp) (by simp)]
    rfl
  | length bounds => load_record_full .length rfl (by simp) fun h htag => by
    rw [ofRecord, loadBounds_eq_ok bounds h htag (by simp) (by simp)]
    rfl
  | pattern regex hregex message => load_record_full .pattern rfl (by simp) fun h htag => by
    rw [ofRecord, h.entries_asRecord_eq, htag, h.name_eq_ok regex hregex (by simp),
      h.text?_eq_ok message (by simp)]
    rfl
  | oneOf first others => load_record_full .enum rfl (by simp) fun h htag => by
    have hvalues : (Loading.texts (.ofTexts (first :: others))).andThen nonemptyList =
        .ok (first, others) := by
      rw [Loading.texts_ofTexts]
      rfl
    rw [ofRecord, h.entries_asRecord_eq, htag, h.required_eq_ok _ rfl hvalues (by simp)]
    rfl
  | email => load_record_full .email rfl (by simp) fun h htag => by
    rw [ofRecord, h.entries_asRecord_eq, htag]
    rfl
  | url => load_record_full .url rfl (by simp) fun h htag => by
    rw [ofRecord, h.entries_asRecord_eq, htag]
    rfl
  | letters spaces => load_record_full .alpha rfl (by simp) fun h htag => by
    rw [ofRecord, h.entries_asRecord_eq, htag, h.flag_eq_ok spaces (by simp [writtenFlag])]
    rfl
  | alphanumeric spaces underscores => load_record_full .alphanumeric rfl (by simp) fun h htag => by
    rw [ofRecord, h.entries_asRecord_eq, htag, h.flag_eq_ok spaces (by simp [writtenFlag]),
      h.flag_eq_ok underscores (by simp [writtenFlag])]
    rfl
  -- the parts of a rule are read back one by one, with their positions
  | all first others => load_record_full .all rfl (by simp) fun h htag => by
    have hparts := loadItems_saveParts_cons (load_save_full first) (loadItems_saveParts others 1)
    rw [ofRecord, h.entries_asRecord_eq, htag, loadParts_eq_ok h hparts (by simp [saveParts])]
    rfl
  | any first others => load_record_full .any rfl (by simp) fun h htag => by
    have hparts := loadItems_saveParts_cons (load_save_full first) (loadItems_saveParts others 1)
    rw [ofRecord, h.entries_asRecord_eq, htag, loadParts_eq_ok h hparts (by simp [saveParts])]
    rfl

/-- Rules written in full are read back. -/
theorem loadItems_saveParts : ∀ (rules : List ValueRule) (position : Nat),
    loadItems position (saveParts .full rules) = .ok rules
  | [], _ => rfl
  | rule :: rules, position =>
    loadItems_saveParts_cons (load_save_full rule) (loadItems_saveParts rules (position + 1))

end

/-! ## Rules without their tag -/

/-- A rule is written as the fields of its kind, its tag among them. -/
theorem exists_save_eq (style : Style) (rule : ValueRule) :
    ∃ ws, rule.save style = style.record ws ∧ ws.map (·.field) = fields rule.tag ∧
      writtenTag rule.tag ∈ ws := by
  cases rule <;> exact ⟨_, rfl, rfl, by simp [tag]⟩

/-- Without its tag a rule is not read. -/
theorem load_save_brief (rule : ValueRule) : load (rule.save .brief) = .fault .tagMissing := by
  obtain ⟨ws, hsave, hfields, htag⟩ := exists_save_eq .brief rule
  have h : Writing .brief (fields rule.tag) ws := ⟨by decide, hfields, fields_apart rule.tag⟩
  rw [hsave]
  exact h.byTag_brief rule.tag htag (variant? (loadEntries (Style.brief.entries ws)))

end PgSchema.ValueRule
