/-
# Value rules change field by field

A rule is changed as a rule of its kind: its tag stays, and its other fields become what the changes
say.  The parts of a composed rule are one field, replaced as a whole.

* `ValueRule.evolve_eq_ok_iff` : what a rule becomes;
* `ValueRule.load_save_internal` : a rule is read back as it was written under the names of its
  fields.
-/
import PgSchema.Proofs.Loading.Change
import PgSchema.Proofs.ValueRule.Saved

namespace PgSchema

variable {changes : Entries}

/-- What changes make of bounds. -/
structure Bounds.Becomes (bounds : Bounds) (changes : Entries) (bounds' : Bounds) : Prop where
  min : ValueRule.minField.Becomes changes (Loading.orNull Loading.float) bounds.min bounds'.min
  max : ValueRule.maxField.Becomes changes (Loading.orNull Loading.float) bounds.max bounds'.max

namespace ValueRule

/-- What changes make of a rule, its tag apart. -/
def Becomes (changes : Entries) : ValueRule → ValueRule → Prop
  | range bounds, range bounds' => bounds.Becomes changes bounds'
  | length bounds, length bounds' => bounds.Becomes changes bounds'
  | pattern regex nonempty message, pattern regex' nonempty' message' =>
    patternField.Becomes changes Loading.nonemptyText ⟨regex, nonempty⟩ ⟨regex', nonempty'⟩ ∧
      messageField.Becomes changes (Loading.orNull Loading.text) message message'
  | oneOf first others, oneOf first' others' =>
    valuesField.Becomes changes (fun d => (Loading.texts d).andThen nonemptyList)
      (first, others) (first', others')
  | email, email => True
  | url, url => True
  | letters spaces, letters spaces' => spacesField.Becomes changes Loading.flag spaces spaces'
  | alphanumeric spaces underscores, alphanumeric spaces' underscores' =>
    spacesField.Becomes changes Loading.flag spaces spaces' ∧
      underscoresField.Becomes changes Loading.flag underscores underscores'
  | all first others, all first' others' =>
    partsField.Becomes changes (fun d => (loadList d).andThen nonemptyList)
      (first, others) (first', others')
  | any first others, any first' others' =>
    partsField.Becomes changes (fun d => (loadList d).andThen nonemptyList)
      (first, others) (first', others')
  | _, _ => False

/-- The parts of a composed rule. -/
def parts : ValueRule → List ValueRule
  | all first others => first :: others
  | any first others => first :: others
  | _ => []

theorem fields_named (tag : Tag) : FieldName.Named (fields tag) := by
  cases tag <;> decide

theorem tagged_iff {entries : Entries} {tag : Tag} (h : Reading entries changes (writtenTag tag))
    {u : Unit} : entries.tagged tag.word = .ok u ↔ changes.KeepTag tag.word :=
  h.tagged_iff

/-! ## Bounds -/

theorem orNull_float (bound : Option Float) :
    Loading.orNull Loading.float ((bound.map Document.float).getD .null) = .ok bound :=
  Loading.orNull_written bound _ (fun _ _ => rfl) fun _ _ => rfl

/-- The bounds that are made of two have them. -/
theorem ofRule_make_eq_ok_iff {min max : Option Float} {bounds : Bounds} :
    Checked.ofRule (Bounds.make min max) = .ok bounds ↔ min = bounds.min ∧ max = bounds.max := by
  rw [Checked.ofRule_eq_ok_iff]
  constructor
  · intro h
    unfold Bounds.make at h
    split at h
    · cases h
    · obtain rfl := Except.ok.inj h
      exact ⟨rfl, rfl⟩
    · obtain rfl := Except.ok.inj h
      exact ⟨rfl, rfl⟩
    · split at h
      · obtain rfl := Except.ok.inj h
        exact ⟨rfl, rfl⟩
      · cases h
  · rintro ⟨rfl, rfl⟩
    exact make_bounds bounds

theorem loadBounds_changed_eq_ok_iff {tag : Tag}
    (hfields : [minField, maxField, tagKey] = fields tag) {bounds bounds' : Bounds} :
    loadBounds tag (changedEntries
        [writtenBound minField bounds.min, writtenBound maxField bounds.max, writtenTag tag]
        changes) = .ok bounds' ↔
      changes.Name (fields tag) ∧ changes.KeepTag tag.word ∧ bounds.Becomes changes bounds' := by
  have hpair : ∀ pair : Option Float × Option Float,
      Checked.ofRule (Bounds.make pair.1 pair.2) = .ok bounds' ↔
        pair = (bounds'.min, bounds'.max) :=
    fun pair => by rw [ofRule_make_eq_ok_iff, Prod.ext_iff]
  rw [loadBounds, Checked.andThen_eq_ok_iff]
  simp only [hpair, exists_eq_right]
  refine entries_asRecord_changed_eq_ok_iff (by exact hfields) (fields_named tag)
    fun entries _ h => ?_
  simp only [List.forall_mem_cons, writtenBound] at h
  obtain ⟨hmin, hmax, htag, -⟩ := h
  rw [Checked.eq_ok_iff_yields]
  simp only [Checked.seq_yields_iff, Checked.map_yields_iff]
  simp only [Checked.Yields, Entries.nullable, hmin.optional_iff (orNull_float _),
    hmax.optional_iff (orNull_float _), tagged_iff htag, Prod.mk.injEq]
  constructor
  · rintro ⟨_, hmin, _, hmax, _, htag, rfl, rfl⟩
    exact ⟨htag, hmin, hmax⟩
  · rintro ⟨htag, hb⟩
    exact ⟨_, hb.min, _, hb.max, (), htag, rfl, rfl⟩

/-! ## Rules -/

/-- The listed texts of a rule become what the changes say. -/
theorem required_values_iff {entries : Entries} {first : String} {others : List String}
    (h : Reading entries changes { field := valuesField, value := .ofTexts (first :: others) })
    {values : String × List String} :
    (entries.required valuesField fun d => (Loading.texts d).andThen nonemptyList) = .ok values ↔
      valuesField.Becomes changes (fun d => (Loading.texts d).andThen nonemptyList)
        (first, others) values := by
  refine h.required_iff ?_
  rw [Loading.texts_ofTexts]
  rfl

/-- The parts of a composed rule become what the changes say. -/
theorem required_parts_iff {entries : Entries} {first : ValueRule} {others : List ValueRule}
    (h : Reading entries changes
      { field := partsField, value := .list (saveParts .internal (first :: others)) })
    (hread : loadItems 0 (saveParts .internal (first :: others)) = .ok (first :: others))
    {parts : ValueRule × List ValueRule} :
    (entries.required partsField fun d => (loadList d).andThen nonemptyList) = .ok parts ↔
      partsField.Becomes changes (fun d => (loadList d).andThen nonemptyList)
        (first, others) parts := by
  refine h.required_iff ?_
  rw [loadList, hread]
  rfl

/-- A rule of a kind is read from changed entries if its parts are read back. -/
theorem loadAs_changed_eq_ok_iff {rule rule' : ValueRule}
    (hread : loadItems 0 (saveParts .internal rule.parts) = .ok rule.parts) :
    loadAs rule.tag ((rule.save .internal).changed changes) = .ok rule' ↔
      changes.Name (fields rule.tag) ∧ changes.KeepTag rule.tag.word ∧
        Becomes changes rule rule' := by
  have hload (ws : List Written) : loadAs rule.tag ((Style.internal.record ws).changed changes) =
      ofRecord rule.tag (loadEntries (changedEntries ws changes)) (changedEntries ws changes) := rfl
  cases rule with
  | range bounds =>
    have hbounds := @loadBounds_changed_eq_ok_iff changes .range rfl bounds
    rw [save, hload, tag, ofRecord, Checked.map_eq_ok_iff]
    simp only [hbounds]
    cases rule' <;> simp [Becomes]
  | length bounds =>
    have hbounds := @loadBounds_changed_eq_ok_iff changes .length rfl bounds
    rw [save, hload, tag, ofRecord, Checked.map_eq_ok_iff]
    simp only [hbounds]
    cases rule' <;> simp [Becomes]
  | pattern regex nonempty message =>
    rw [save, hload, tag, ofRecord]
    refine entries_asRecord_changed_eq_ok_iff (by rfl) (fields_named .pattern) fun entries _ h => ?_
    simp only [List.forall_mem_cons] at h
    obtain ⟨htag, hregex, hmessage, -⟩ := h
    rw [Checked.eq_ok_iff_yields]
    simp only [Checked.seq_yields_iff, Checked.map_yields_iff]
    simp only [Checked.Yields, Entries.nullable, tagged_iff htag,
      hregex.required_iff (Loading.nonemptyText_text nonempty),
      hmessage.optional_iff (Loading.orNull_ofText? _)]
    cases rule' with
    | pattern regex' nonempty' message' =>
      constructor
      · rintro ⟨_, htag, _, hregex, _, hmessage, hrule⟩
        obtain ⟨rfl, rfl⟩ := ValueRule.pattern.inj hrule
        exact ⟨htag, hregex, hmessage⟩
      · rintro ⟨htag, hregex, hmessage⟩
        exact ⟨(), htag, _, hregex, _, hmessage, rfl⟩
    | _ => simp [Becomes]
  | oneOf first others =>
    rw [save, hload, tag, ofRecord]
    refine entries_asRecord_changed_eq_ok_iff (by rfl) (fields_named .enum) fun entries _ h => ?_
    simp only [List.forall_mem_cons] at h
    obtain ⟨htag, hvalues, -⟩ := h
    rw [Checked.eq_ok_iff_yields]
    simp only [Checked.seq_yields_iff, Checked.map_yields_iff]
    simp only [Checked.Yields, tagged_iff htag, required_values_iff hvalues]
    cases rule' <;> simp [Becomes]
  | email | url =>
    rw [save, hload, tag, ofRecord]
    refine entries_asRecord_changed_eq_ok_iff (by rfl) (fields_named _) fun entries _ h => ?_
    simp only [List.forall_mem_cons] at h
    simp only [Checked.map_eq_ok_iff, tagged_iff h.1]
    cases rule' <;> simp [Becomes]
  | letters spaces =>
    rw [save, hload, tag, ofRecord]
    refine entries_asRecord_changed_eq_ok_iff (by rfl) (fields_named .alpha) fun entries _ h => ?_
    simp only [List.forall_mem_cons, writtenFlag] at h
    obtain ⟨htag, hspaces, -⟩ := h
    rw [Checked.eq_ok_iff_yields]
    simp only [Checked.seq_yields_iff, Checked.map_yields_iff]
    simp only [Checked.Yields, tagged_iff htag, hspaces.optional_iff (Loading.flag_flag _)]
    cases rule' <;> simp [Becomes]
  | alphanumeric spaces underscores =>
    rw [save, hload, tag, ofRecord]
    refine entries_asRecord_changed_eq_ok_iff (by rfl) (fields_named .alphanumeric)
      fun entries _ h => ?_
    simp only [List.forall_mem_cons, writtenFlag] at h
    obtain ⟨htag, hspaces, hunderscores, -⟩ := h
    rw [Checked.eq_ok_iff_yields]
    simp only [Checked.seq_yields_iff, Checked.map_yields_iff]
    simp only [Checked.Yields, tagged_iff htag, hspaces.optional_iff (Loading.flag_flag _),
      hunderscores.optional_iff (Loading.flag_flag _)]
    cases rule' <;> simp [Becomes]
  | all first others | any first others =>
    rw [save, hload, tag, ofRecord]
    refine entries_asRecord_changed_eq_ok_iff (by rfl) (fields_named _) fun entries hentries h => ?_
    simp only [List.forall_mem_cons] at h
    obtain ⟨htag, hparts, -⟩ := h
    rw [← hentries, loadParts_loadEntries, Checked.eq_ok_iff_yields]
    simp only [Checked.seq_yields_iff, Checked.map_yields_iff]
    simp only [Checked.Yields, tagged_iff htag, required_parts_iff hparts hread]
    cases rule' <;> simp [Becomes]

/-- Without changes a rule is what it was. -/
theorem becomes_nil (rule : ValueRule) : Becomes [] rule rule := by
  cases rule with
  | range | length => exact ⟨rfl, rfl⟩
  | pattern | alphanumeric => exact ⟨rfl, rfl⟩
  | oneOf | letters | all | any => rfl
  | email | url => trivial

/-- A rule is read from its record by its kind if its parts are read back. -/
theorem load_save_of_parts {rule : ValueRule}
    (hread : loadItems 0 (saveParts .internal rule.parts) = .ok rule.parts) :
    load (rule.save .internal) = .ok rule := by
  have hsame : loadAs rule.tag ((rule.save .internal).changed []) = .ok rule :=
    (loadAs_changed_eq_ok_iff hread).2
      ⟨Entries.name_nil _, Entries.keepTag_nil _, becomes_nil rule⟩
  obtain ⟨ws, hsave, hfields, htag⟩ := exists_save_eq .internal rule
  rw [hsave] at hsame ⊢
  have hload : load (Style.internal.record ws) =
      (ofRecord rule.tag (loadEntries (Style.internal.entries ws))
        (Style.internal.entries ws)).under (.key rule.tag.word) :=
    byTag_internal hfields (fields_named rule.tag) rule.tag htag fun tag =>
      ofRecord tag (loadEntries (Style.internal.entries ws))
  rw [hload, Checked.under_eq_ok_iff]
  exact hsame

mutual

/-- A rule is read back as it was written under the names of its fields. -/
theorem load_save_internal : ∀ rule : ValueRule, load (rule.save .internal) = .ok rule
  | range _ | length _ | pattern .. | oneOf .. | email | url | letters _ | alphanumeric .. =>
    load_save_of_parts rfl
  | all first others =>
    load_save_of_parts
      (loadItems_saveParts_cons (load_save_internal first) (loadItems_saveParts_internal others 1))
  | any first others =>
    load_save_of_parts
      (loadItems_saveParts_cons (load_save_internal first) (loadItems_saveParts_internal others 1))

/-- Rules are read back as they were written under the names of their fields. -/
theorem loadItems_saveParts_internal : ∀ (rules : List ValueRule) (position : Nat),
    loadItems position (saveParts .internal rules) = .ok rules
  | [], _ => rfl
  | rule :: rules, position =>
    loadItems_saveParts_cons (load_save_internal rule)
      (loadItems_saveParts_internal rules (position + 1))

end

/-- A rule keeps its kind and becomes what its fields become. -/
theorem evolve_eq_ok_iff {rule rule' : ValueRule} :
    Definition.evolve rule changes = .ok rule' ↔
      changes.Name (fields rule.tag) ∧ changes.KeepTag rule.tag.word ∧
        Becomes changes rule rule' :=
  loadAs_changed_eq_ok_iff (loadItems_saveParts_internal rule.parts 0)

theorem evolve_nil (rule : ValueRule) : Definition.evolve rule [] = .ok rule :=
  evolve_eq_ok_iff.2 ⟨Entries.name_nil _, Entries.keepTag_nil _, becomes_nil rule⟩

end ValueRule
end PgSchema
