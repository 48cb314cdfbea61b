/-
# Records that are read as they were written

A record written under the labels of its fields is looked up field by field: a field that was
written is found under its label, a field that was left out is not found, and no key is unknown.

* `Writing` : fields on their way into a record, none of them under a key of another;
* `Writing.required_eq_ok`, `Writing.optional_eq_ok`, `Writing.nullable_eq_ok` : when a field is
  read back;
* `Writing.asRecord_eq` : a written record is read by its fields alone.
-/
import Mathlib.Data.List.Pairwise
import PgSchema.Loading.Record

namespace PgSchema

variable {α : Type} {style : Style} {ws : List Written} {w : Written}

/-! ## Results -/

namespace Checked

theorem under_eq_ok_iff {place : Place} {a : Checked α} {x : α} :
    a.under place = .ok x ↔ a = .ok x := by
  cases a <;> simp [under]

theorem map_eq_ok_iff {β : Type} {f : α → β} {a : Checked α} {b : β} :
    f <$> a = .ok b ↔ ∃ x, a = .ok x ∧ f x = b := by
  cases a <;> simp [Functor.map, map]

theorem ofRule_eq_ok_iff {x : Except BrokenRule α} {a : α} : ofRule x = .ok a ↔ x = .ok a := by
  cases x <;> simp [ofRule, broken, fault]

end Checked

/-! ## Fields apart -/

/-- Holds for fields of which neither is found under the label of the other. -/
def FieldName.Apart (f g : FieldName) : Prop := f.label ∉ g.keys ∧ g.label ∉ f.keys

instance : DecidableRel FieldName.Apart := fun f g =>
  inferInstanceAs (Decidable (f.label ∉ g.keys ∧ g.label ∉ f.keys))

/-- A field is found under its label first. -/
theorem FieldName.mem_keys_label (field : FieldName) : field.label ∈ field.keys := by
  cases h : field.alias? <;> simp [label, keys, h]

/-- A field without an alias is found under its name alone. -/
theorem FieldName.locate?_of_no_alias {field : FieldName} (h : field.alias? = none)
    (entries : Entries) :
    field.locate? entries = (entries.find? field.name).map fun value => (field.name, value) := by
  simp [locate?, keys, h]

/-- Fields on their way into a record that the style writes under their labels, none of them found
under the label of another. -/
structure Writing (style : Style) (fields : List FieldName) (ws : List Written) : Prop where
  labelled : style ≠ .internal
  fields_eq : ws.map (·.field) = fields
  apart : fields.Pairwise FieldName.Apart

/-! ## Entries -/

theorem Entries.find?_eq_none_iff {entries : Entries} {key : String} :
    entries.find? key = none ↔ ∀ entry ∈ entries, entry.1 ≠ key := by
  simp [Entries.find?]

theorem Entries.mem_of_find? {entries : Entries} {key : String} {d : Document}
    (h : entries.find? key = some d) : (key, d) ∈ entries := by
  obtain ⟨⟨key', d'⟩, hfind, rfl⟩ := Option.map_eq_some_iff.1 h
  have hkey : key' = key := by simpa using List.find?_some hfind
  exact hkey ▸ List.mem_of_find?_eq_some hfind

/-- What stands under a key is smaller than the entries. -/
theorem Entries.sizeOf_lt_of_find? {entries : Entries} {key : String} {d : Document}
    (h : entries.find? key = some d) : sizeOf d < sizeOf entries := by
  have hmem := List.sizeOf_lt_of_mem (Entries.mem_of_find? h)
  simp only [Prod.mk.sizeOf_spec] at hmem
  omega

/-- Entries read one by one are found under their keys. -/
theorem Entries.find?_map_read (read : Document → α) (entries : Entries) (key : String) :
    List.find? (fun reading => reading.1 == key)
        (entries.map fun entry => (entry.1, read entry.2)) =
      (entries.find? key).map fun value => (key, read value) := by
  induction entries with
  | nil => rfl
  | cons entry entries ih =>
    by_cases hkey : entry.1 = key
    · simp [Entries.find?, hkey]
    · simpa [Entries.find?, hkey] using ih

theorem Style.mem_entries_iff (h : style ≠ .internal) {key : String} {value : Document} :
    (key, value) ∈ style.entries ws ↔
      ∃ w ∈ ws, style.keeps w = true ∧ w.field.label = key ∧ w.value = value := by
  have hkey : ∀ field : FieldName, style.key field = field.label := by
    intro field
    cases style with
    | internal => exact absurd rfl h
    | full => rfl
    | brief => rfl
  simp [Style.entries, hkey, and_assoc]

theorem Document.ofText?_eq (s? : Option String) :
    Document.ofText? s? = (s?.map .text).getD .null := by
  cases s? <;> rfl

namespace Writing

variable {fields : List FieldName}

/-- Of two written fields one is found under the label of the other only if they are the same. -/
theorem eq_of_label_mem_keys (h : Writing style fields ws) {w' : Written} (hw : w ∈ ws)
    (hw' : w' ∈ ws) (hmem : w'.field.label ∈ w.field.keys) : w' = w := by
  have hapart := h.apart
  rw [← h.fields_eq, List.pairwise_map] at hapart
  have : Std.Symm fun a b : Written => FieldName.Apart a.field b.field :=
    ⟨fun _ _ hab => ⟨hab.2, hab.1⟩⟩
  by_contra hne
  exact (hapart.forall hw' hw hne).1 hmem

/-- What was written under a label is found under it. -/
theorem find?_label (h : Writing style fields ws) (hw : w ∈ ws) (hkeeps : style.keeps w = true) :
    (style.entries ws).find? w.field.label = some w.value := by
  cases hfound : (style.entries ws).find? w.field.label with
  | none =>
    have hmem := (Style.mem_entries_iff h.labelled).2 ⟨w, hw, hkeeps, rfl, rfl⟩
    exact absurd rfl (Entries.find?_eq_none_iff.1 hfound _ hmem)
  | some value =>
    obtain ⟨entry, hentry, rfl⟩ := Option.map_eq_some_iff.1 hfound
    obtain ⟨w', hw', -, hlabel, hvalue⟩ :=
      (Style.mem_entries_iff h.labelled).1 (List.mem_of_find?_eq_some hentry)
    have hkey : entry.1 = w.field.label := by simpa using List.find?_some hentry
    have hkeys := w.field.mem_keys_label
    rw [← hkey, ← hlabel] at hkeys
    rw [← hvalue, h.eq_of_label_mem_keys hw hw' hkeys]

/-- What was left out is found under none of its keys. -/
theorem find?_key_eq_none (h : Writing style fields ws) (hw : w ∈ ws)
    (hkeeps : style.keeps w = false) {key : String} (hkey : key ∈ w.field.keys) :
    (style.entries ws).find? key = none := by
  rw [Entries.find?_eq_none_iff]
  rintro ⟨label, value⟩ hentry rfl
  obtain ⟨w', hw', hkeeps', rfl, -⟩ := (Style.mem_entries_iff h.labelled).1 hentry
  rw [h.eq_of_label_mem_keys hw hw' hkey, hkeeps] at hkeeps'
  simp at hkeeps'

/-- A field that was written is found under its label. -/
theorem locate?_of_keeps (h : Writing style fields ws) (hw : w ∈ ws)
    (hkeeps : style.keeps w = true) :
    w.field.locate? (style.entries ws) = some (w.field.label, w.value) := by
  have hfind := h.find?_label hw hkeeps
  cases halias : w.field.alias? with
  | none =>
    have hlabel : w.field.label = w.field.name := by simp [FieldName.label, halias]
    rw [hlabel] at hfind ⊢
    simp [FieldName.locate?, FieldName.keys, halias, hfind]
  | some a =>
    have hlabel : w.field.label = a := by simp [FieldName.label, halias]
    rw [hlabel] at hfind ⊢
    simp [FieldName.locate?, FieldName.keys, halias, hfind]

/-- A field that was left out is not found. -/
theorem locate?_of_not_keeps (h : Writing style fields ws) (hw : w ∈ ws)
    (hkeeps : style.keeps w = false) : w.field.locate? (style.entries ws) = none := by
  rw [FieldName.locate?, List.findSome?_eq_none_iff]
  intro key hkey
  rw [h.find?_key_eq_none hw hkeeps hkey, Option.map_none]

/-- No key of the record is unknown. -/
theorem closed_eq (h : Writing style fields ws) :
    (style.entries ws).closed fields = .ok () := by
  have hunknown : (style.entries ws).unknownKeys fields = [] := by
    rw [Entries.unknownKeys, List.filter_eq_nil_iff]
    intro key hkey
    obtain ⟨⟨key', value⟩, hentry, rfl⟩ := List.mem_map.1 hkey
    obtain ⟨w, hw, hkeeps, rfl, -⟩ := (Style.mem_entries_iff h.labelled).1 hentry
    have hfield : w.field ∈ fields := h.fields_eq ▸ List.mem_map_of_mem hw
    have htaken : w.field.label ∈
        fields.filterMap fun field => (field.locate? (style.entries ws)).map (·.1) :=
      List.mem_filterMap.2 ⟨w.field, hfield, by rw [h.locate?_of_keeps hw hkeeps]; rfl⟩
    simpa using htaken
  rw [Entries.closed, hunknown]

/-! ## Reading the fields -/

theorem required_eq (h : Writing style fields ws) (hw : w ∈ ws) {read : Document → Checked α}
    (hkeeps : style.keeps w = true) :
    (style.entries ws).required w.field read = (read w.value).under (.key w.field.label) := by
  rw [Entries.required, h.locate?_of_keeps hw hkeeps]

theorem optional_eq (h : Writing style fields ws) (hw : w ∈ ws) {default : α}
    {read : Document → Checked α} :
    (style.entries ws).optional w.field default read =
      if style.keeps w then (read w.value).under (.key w.field.label) else .ok default := by
  split
  · next hkeeps => rw [Entries.optional, h.locate?_of_keeps hw hkeeps]
  · next hkeeps =>
    rw [Entries.optional, h.locate?_of_not_keeps hw (Bool.eq_false_iff.2 hkeeps)]

/-- What is written and has no default is kept. -/
theorem keeps_of_not_default (h : Writing style fields ws) (hnull : w.value.isNull = false)
    (hdefault : w.isDefault = false) : style.keeps w = true := by
  cases style with
  | internal => exact absurd rfl h.labelled
  | full => simp [Style.keeps, hnull]
  | brief => simp [Style.keeps, hnull, hdefault]

/-- Nothing that is absent is kept. -/
theorem not_keeps_of_null (h : Writing style fields ws) (hnull : w.value = .null) :
    style.keeps w = false := by
  cases style with
  | internal => exact absurd rfl h.labelled
  | full => simp [Style.keeps, hnull, Document.isNull]
  | brief => simp [Style.keeps, hnull, Document.isNull]

variable {a : α} {read : Document → Checked α}

theorem required_eq_ok (h : Writing style fields ws) {field : FieldName} {value : Document} (a : α)
    (hnull : value.isNull = false) (hread : read value = .ok a) (hw : { field, value } ∈ ws) :
    (style.entries ws).required field read = .ok a := by
  rw [h.required_eq hw (h.keeps_of_not_default hnull rfl), hread, Checked.under_ok]

/-- A field with a default is read back if it is left out only for its default. -/
theorem optional_eq_ok (h : Writing style fields ws) (hw : w ∈ ws) {default : α}
    (hnull : w.value.isNull = false) (hdefault : w.isDefault = true → a = default)
    (hread : read w.value = .ok a) :
    (style.entries ws).optional w.field default read = .ok a := by
  rw [h.optional_eq hw, hread, Checked.under_ok]
  split
  · rfl
  · next hkeeps =>
    cases hw : w.isDefault with
    | true => rw [hdefault hw]
    | false => exact absurd (h.keeps_of_not_default hnull hw) hkeeps

/-- A field that may be absent is read back if it is left out only when it is absent. -/
theorem nullable_eq_ok (h : Writing style fields ws) {field : FieldName} (a? : Option α)
    (write : α → Document) (hnull : ∀ a ∈ a?, (write a).isNull = false)
    (hread : ∀ a ∈ a?, read (write a) = .ok a)
    (hw : { field, value := (a?.map write).getD .null, isDefault := a?.isNone } ∈ ws) :
    (style.entries ws).nullable field read = .ok a? := by
  rw [Entries.nullable, h.optional_eq hw]
  cases a? with
  | none => rw [h.not_keeps_of_null rfl, if_neg Bool.false_ne_true]
  | some a =>
    rw [if_pos (h.keeps_of_not_default (hnull a rfl) rfl)]
    have horNull : Loading.orNull read (write a) = some <$> read (write a) := by
      have hwrite := hnull a rfl
      cases hdoc : write a <;> simp_all [Loading.orNull, Document.isNull]
    change (Loading.orNull read (write a)).under _ = _
    rw [horNull, hread a rfl]
    rfl

/-- What was kept was read, if the field was. -/
theorem read_eq_ok_of_optional (h : Writing style fields ws) (hw : w ∈ ws)
    (hkeeps : style.keeps w = true) {default : α}
    (hoptional : (style.entries ws).optional w.field default read = .ok a) :
    read w.value = .ok a := by
  rw [h.optional_eq hw, if_pos hkeeps] at hoptional
  exact Checked.under_eq_ok_iff.1 hoptional

/-! ## Kinds of fields -/

theorem name_eq_ok (h : Writing style fields ws) {field : FieldName} (s : String) (hs : s ≠ "")
    (hw : { field, value := .text s } ∈ ws) :
    (style.entries ws).required field Loading.nonemptyText = .ok ⟨s, hs⟩ :=
  h.required_eq_ok _ rfl (by simp [Loading.nonemptyText, Loading.text, hs]) hw

theorem text_eq_ok (h : Writing style fields ws) {field : FieldName} {default : String} (s : String)
    (hw : { field, value := .text s, isDefault := s == default } ∈ ws) :
    (style.entries ws).optional field default Loading.text = .ok s :=
  h.optional_eq_ok hw rfl (by simp) rfl

theorem text?_eq_ok (h : Writing style fields ws) {field : FieldName} (s? : Option String)
    (hw : { field, value := .ofText? s?, isDefault := s?.isNone } ∈ ws) :
    (style.entries ws).nullable field Loading.text = .ok s? :=
  h.nullable_eq_ok s? .text (fun _ _ => rfl) (fun _ _ => rfl) (Document.ofText?_eq s? ▸ hw)

theorem flag_eq_ok (h : Writing style fields ws) {field : FieldName} {default : Bool} (b : Bool)
    (hw : { field, value := .flag b, isDefault := b == default } ∈ ws) :
    (style.entries ws).optional field default Loading.flag = .ok b :=
  h.optional_eq_ok hw rfl (by simp) rfl

/-- A value with a word is read back if its word is. -/
theorem word_eq_ok (h : Writing style fields ws) {field : FieldName} [Vocabulary α]
    [DecidableEq α] {default : α} (a : α) (hread : read (.ofWord a) = .ok a)
    (hw : { field, value := .ofWord a, isDefault := a == default } ∈ ws) :
    (style.entries ws).optional field default read = .ok a :=
  h.optional_eq_ok hw rfl (by simp) hread

/-- A list is left out when it is empty. -/
theorem list_eq_ok (h : Writing style fields ws) {field : FieldName} {value : Document}
    {read : Document → Checked (List α)} (as : List α) (hnull : value.isNull = false)
    (hread : read value = .ok as) (hw : { field, value, isDefault := as.isEmpty } ∈ ws) :
    (style.entries ws).optional field [] read = .ok as :=
  h.optional_eq_ok hw hnull (by simp) hread

/-! ## Tags -/

section Tags

variable {β : Type} [Vocabulary β]

theorem tagged_eq_ok (h : Writing style fields ws) (tag : β)
    (hw : { field := tagKey, value := .ofWord tag, isDefault := true } ∈ ws) :
    (style.entries ws).tagged (Vocabulary.word tag) = .ok () :=
  h.optional_eq_ok hw rfl (fun _ => rfl) (by simp [Document.ofWord])

/-- A tag that was written selects the reader of its word. -/
theorem byTag_full [LawfulVocabulary β] (h : Writing .full fields ws) (tag : β)
    (hw : { field := tagKey, value := .ofWord tag, isDefault := true } ∈ ws)
    (read : β → Entries → Checked α) :
    (Style.full.record ws).byTag (fun word => (Vocabulary.ofWord? word).map read) =
      (read tag (Style.full.entries ws)).under (.key (Vocabulary.word tag)) := by
  have hfind : (Style.full.entries ws).find? tagKey.name = some (.text (Vocabulary.word tag)) :=
    h.find?_label hw rfl
  rw [Style.record, Document.byTag, hfind]
  simp only [LawfulVocabulary.ofWord?_word, Option.map_some]

/-- A tag that was left out selects no reader. -/
theorem byTag_brief (h : Writing .brief fields ws) (tag : β)
    (hw : { field := tagKey, value := .ofWord tag, isDefault := true } ∈ ws)
    (variant? : String → Option (Entries → Checked α)) :
    (Style.brief.record ws).byTag variant? = .fault .tagMissing := by
  have hfind : (Style.brief.entries ws).find? tagKey.name = none :=
    h.find?_key_eq_none hw (by simp [Style.keeps]) tagKey.mem_keys_label
  rw [Style.record, Document.byTag, hfind]

end Tags

/-! ## Reading the record -/

/-- Written entries are read by their fields alone. -/
theorem entries_asRecord_eq (h : Writing style fields ws) (body : Entries → Checked α) :
    (style.entries ws).asRecord fields body = body (style.entries ws) := by
  rw [Entries.asRecord, h.closed_eq]
  cases body (style.entries ws) <;> rfl

/-- A written record is read by its fields alone. -/
theorem asRecord_eq (h : Writing style fields ws) (body : Entries → Checked α) :
    (style.record ws).asRecord fields body = body (style.entries ws) :=
  h.entries_asRecord_eq body

end Writing

/-! ## Texts and lists -/

theorem Loading.text_text (s : String) : Loading.text (.text s) = .ok s := rfl

theorem Loading.list_map_eq_ok {read : Document → Checked α} {write : α → Document} {as : List α}
    (h : ∀ a ∈ as, read (write a) = .ok a) :
    Loading.list read (.list (as.map write)) = .ok as :=
  Loading.itemsFrom_map h 0

/-- Every item of a list that is read is read on its own. -/
theorem Loading.exists_read_of_itemsFrom {read : Document → Checked α} {items : List Document}
    {position : Nat} {as : List α} (h : Loading.itemsFrom read position items = .ok as) :
    ∀ d ∈ items, ∃ a, read d = .ok a := by
  induction items generalizing position as with
  | nil => simp
  | cons d ds ih =>
    obtain ⟨_, _, hfirst, hothers, -⟩ := Checked.seq_eq_ok_iff.1 h
    obtain ⟨a, hread, -⟩ := Checked.map_eq_ok_iff.1 hfirst
    rw [List.forall_mem_cons]
    exact ⟨⟨a, Checked.under_eq_ok_iff.1 hread⟩, ih hothers⟩

theorem Loading.texts_ofTexts (items : List String) :
    Loading.texts (.ofTexts items) = .ok items :=
  Loading.list_map_eq_ok fun _ _ => rfl

theorem Loading.oneOrMoreTexts_ofTexts (items : List String) :
    Loading.oneOrMoreTexts (.ofTexts items) = .ok items :=
  Loading.texts_ofTexts items

end PgSchema
