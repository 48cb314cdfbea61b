/-
# Records that are read with some fields changed

A value is changed by writing all its fields under their names, putting other values under some of
the names, and reading the record again.  A name that no field has is refused, even the alias of a
field; a field that was given a value is read from it, and every other field is read as it was.

* `FieldName.Becomes` : what changes make of a field;
* `Changing` : a record of fields with changes that name fields only;
* `Changing.reading` : what is read for a field;
* `asRecord_changed_eq_ok_iff` : when a changed record is read.
-/
import Mathlib.Data.List.Induction
import Mathlib.Data.List.Nodup
import PgSchema.Proofs.Loading.Record

namespace PgSchema

variable {α β : Type} {fields : List FieldName} {ws : List Written} {changes : Entries}

/-! ## Putting entries -/

namespace Entries

theorem find?_cons (entry : String × Document) (entries : Entries) (key : String) :
    Entries.find? (entry :: entries) key =
      if entry.1 = key then some entry.2 else Entries.find? entries key := by
  by_cases h : entry.1 = key
  · simp [Entries.find?, h]
  · simp [Entries.find?, h]

theorem find?_put (entries : Entries) (key : String) (value : Document) (other : String) :
    (entries.put key value).find? other =
      if key = other then some value else entries.find? other := by
  induction entries with
  | nil => rw [put, find?_cons]
  | cons entry entries ih =>
    rw [put]
    by_cases hentry : entry.1 = key
    · rw [if_pos (beq_iff_eq.2 hentry), find?_cons, find?_cons, hentry]
      split <;> rfl
    · rw [if_neg (by simpa using hentry), find?_cons, find?_cons, ih]
      by_cases hother : entry.1 = other
      · have hkey : key ≠ other := fun hkey => hentry (hother.trans hkey.symm)
        rw [if_pos hother, if_pos hother, if_neg hkey]
      · rw [if_neg hother, if_neg hother]

theorem isSome_find?_iff {entries : Entries} {key : String} :
    (entries.find? key).isSome = true ↔ key ∈ entries.map (·.1) := by
  simp [Entries.find?]

/-- The value that changes give a key in the end. -/
def given? (changes : Entries) (key : String) : Option Document := Entries.find? changes.reverse key

theorem isSome_given?_iff {key : String} :
    (changes.given? key).isSome = true ↔ key ∈ changes.map (·.1) := by
  rw [given?, isSome_find?_iff, List.map_reverse, List.mem_reverse]

/-- Where changes give nothing, the entries stay as they are. -/
theorem find?_putAll (entries changes : Entries) (key : String) :
    (entries.putAll changes).find? key = (changes.given? key).or (entries.find? key) := by
  induction changes using List.reverseRecOn with
  | nil => rfl
  | append_singleton changes change ih =>
    rw [putAll, List.foldl_append, List.foldl_cons, List.foldl_nil, find?_put, given?,
      List.reverse_append, List.reverse_singleton, List.singleton_append, find?_cons]
    split
    · rfl
    · exact ih

/-- The keys are the old ones and those of the changes. -/
theorem mem_map_putAll_iff {entries changes : Entries} {key : String} :
    key ∈ (entries.putAll changes).map (·.1) ↔
      key ∈ changes.map (·.1) ∨ key ∈ entries.map (·.1) := by
  rw [← isSome_find?_iff, find?_putAll, Option.isSome_or, Bool.or_eq_true, isSome_given?_iff,
    isSome_find?_iff]

/-- Holds for changes of which each names a field. -/
def Name (changes : Entries) (fields : List FieldName) : Prop :=
  ∀ key ∈ changes.map (·.1), key ∈ fields.map (·.name)

end Entries

/-! ## Fields -/

namespace FieldName

/-- Holds when changes make a field go from an old value to a new one: the new value is what the
changes say, as it is read, and if they say nothing it is the old one. -/
def Becomes (field : FieldName) (changes : Entries) (read : Document → Checked α) (old new : α) :
    Prop :=
  match changes.given? field.name with
  | some d => read d = .ok new
  | none => new = old

/-- A field for which changes give a value is read from it. -/
theorem becomes_of_given {field : FieldName} {read : Document → Checked α} {old new : α}
    {d : Document} (h : changes.given? field.name = some d) :
    field.Becomes changes read old new ↔ read d = .ok new := by
  rw [Becomes, h]

/-- A field for which changes give nothing is what it was. -/
theorem becomes_of_not_given {field : FieldName} {read : Document → Checked α} {old new : α}
    (h : changes.given? field.name = none) : field.Becomes changes read old new ↔ new = old := by
  rw [Becomes, h]

/-- Fields with different names, none of which is the alias of a field. -/
structure Named (fields : List FieldName) : Prop where
  nodup : (fields.map (·.name)).Nodup
  alias_notMem : ∀ field ∈ fields, ∀ key ∈ field.alias?, key ∉ fields.map (·.name)

instance (fields : List FieldName) : Decidable (Named fields) :=
  decidable_of_iff ((fields.map (·.name)).Nodup ∧
      ∀ field ∈ fields, ∀ key ∈ field.alias?, key ∉ fields.map (·.name))
    ⟨fun h => ⟨h.1, h.2⟩, fun h => ⟨h.1, h.2⟩⟩

/-- Fields of one name are one field. -/
theorem Named.eq_of_name (h : Named fields) {f g : FieldName} (hf : f ∈ fields) (hg : g ∈ fields)
    (hname : f.name = g.name) : f = g :=
  List.inj_on_of_nodup_map h.nodup hf hg hname

end FieldName

/-! ## Results -/

namespace Checked

/-- Holds for a value that has a property. -/
def Yields (a : Checked α) (p : α → Prop) : Prop := ∃ x, a = .ok x ∧ p x

theorem eq_ok_iff_yields {a : Checked α} {x : α} : a = .ok x ↔ a.Yields (· = x) := by
  simp [Yields]

theorem map_yields_iff {f : α → β} {a : Checked α} {p : β → Prop} :
    (f <$> a).Yields p ↔ a.Yields fun x => p (f x) := by
  simp only [Yields, map_eq_ok_iff]
  exact ⟨fun ⟨_, ⟨x, hx, rfl⟩, h⟩ => ⟨x, hx, h⟩, fun ⟨x, hx, h⟩ => ⟨_, ⟨x, hx, rfl⟩, h⟩⟩

/-- Of results read side by side the first ones are looked at first. -/
theorem seq_yields_iff {f : Checked (α → β)} {a : Checked α} {p : β → Prop} :
    (f <*> a).Yields p ↔ f.Yields fun g => a.Yields fun x => p (g x) := by
  simp only [Yields, seq_eq_ok_iff]
  constructor
  · rintro ⟨_, ⟨g, x, hg, hx, rfl⟩, h⟩
    exact ⟨g, hg, x, hx, h⟩
  · rintro ⟨g, hg, x, hx, h⟩
    exact ⟨_, ⟨g, x, hg, hx, rfl⟩, h⟩

end Checked

/-! ## Changed records -/

/-- The entries of a record whose fields are written under their names, with changes put in. -/
def changedEntries (ws : List Written) (changes : Entries) : Entries :=
  (Style.internal.entries ws).putAll changes

theorem internal_entries (ws : List Written) :
    Style.internal.entries ws = ws.map fun w => (w.field.name, w.value) := by
  have hkeeps : ws.filter Style.internal.keeps = ws := List.filter_eq_self.2 fun _ _ => rfl
  rw [Style.entries, hkeeps]
  rfl

theorem mem_map_changedEntries_iff {key : String} :
    key ∈ (changedEntries ws changes).map (·.1) ↔
      key ∈ changes.map (·.1) ∨ key ∈ (ws.map (·.field)).map (·.name) := by
  rw [changedEntries, Entries.mem_map_putAll_iff, internal_entries, List.map_map, List.map_map]
  rfl

/-- Fields on their way into a record, with changes that name fields only. -/
structure Changing (fields : List FieldName) (ws : List Written) (changes : Entries) : Prop where
  fields_eq : ws.map (·.field) = fields
  named : FieldName.Named fields
  changes_name : changes.Name fields

/-- A field is found under its name if no alias of it is a key. -/
theorem FieldName.locate?_of_alias {field : FieldName} {entries : Entries} {value : Document}
    (halias : ∀ key ∈ field.alias?, entries.find? key = none)
    (hname : entries.find? field.name = some value) :
    field.locate? entries = some (field.name, value) := by
  cases h : field.alias? with
  | none => simp [locate?, keys, h, hname]
  | some key => simp [locate?, keys, h, hname, halias key h]

/-- A field is found under one of its keys. -/
theorem FieldName.of_locate? {field : FieldName} {entries : Entries} {key : String}
    {value : Document} (h : field.locate? entries = some (key, value)) :
    key ∈ field.alias? ∨ key = field.name := by
  obtain ⟨key', hkey', hfind⟩ := List.exists_of_findSome?_eq_some h
  obtain ⟨_, -, hpair⟩ := Option.map_eq_some_iff.1 hfind
  obtain ⟨rfl, -⟩ := Prod.mk.inj hpair
  simpa [keys] using hkey'

namespace Changing

variable {w : Written}

/-- Changes put in nothing but the names of fields. -/
theorem mem_names (h : Changing fields ws changes) {key : String}
    (hkey : key ∈ (changedEntries ws changes).map (·.1)) : key ∈ fields.map (·.name) := by
  rw [mem_map_changedEntries_iff, h.fields_eq] at hkey
  exact hkey.elim (h.changes_name key) id

theorem find?_name (h : Changing fields ws changes) (hw : w ∈ ws) :
    (Style.internal.entries ws).find? w.field.name = some w.value := by
  have hkey : w.field.name ∈ (Style.internal.entries ws).map (·.1) := by
    rw [internal_entries, List.map_map]
    exact List.mem_map_of_mem hw
  obtain ⟨value, hfind⟩ := Option.isSome_iff_exists.1 (Entries.isSome_find?_iff.2 hkey)
  have hmem := Entries.mem_of_find? hfind
  rw [internal_entries] at hmem
  obtain ⟨w', hw', hpair⟩ := List.mem_map.1 hmem
  obtain ⟨hname, rfl⟩ := Prod.mk.inj hpair
  -- one name is written once
  have hnodup : (ws.map fun w => w.field.name).Nodup := by
    have hnames := h.named.nodup
    rwa [← h.fields_eq, List.map_map] at hnames
  rw [hfind, List.inj_on_of_nodup_map hnodup hw' hw hname]

/-- Every field is found under its name, with what the changes say for it or what was written. -/
theorem locate?_eq (h : Changing fields ws changes) (hw : w ∈ ws) :
    w.field.locate? (changedEntries ws changes) =
      some (w.field.name, (changes.given? w.field.name).getD w.value) := by
  have hfield : w.field ∈ fields := h.fields_eq ▸ List.mem_map_of_mem hw
  refine FieldName.locate?_of_alias (fun key hkey => ?_) ?_
  · rw [← Option.not_isSome_iff_eq_none, Entries.isSome_find?_iff]
    exact fun hmem => h.named.alias_notMem _ hfield key hkey (h.mem_names hmem)
  · rw [changedEntries, Entries.find?_putAll, h.find?_name hw]
    cases changes.given? w.field.name <;> rfl

/-- No key of the record is unknown. -/
theorem closed_eq (h : Changing fields ws changes) :
    (changedEntries ws changes).closed fields = .ok () := by
  have hunknown : (changedEntries ws changes).unknownKeys fields = [] := by
    rw [Entries.unknownKeys, List.filter_eq_nil_iff]
    intro key hkey
    obtain ⟨field, hfield, rfl⟩ := List.mem_map.1 (h.mem_names hkey)
    obtain ⟨w, hw, rfl⟩ := List.mem_map.1 (h.fields_eq.symm ▸ hfield)
    have htaken : w.field.name ∈
        fields.filterMap fun field => (field.locate? (changedEntries ws changes)).map (·.1) :=
      List.mem_filterMap.2 ⟨w.field, hfield, by rw [h.locate?_eq hw]; rfl⟩
    simpa using htaken
  rw [Entries.closed, hunknown]

/-- What a field becomes, given its name and what was written for it. -/
theorem becomes_iff {read : Document → Checked α} {old new : α} (hread : read w.value = .ok old) :
    read ((changes.given? w.field.name).getD w.value) = .ok new ↔
      w.field.Becomes changes read old new := by
  cases hgiven : changes.given? w.field.name with
  | none => simp [FieldName.becomes_of_not_given hgiven, hread, eq_comm]
  | some d => simp [FieldName.becomes_of_given hgiven]

end Changing

/-- What is read for a written field from changed entries: what the field becomes. -/
structure Reading (entries changes : Entries) (w : Written) : Prop where
  required_iff : ∀ {α : Type} {read : Document → Checked α} {old new : α}, read w.value = .ok old →
    (entries.required w.field read = .ok new ↔ w.field.Becomes changes read old new)
  optional_iff : ∀ {α : Type} {read : Document → Checked α} {old new default : α},
    read w.value = .ok old →
      (entries.optional w.field default read = .ok new ↔ w.field.Becomes changes read old new)

/-- From changed entries every field is read. -/
theorem Changing.reading (h : Changing fields ws changes) :
    ∀ w ∈ ws, Reading (changedEntries ws changes) changes w := by
  intro w hw
  refine ⟨fun hread => ?_, fun hread => ?_⟩
  · rw [Entries.required, h.locate?_eq hw]
    exact Checked.under_eq_ok_iff.trans (becomes_iff hread)
  · rw [Entries.optional, h.locate?_eq hw]
    exact Checked.under_eq_ok_iff.trans (becomes_iff hread)

/-- A record in which no key is unknown has been changed under names of fields only. -/
theorem name_of_closed (hfields : ws.map (·.field) = fields) (hnamed : FieldName.Named fields)
    (h : (changedEntries ws changes).closed fields = .ok ()) : changes.Name fields := by
  have htaken : ∀ key ∈ (changedEntries ws changes).map (·.1), ∃ field ∈ fields, ∃ value,
      field.locate? (changedEntries ws changes) = some (key, value) := by
    intro key hkey
    have hunknown : (changedEntries ws changes).unknownKeys fields = [] := by
      rw [Entries.closed] at h
      split at h
      · assumption
      · cases h
    rw [Entries.unknownKeys, List.filter_eq_nil_iff] at hunknown
    have hmem := hunknown key hkey
    simp only [Bool.not_eq_true', Bool.not_eq_false, List.contains_iff_mem, List.mem_filterMap,
      Option.map_eq_some_iff] at hmem
    obtain ⟨field, hfield, ⟨_, value⟩, hlocate, rfl⟩ := hmem
    exact ⟨field, hfield, value, hlocate⟩
  intro key hkey
  obtain ⟨field, hfield, value, hlocate⟩ := htaken key (mem_map_changedEntries_iff.2 (.inl hkey))
  rcases FieldName.of_locate? hlocate with halias | rfl
  · -- a field that is found under its alias leaves its name to no field
    have hname : field.name ∈ (changedEntries ws changes).map (·.1) :=
      mem_map_changedEntries_iff.2 (.inr (List.mem_map_of_mem (hfields ▸ hfield)))
    obtain ⟨other, hother, value', hlocate'⟩ := htaken _ hname
    rcases FieldName.of_locate? hlocate' with halias' | hnames
    · exact absurd (List.mem_map_of_mem hfield) (hnamed.alias_notMem other hother _ halias')
    · obtain rfl := hnamed.eq_of_name hfield hother hnames
      rw [hlocate] at hlocate'
      obtain ⟨rfl, -⟩ := Prod.mk.inj (Option.some.inj hlocate')
      exact List.mem_map_of_mem hfield
  · exact List.mem_map_of_mem hfield

theorem closed_changedEntries_iff (hfields : ws.map (·.field) = fields)
    (hnamed : FieldName.Named fields) :
    (changedEntries ws changes).closed fields = .ok () ↔ Changing fields ws changes :=
  ⟨fun h => ⟨hfields, hnamed, name_of_closed hfields hnamed h⟩, Changing.closed_eq⟩

/-- Changed entries are read exactly when the changes name fields only and the fields are read. -/
theorem entries_asRecord_changed_eq_ok_iff (hfields : ws.map (·.field) = fields)
    (hnamed : FieldName.Named fields) {body : Entries → Checked α} {a : α} {p : Prop}
    (hbody : ∀ entries, entries = changedEntries ws changes →
      (∀ w ∈ ws, Reading entries changes w) → (body entries = .ok a ↔ p)) :
    (changedEntries ws changes).asRecord fields body = .ok a ↔ changes.Name fields ∧ p := by
  have hread : (changedEntries ws changes).asRecord fields body = .ok a ↔
      body (changedEntries ws changes) = .ok a ∧
        (changedEntries ws changes).closed fields = .ok () := by
    rw [Entries.asRecord, Checked.eq_ok_iff_yields, Checked.seq_yields_iff, Checked.map_yields_iff]
    simp only [Checked.Yields]
    constructor
    · rintro ⟨_, ha, ⟨⟩, hclosed, rfl⟩
      exact ⟨ha, hclosed⟩
    · rintro ⟨ha, hclosed⟩
      exact ⟨a, ha, (), hclosed, rfl⟩
  rw [hread, closed_changedEntries_iff hfields hnamed]
  constructor
  · rintro ⟨ha, h⟩
    exact ⟨h.changes_name, (hbody _ rfl h.reading).1 ha⟩
  · rintro ⟨hname, hp⟩
    have h : Changing fields ws changes := ⟨hfields, hnamed, hname⟩
    exact ⟨(hbody _ rfl h.reading).2 hp, h⟩

/-- A changed record is read exactly when the changes name fields only and the fields are read. -/
theorem asRecord_changed_eq_ok_iff (hfields : ws.map (·.field) = fields)
    (hnamed : FieldName.Named fields) {body : Entries → Checked α} {a : α} {p : Prop}
    (hbody : ∀ entries, entries = changedEntries ws changes →
      (∀ w ∈ ws, Reading entries changes w) → (body entries = .ok a ↔ p)) :
    ((Style.internal.record ws).changed changes).asRecord fields body = .ok a ↔
      changes.Name fields ∧ p :=
  entries_asRecord_changed_eq_ok_iff hfields hnamed hbody

/-! ## Kinds of fields -/

/-- Changes that name no field change no field. -/
theorem Entries.name_nil (fields : List FieldName) : Entries.Name [] fields := by
  simp [Entries.Name]

theorem Loading.nonemptyText_text {s : String} (h : s ≠ "") :
    Loading.nonemptyText (.text s) = .ok ⟨s, h⟩ := by
  simp [Loading.nonemptyText, Loading.text, h]

/-- What may be absent is read back if what is present is. -/
theorem Loading.orNull_written {read : Document → Checked α} (a? : Option α) (write : α → Document)
    (hnull : ∀ a ∈ a?, (write a).isNull = false) (hread : ∀ a ∈ a?, read (write a) = .ok a) :
    Loading.orNull read ((a?.map write).getD .null) = .ok a? := by
  cases a? with
  | none => rfl
  | some a =>
    have horNull : Loading.orNull read (write a) = some <$> read (write a) := by
      have hwrite := hnull a rfl
      cases hdoc : write a <;> simp_all [Loading.orNull, Document.isNull]
    change Loading.orNull read (write a) = _
    rw [horNull, hread a rfl]
    rfl

theorem Loading.flag_flag (b : Bool) : Loading.flag (.flag b) = .ok b := rfl

theorem Loading.orNull_ofText? (s? : Option String) :
    Loading.orNull Loading.text (.ofText? s?) = .ok s? := by
  cases s? <;> rfl

/-! ## Tags -/

/-- Holds for changes that leave the tag of a record as it is; they may repeat it. -/
def Entries.KeepTag (changes : Entries) (tag : String) : Prop :=
  ∀ d ∈ changes.given? tagKey.name, d = .text tag

theorem Entries.keepTag_nil (tag : String) : Entries.KeepTag [] tag := by
  simp [Entries.KeepTag, Entries.given?, Entries.find?]

/-- A tag is read as long as the changes keep it. -/
theorem Reading.tagged_iff {entries : Entries} {tag : String} {isDefault : Bool}
    (h : Reading entries changes { field := tagKey, value := .text tag, isDefault }) {u : Unit} :
    entries.tagged tag = .ok u ↔ changes.KeepTag tag := by
  unfold Entries.tagged
  refine (h.optional_iff (if_pos (beq_self_eq_true tag))).trans ?_
  rw [FieldName.Becomes, Entries.KeepTag]
  cases changes.given? tagKey.name with
  | none => simp
  | some d => cases d <;> simp [Checked.fault]

/-- A tag selects the reader of its word. -/
theorem byTag_internal {β : Type} [Vocabulary β] [LawfulVocabulary β]
    (hfields : ws.map (·.field) = fields) (hnamed : FieldName.Named fields) (tag : β)
    (hw : { field := tagKey, value := .ofWord tag, isDefault := true } ∈ ws)
    (read : β → Entries → Checked α) :
    (Style.internal.record ws).byTag (fun word => (Vocabulary.ofWord? word).map read) =
      (read tag (Style.internal.entries ws)).under (.key (Vocabulary.word tag)) := by
  have h : Changing fields ws [] := ⟨hfields, hnamed, Entries.name_nil fields⟩
  have hfind : (Style.internal.entries ws).find? tagKey.name = some (.text (Vocabulary.word tag)) :=
    h.find?_name hw
  rw [Style.record, Document.byTag, hfind]
  simp only [LawfulVocabulary.ofWord?_word, Option.map_some]

end PgSchema
