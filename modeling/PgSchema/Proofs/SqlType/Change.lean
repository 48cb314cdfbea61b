/-
# Column types change by their parameters

A column type is changed through the record of its parameters: the type after the change has the
parameters that the changes name, and otherwise those it had.

* `SqlType.evolve_eq_ok_iff` : what a type becomes;
* `SqlType.load_save_internal` : a type is read back as it was written under the names of its
  fields.
-/
import PgSchema.Proofs.Loading.Change
import PgSchema.Proofs.SqlType.Spelling

namespace PgSchema.SqlType

variable {changes : Entries} {t t' : SqlType}

/-- What changes make of the parameters of a type. -/
structure Parts.Becomes (p : Parts) (changes : Entries) (p' : Parts) : Prop where
  kind : kindField.Becomes changes Loading.member p.kind p'.kind
  length : lengthField.Becomes changes (Loading.orNull Loading.positive) p.length p'.length
  precision :
    precisionField.Becomes changes (Loading.orNull Loading.natural) p.precision p'.precision
  scale : scaleField.Becomes changes (Loading.orNull Loading.natural) p.scale p'.scale
  element : elementField.Becomes changes (Loading.orNull load) p.element p'.element
  name : nameField.Becomes changes (Loading.orNull Loading.text) p.name p'.name

theorem save_eq (style : Style) (t : SqlType) :
    t.save style =
      style.record (writtenParts t.parts ((t.parts.element.map (save style)).getD .null)) := by
  cases t <;> rfl

theorem orNull_natural_number? (n? : Option Nat) :
    Loading.orNull Loading.natural (number? n?) = .ok n? := by
  rw [number?_eq]
  exact Loading.orNull_written n? _ (fun _ _ => rfl) fun n _ => natural_integer n

theorem orNull_positive_number? (n? : Option Length) :
    Loading.orNull Loading.positive (number? (n?.map (·.val))) = .ok n? := by
  rw [number?_eq, Option.map_map]
  exact Loading.orNull_written n? _ (fun _ _ => rfl) fun n _ => positive_integer n

/-- The type that is built from parameters has them. -/
theorem ofRule_ofParts_eq_ok_iff {p : Parts} :
    Checked.ofRule (ofParts p) = .ok t ↔ p = t.parts := by
  rw [Checked.ofRule_eq_ok_iff]
  constructor
  · intro h
    exact (parts_of_ofParts h).symm
  · rintro rfl
    exact ofParts_parts t

/-- A type changes by its parameters if its element is read back. -/
theorem load_changed_eq_ok_iff (hread : ∀ e ∈ t.parts.element, load (e.save .internal) = .ok e) :
    load ((t.save .internal).changed changes) = .ok t' ↔
      changes.Name fields ∧ t.parts.Becomes changes t'.parts := by
  have hnamed : FieldName.Named fields := by decide
  rw [save_eq]
  change ofRecord (changedEntries _ changes) (loadEntries (changedEntries _ changes)) = _ ↔ _
  rw [ofRecord, Checked.andThen_eq_ok_iff]
  simp only [ofRule_ofParts_eq_ok_iff, exists_eq_right]
  refine entries_asRecord_changed_eq_ok_iff (by rfl) hnamed fun entries hentries h => ?_
  simp only [writtenParts, List.forall_mem_cons] at h
  obtain ⟨hkind, hlength, hprecision, hscale, helement, hname, -⟩ := h
  rw [← hentries, elementOf_loadEntries, Checked.eq_ok_iff_yields]
  simp only [Checked.seq_yields_iff, Checked.map_yields_iff]
  simp only [Checked.Yields, Entries.nullable, hkind.required_iff (Loading.member_word _),
    hlength.optional_iff (orNull_positive_number? _),
    hprecision.optional_iff (orNull_natural_number? _),
    hscale.optional_iff (orNull_natural_number? _),
    helement.optional_iff (Loading.orNull_written _ _ (fun e _ => isNull_save e) hread),
    hname.optional_iff (Loading.orNull_ofText? _)]
  constructor
  · rintro ⟨_, h1, _, h2, _, h3, _, h4, _, h5, _, h6, hparts⟩
    rw [← hparts]
    exact ⟨h1, h2, h3, h4, h5, h6⟩
  · intro h
    exact ⟨_, h.kind, _, h.length, _, h.precision, _, h.scale, _, h.element, _, h.name, rfl⟩

/-- A type is read back as it was written under the names of its fields. -/
theorem load_save_internal (t : SqlType) : load (t.save .internal) = .ok t := by
  have hload (t : SqlType) (hread : ∀ e ∈ t.parts.element, load (e.save .internal) = .ok e) :
      load (t.save .internal) = .ok t := by
    have hsame : (t.save .internal).changed [] = t.save .internal := by
      rw [save_eq]
      rfl
    rw [← hsame, load_changed_eq_ok_iff hread]
    exact ⟨Entries.name_nil fields, rfl, rfl, rfl, rfl, rfl, rfl⟩
  induction t with
  | array element ih => exact hload (array element) (by simpa [parts] using ih)
  | plain | varchar | char | exact | timed | named => exact hload _ (by simp [parts])

/-- A type becomes what its parameters become, if they make up a type. -/
theorem evolve_eq_ok_iff :
    Definition.evolve t changes = .ok t' ↔
      changes.Name fields ∧ t.parts.Becomes changes t'.parts :=
  load_changed_eq_ok_iff fun e _ => load_save_internal e

theorem evolve_nil (t : SqlType) : Definition.evolve t [] = .ok t :=
  evolve_eq_ok_iff.2 ⟨Entries.name_nil fields, rfl, rfl, rfl, rfl, rfl, rfl⟩

end PgSchema.SqlType
