/-
# Column types are read back

A type is built again from its own parts, and so it is read back from the record of its
parameters, whatever the nesting of arrays.

* `SqlType.ofParts_parts` : the parts of a type break no rule;
* `SqlType.load_save` : a type is read back as it was written.
-/
import PgSchema.Proofs.Loading.Record
import PgSchema.SqlType.Load

namespace PgSchema.SqlType

variable {style : Style}

/-! ## Parts -/

theorem exactSize_parts {kind : Kind} (isExact : kind.family = .exact) (size : Option ExactSize) :
    (exact kind isExact size).parts.exactSize = .ok size := by
  match size with
  | none => rfl
  | some ⟨precision, none, hpos, hle⟩ => simp [parts, Parts.exactSize, hpos]
  | some ⟨precision, some scale, hpos, hle⟩ =>
    have hscale : scale ≤ precision := hle scale rfl
    simp [parts, Parts.exactSize, hpos, hscale]

theorem fractionalDigits_parts {kind : Kind} (isTimed : kind.family = .timed)
    (digits : Option (Fin (maxFractionalDigits + 1))) :
    (timed kind isTimed digits).parts.fractionalDigits = .ok digits := by
  match digits with
  | none => rfl
  | some ⟨n, hn⟩ => simp [parts, Parts.fractionalDigits, hn]

/-- The parts of a type break no rule, and the type is built from them again. -/
theorem ofParts_parts (t : SqlType) : ofParts t.parts = .ok t := by
  cases t with
  | plain kind isPlain =>
    -- The kinds of other families have no such type.
    cases kind <;> first | rfl | exact absurd isPlain (by decide)
  | varchar length => rfl
  | char length => rfl
  | exact kind isExact size =>
    have hsize := exactSize_parts isExact size
    cases kind <;> first | exact absurd isExact (by decide) | skip
    all_goals simp only [ofParts]; rw [hsize]; rfl
  | timed kind isTimed digits =>
    have hdigits := fractionalDigits_parts isTimed digits
    cases kind <;> first | exact absurd isTimed (by decide) | skip
    all_goals simp only [ofParts]; rw [hdigits]; rfl
  | array element => rfl
  | named kind isNamed name notBlank =>
    cases kind <;> first | exact absurd isNamed (by decide) | skip
    all_goals exact dif_pos notBlank

/-! ## Records -/

theorem writing (h : style ≠ .internal) (p : Parts) (element : Document) :
    Writing style fields (writtenParts p element) :=
  ⟨h, rfl, by decide⟩

theorem number?_eq (n? : Option Nat) :
    number? n? = (n?.map fun n : Nat => Document.integer n).getD .null := by
  cases n? <;> rfl

theorem loadEntries_eq_map (entries : Entries) :
    loadEntries entries = entries.map fun entry => (entry.1, load entry.2) := by
  induction entries with
  | nil => rfl
  | cons entry entries ih => rw [loadEntries, ih, List.map_cons]

/-- The element is read like any other field that may be absent. -/
theorem elementOf_loadEntries (entries : Entries) :
    elementOf entries (loadEntries entries) = entries.nullable elementField load := by
  rw [elementOf, Entries.nullable, Entries.optional, FieldName.locate?_of_no_alias rfl,
    loadEntries_eq_map, Entries.find?_map_read]
  cases entries.find? elementField.name with
  | none => rfl
  | some value => cases value <;> rfl

theorem positive_integer (n : Length) : Loading.positive (.integer n.val) = .ok n := by
  obtain ⟨n, hn⟩ := n
  simp [Loading.positive, Loading.integer, hn]

theorem natural_integer (n : Nat) : Loading.natural (.integer n) = .ok n := by
  simp [Loading.natural, Loading.integer]

/-- A type is built from the parts of its record if the element is read back. -/
theorem load_writtenParts (h : style ≠ .internal) (p : Parts) (write : SqlType → Document)
    (hnull : ∀ t ∈ p.element, (write t).isNull = false)
    (hread : ∀ t ∈ p.element, load (write t) = .ok t) :
    load (style.record (writtenParts p ((p.element.map write).getD .null))) =
      .ofRule (ofParts p) := by
  have hw := writing h p ((p.element.map write).getD .null)
  have hlength : number? (p.length.map (·.val)) =
      (p.length.map fun n => Document.integer n.val).getD .null := by
    cases p.length <;> rfl
  rw [Style.record, load, ofRecord, hw.entries_asRecord_eq, elementOf_loadEntries,
    hw.required_eq_ok p.kind rfl (Loading.member_word _) (by simp [writtenParts, Document.ofWord]),
    hw.nullable_eq_ok p.length (fun n => .integer n.val) (fun _ _ => rfl)
      (fun n _ => positive_integer n)
      (by rw [← hlength, writtenParts]; simp only [List.mem_cons, true_or, or_true]),
    hw.nullable_eq_ok p.precision (fun n : Nat => .integer n) (fun _ _ => rfl)
      (fun n _ => natural_integer n) (by simp [writtenParts, number?_eq]),
    hw.nullable_eq_ok p.scale (fun n : Nat => .integer n) (fun _ _ => rfl)
      (fun n _ => natural_integer n) (by simp [writtenParts, number?_eq]),
    hw.nullable_eq_ok p.element write hnull hread (by simp [writtenParts]),
    hw.text?_eq_ok p.name (by simp [writtenParts])]
  rfl

theorem isNull_save (t : SqlType) : (t.save style).isNull = false := by
  cases t <;> rfl

/-- A column type is read back as it was written, however deep its arrays are nested. -/
theorem load_save (h : style ≠ .internal) (t : SqlType) : load (t.save style) = .ok t := by
  have hload (t : SqlType) (hread : ∀ e ∈ t.parts.element, load (e.save style) = .ok e) :
      load (style.record (writtenParts t.parts ((t.parts.element.map (save style)).getD .null))) =
        .ok t := by
    rw [load_writtenParts h t.parts (save style) (fun e _ => isNull_save e) hread, ofParts_parts]
    rfl
  induction t with
  | array element ih => exact hload (array element) (by simpa [parts] using ih)
  | plain | varchar | char | exact | timed | named => exact hload _ (by simp [parts])

end PgSchema.SqlType
