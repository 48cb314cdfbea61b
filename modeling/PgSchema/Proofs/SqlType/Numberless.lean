/-
# Type text without a number

Type text that opens parentheses after a known name and has nothing but commas and blanks in them
stops the reading; nothing else in the definition of a column type does.

* `TypeText.parse_eq_missingNumber_iff` : which texts lack a number;
* `SqlType.stops_load_iff` : which definitions of a column type stop the reading.
-/
import PgSchema.Proofs.Loading.Stops
import PgSchema.Proofs.Result
import PgSchema.Proofs.SqlType.Saved
import PgSchema.Proofs.Text.Span

namespace PgSchema

/-! ## Type text -/

theorem Text.flatten_splitAt (separator : Char) (cs : List Char) :
    (splitAt separator cs).flatten = cs.filter (· != separator) := by
  induction cs with
  | nil => rfl
  | cons c cs ih =>
    by_cases hc : c = separator
    · rw [hc, splitAt_cons_separator, List.filter_cons_of_neg (by simp), ← ih]
      rfl
    · obtain ⟨piece, pieces, hcs, hcons⟩ := exists_splitAt_cons hc cs
      rw [hcons, List.filter_cons_of_pos (by simpa using hc), ← ih, hcs]
      rfl

namespace TypeText

/-- A text that names a known kind and has nothing but commas and blanks between its
parentheses. -/
def LacksNumber (s : String) : Prop :=
  let base := (splitBrackets (s.toList.dropWhile Text.isBlank).reverse).2.reverse
  ∃ split params kind, ((splitZoned? base).orElse fun _ => splitParams? base) = some split ∧
    split.params = some params ∧ kindOfName? (normalName split.name) = some kind ∧
    params ≠ [] ∧ ∀ c ∈ params, c = ',' ∨ Text.isBlank c = true

theorem numbers_eq_nil_iff {params : List Char} :
    numbers params = .ok [] ↔ ∀ c ∈ params, c = ',' ∨ Text.isBlank c = true := by
  have hpieces : numbers params = .ok [] ↔
      (Text.splitAt ',' params).filter (fun piece => !piece.all Text.isBlank) = [] := by
    rw [numbers]
    cases (Text.splitAt ',' params).filter fun piece => !piece.all Text.isBlank with
    | nil => simp [pure, Except.pure]
    | cons piece pieces =>
      rw [mapM_cons_eq_ok_iff]
      simp
  have hall : (∀ piece ∈ Text.splitAt ',' params, ∀ c ∈ piece, Text.isBlank c = true) ↔
      ∀ c ∈ (Text.splitAt ',' params).flatten, Text.isBlank c = true := by
    simp only [List.mem_flatten]
    exact ⟨fun h c ⟨piece, hpiece, hc⟩ => h piece hpiece c hc,
      fun h piece hpiece c hc => h c ⟨piece, hpiece, hc⟩⟩
  rw [hpieces, List.filter_eq_nil_iff]
  simp only [Bool.not_eq_true', Bool.not_eq_false, List.all_eq_true, hall, Text.flatten_splitAt,
    List.mem_filter, bne_iff_ne, and_imp]
  exact forall₂_congr fun c _ => Classical.or_iff_not_imp_left.symm

theorem baseOfParams_eq_missingNumber_iff {kind : Kind} {params : List Char} :
    baseOfParams kind params = .error .missingNumber ↔
      params ≠ [] ∧ ∀ c ∈ params, c = ',' ∨ Text.isBlank c = true := by
  rw [← numbers_eq_nil_iff, baseOfParams]
  split
  · next hempty => simp [List.isEmpty_iff.1 hempty]
  · next hempty =>
    have hne : params ≠ [] := fun h => hempty (List.isEmpty_iff.2 h)
    cases numbers params with
    | error fault => simp
    | ok values =>
      cases values with
      | nil => simp [hne]
      | cons first rest => cases kind.family <;> simp

theorem parse_eq_missingNumber_iff {s : String} :
    parse s = .error .missingNumber ↔ LacksNumber s := by
  have hmap {x : Except TypeTextError BaseText} {f : BaseText → TypeText} :
      x.map f = .error .missingNumber ↔ x = .error .missingNumber := by
    cases x <;> simp [Except.map]
  rw [parse, LacksNumber]
  simp only [hmap]
  generalize (splitBrackets (s.toList.dropWhile Text.isBlank).reverse).2.reverse = base
  rw [parseBase]
  cases hsplit : (splitZoned? base).orElse fun _ => splitParams? base with
  | none => simp
  | some split =>
    cases hkind : kindOfName? (normalName split.name) with
    | none => simp [hkind]
    | some kind =>
      cases hparams : split.params <;>
        simp [hkind, hparams, baseOfParams_eq_missingNumber_iff]

end TypeText

/-! ## Column types -/

namespace SqlType

/-- A document that is read as a column type and lacks a number: a text without the number that
its kind needs, or a record with such an element. -/
inductive Numberless : Document → Prop
  | text {s : String} (h : TypeText.LacksNumber s) : Numberless (.text s)
  | element {entries : Entries} {d : Document} (h : entries.find? elementField.name = some d)
      (hd : Numberless d) : Numberless (.record entries)

theorem not_stops_checkedParam {α : Type} {field : FieldName} {read : Document → Checked α}
    (h : ∀ d, ¬ (read d).Stops) (n : Option Int) : ¬ (checkedParam field read n).Stops := by
  cases n <;> simp [checkedParam, h]

theorem not_stops_ofBase (base : BaseText) : ¬ (ofBase base).Stops := by
  cases base with
  | custom name => simp [ofBase]
  | known kind length precision scale =>
    rw [ofBase, Checked.stops_andThen_of_not_stops fun _ => Checked.not_stops_ofRule _]
    simp [not_stops_checkedParam]

theorem stops_nested {base : Checked SqlType} {depth : Nat} :
    (nested base depth).Stops ↔ base.Stops := by
  induction depth with
  | zero => rfl
  | succ depth ih => simp [nested, ih]

theorem stops_ofText_iff {s : String} :
    (ofText s).Stops ↔ TypeText.LacksNumber s := by
  rw [← TypeText.parse_eq_missingNumber_iff, ofText]
  split
  · next text hparse => simp [hparse, stops_nested, not_stops_ofBase]
  · next fault hparse => simp [hparse, Checked.broken]
  · next hparse => simp [hparse, Checked.Stops]

/-- A record of parameters stops the reading when its element does. -/
theorem stops_load_record {entries : Entries} :
    (load (.record entries)).Stops ↔
      ∃ d, entries.find? elementField.name = some d ∧ d ≠ .null ∧ (load d).Stops := by
  rw [load, ofRecord, Checked.stops_andThen_of_not_stops fun _ => Checked.not_stops_ofRule _]
  have hlocate := FieldName.locate?_of_no_alias (rfl : elementField.alias? = none) entries
  simp [elementOf_loadEntries, hlocate]

theorem numberless_of_stops : ∀ d : Document, (load d).Stops → Numberless d
  | .text s, h => .text (stops_ofText_iff.1 h)
  | .record entries, h => by
    obtain ⟨d, hfind, -, hstops⟩ := stops_load_record.1 h
    have := Entries.sizeOf_lt_of_find? hfind
    exact .element hfind (numberless_of_stops d hstops)
  | .null, h | .flag _, h | .integer _, h | .float _, h | .list _, h => by simp [load] at h
termination_by d => sizeOf d

/-- A column type stops the reading exactly when it lacks a number. -/
theorem stops_load_iff {d : Document} : (load d).Stops ↔ Numberless d := by
  refine ⟨numberless_of_stops d, fun h => ?_⟩
  induction h with
  | text hparse => exact stops_ofText_iff.2 hparse
  | element hfind hd ih =>
    refine stops_load_record.2 ⟨_, hfind, ?_, ih⟩
    rintro rfl
    cases hd

end SqlType

end PgSchema
