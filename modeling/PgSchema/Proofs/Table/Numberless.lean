/-
# Tables without a number

The one thing that stops the reading of a table is the type of a column that lacks a number.
Everything else that can be wrong with a table is a fault among faults.

* `Column.Numberless`, `Table.Numberless` : definitions with such a type;
* `Table.stops_load_iff` : they alone stop the reading.
-/
import PgSchema.Proofs.SqlType.Numberless
import PgSchema.Proofs.ValueRule.Saved
import PgSchema.Table

namespace PgSchema

/-! ## Parts that never stop -/

namespace DefaultValue

theorem not_stops_make (kind : DefaultKind) (expression description : String) :
    ¬ (make kind expression description).Stops := by
  rw [make]
  split <;> simp

theorem not_stops_ofText (s : String) : ¬ (ofText s).Stops := by
  simp only [ofText]
  repeat' split
  all_goals simp [ofExpression, not_stops_make]

theorem not_stops_load (d : Document) : ¬ (load d).Stops := by
  cases d with
  | integer | float => exact not_stops_make _ _ _
  | text s => exact not_stops_ofText s
  | null | flag | list | record => simp [load, Document.asRecord]

end DefaultValue

namespace ForeignKey

theorem not_stops_loadAction (d : Document) : ¬ (loadAction d).Stops := by
  cases d <;> simp [loadAction]

theorem not_stops_load (d : Document) : ¬ (load d).Stops := by
  simp [load, Document.stops_asRecord, not_stops_loadAction]

end ForeignKey

namespace Index

theorem not_stops_loadMethod (d : Document) : ¬ (loadMethod d).Stops := by
  cases d <;> simp [loadMethod]

theorem not_stops_loadMapping (d : Document) : ¬ (loadMapping d).Stops := by
  cases d <;> simp [loadMapping]

theorem not_stops_load (d : Document) : ¬ (load d).Stops := by
  simp [load, Document.stops_asRecord, not_stops_loadMethod, not_stops_loadMapping]

end Index

namespace Policy

theorem not_stops_loadCommand (d : Document) : ¬ (loadCommand d).Stops := by
  cases d <;> simp [loadCommand]

theorem not_stops_load (d : Document) : ¬ (load d).Stops := by
  simp [load, Document.stops_asRecord, not_stops_loadCommand]

end Policy

namespace Constraint

theorem not_stops_ofRecord (tag : Tag) (entries : Entries) : ¬ (ofRecord tag entries).Stops := by
  cases tag <;> simp [ofRecord, loadRule]

theorem not_stops_load (d : Document) : ¬ (load d).Stops := by
  refine Document.not_stops_byTag fun word read hread entries _ => ?_
  obtain ⟨tag, -, rfl⟩ := Option.map_eq_some_iff.1 hread
  exact not_stops_ofRecord tag entries

end Constraint

namespace Partition

theorem not_stops_load (d : Document) : ¬ (load d).Stops := by
  refine Document.not_stops_byTag fun word read hread entries _ => ?_
  obtain ⟨method, -, rfl⟩ := Option.map_eq_some_iff.1 hread
  simp [ofRecord]

end Partition

/-! ## Value rules -/

namespace ValueRule

theorem not_stops_nonemptyList {α : Type} (xs : List α) : ¬ (nonemptyList xs).Stops := by
  cases xs <;> simp [nonemptyList]

theorem not_stops_loadBounds (tag : Tag) (entries : Entries) :
    ¬ (loadBounds tag entries).Stops := by
  rw [loadBounds, Checked.stops_andThen_of_not_stops fun _ => Checked.not_stops_ofRule _]
  simp

theorem not_stops_loadParts {entries : Entries}
    (h : ∀ entry ∈ entries, ¬ (loadList entry.2).Stops) :
    ¬ (loadParts entries (loadEntries entries)).Stops := by
  rw [loadParts_loadEntries, Entries.stops_required, FieldName.locate?_of_no_alias rfl]
  rintro ⟨entry, hlocate, hstops⟩
  rw [Checked.stops_andThen_of_not_stops not_stops_nonemptyList] at hstops
  obtain ⟨d, hfind, rfl⟩ := Option.map_eq_some_iff.1 hlocate
  exact h _ (Entries.mem_of_find? hfind) hstops

/-- A rule stops only if one of its parts does. -/
theorem not_stops_ofRecord {tag : Tag} {entries : Entries}
    (h : ∀ entry ∈ entries, ¬ (loadList entry.2).Stops) :
    ¬ (ofRecord tag (loadEntries entries) entries).Stops := by
  have hvalues (d : Document) : ¬ ((Loading.texts d).andThen nonemptyList).Stops := by
    rw [Checked.stops_andThen_of_not_stops not_stops_nonemptyList]
    exact Loading.not_stops_texts d
  cases tag <;> simp [ofRecord, not_stops_loadBounds, not_stops_loadParts h, hvalues]

mutual

theorem not_stops_load : ∀ d : Document, ¬ (load d).Stops
  | .record entries => by
    rw [load]
    refine Document.not_stops_byTag fun word read hread entries' hentries => ?_
    cases hentries
    obtain ⟨tag, -, rfl⟩ := Option.map_eq_some_iff.1 hread
    exact not_stops_ofRecord (not_stops_loadEntries entries)
  | .null | .flag _ | .integer _ | .float _ | .text _ | .list _ => by simp [load]

theorem not_stops_loadEntries : ∀ entries : List (String × Document),
    ∀ entry ∈ entries, ¬ (loadList entry.2).Stops
  | [] => by simp
  | (key, d) :: entries => by
    simp only [List.forall_mem_cons]
    exact ⟨not_stops_loadList d, not_stops_loadEntries entries⟩

theorem not_stops_loadList : ∀ d : Document, ¬ (loadList d).Stops
  | .list items => by
    rw [loadList]
    exact not_stops_loadItems 0 items
  | .null | .flag _ | .integer _ | .float _ | .text _ | .record _ => by simp [loadList]

theorem not_stops_loadItems : ∀ (position : Nat) (items : List Document),
    ¬ (loadItems position items).Stops
  | _, [] => by simp [loadItems]
  | position, d :: ds => by
    simp [loadItems, not_stops_load d, not_stops_loadItems (position + 1) ds]

end

end ValueRule

/-! ## Columns -/

namespace Column

/-- A document that is read as a column whose type lacks a number. -/
def Numberless (d : Document) : Prop :=
  ∃ entries, d = .record entries ∧
    ∃ type, Entries.find? entries typeField.name = some type ∧ SqlType.Numberless type

theorem stops_load_iff {d : Document} : (load d).Stops ↔ Numberless d := by
  have hlocate (entries : Entries) :=
    FieldName.locate?_of_no_alias (rfl : typeField.alias? = none) entries
  simp [load, Document.stops_asRecord, Numberless, hlocate, DefaultValue.not_stops_load,
    ValueRule.not_stops_loadList, SqlType.stops_load_iff]

end Column

/-! ## Tables -/

namespace Table

/-- A document that is read as a table with a column whose type lacks a number. -/
def Numberless (d : Document) : Prop :=
  ∃ entries, d = .record entries ∧
    ∃ columns, Entries.find? entries columnsField.name = some (.list columns) ∧
      ∃ column ∈ columns, Column.Numberless column

theorem not_stops_distinctColumns (columns : List Column) : ¬ (distinctColumns columns).Stops := by
  rw [distinctColumns]
  split <;> simp [Checked.broken]

theorem stops_load_iff {d : Document} : (load d).Stops ↔ Numberless d := by
  have hlocate (entries : Entries) :=
    FieldName.locate?_of_no_alias (rfl : columnsField.alias? = none) entries
  have hload : (load d).Stops ↔ ∃ entries, d = .record entries ∧
      ∃ value, Entries.find? entries columnsField.name = some value ∧
        ∃ columns, value = .list columns ∧ ∃ column ∈ columns, Column.Numberless column := by
    simp [load, Document.stops_asRecord, hlocate, Loading.stops_list,
      Checked.stops_andThen_of_not_stops not_stops_distinctColumns, Index.not_stops_load,
      Policy.not_stops_load, ForeignKey.not_stops_load, Constraint.not_stops_load,
      Partition.not_stops_load, Column.stops_load_iff]
  rw [hload]
  refine exists_congr fun entries => and_congr_right fun _ => ⟨?_, ?_⟩
  · rintro ⟨_, hfind, columns, rfl, hcolumn⟩
    exact ⟨columns, hfind, hcolumn⟩
  · rintro ⟨columns, hfind, hcolumn⟩
    exact ⟨_, hfind, columns, rfl, hcolumn⟩

end Table
end PgSchema
