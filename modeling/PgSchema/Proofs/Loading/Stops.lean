/-
# When reading stops

A fault is one of many and the reading goes on; type text without the number it needs stops the
reading of the whole document.  Each combinator stops exactly when one of the parts that it reads
does, and the readers of scalars never stop.

* `Checked.Stops` : the reading stopped;
* `Checked.stops_seq`, `Checked.stops_andThen`, ... : when the combinators stop;
* `Entries.stops_optional`, `Document.stops_asRecord`, `Loading.stops_list` : when the readers of
  fields, records and lists stop.
-/
import PgSchema.Loading.Record

namespace PgSchema

variable {α β : Type}

/-! ## Combinators -/

namespace Checked

/-- Holds when the reading stopped for want of a number. -/
def Stops (c : Checked α) : Prop := c = failed .missingNumber

@[simp] theorem not_stops_ok (a : α) : ¬ (ok a).Stops := by simp [Stops]

@[simp] theorem not_stops_pure (a : α) : ¬ (pure a : Checked α).Stops := not_stops_ok a

@[simp] theorem not_stops_faults (found : List Fault) :
    ¬ (failed (.faults found) : Checked α).Stops := by
  simp [Stops]

@[simp] theorem not_stops_fault (cause : Cause) : ¬ (fault cause : Checked α).Stops :=
  not_stops_faults _

@[simp] theorem not_stops_ofRule (x : Except BrokenRule α) : ¬ (ofRule x).Stops := by
  cases x
  · exact not_stops_fault _
  · exact not_stops_ok _

@[simp] theorem stops_map (f : α → β) (c : Checked α) : (f <$> c).Stops ↔ c.Stops := by
  cases c <;> simp [Stops, Functor.map, map]

@[simp] theorem stops_seq (f : Checked (α → β)) (c : Checked α) :
    (f <*> c).Stops ↔ f.Stops ∨ c.Stops := by
  cases f <;> cases c <;> simp [Stops, Seq.seq, seq]
  case failed.failed e e' => cases e <;> cases e' <;> simp [LoadError.merge]

@[simp] theorem stops_under (place : Place) (c : Checked α) :
    (c.under place).Stops ↔ c.Stops := by
  cases c with
  | ok a => simp
  | failed e => cases e <;> simp [Stops, under, LoadError.under]

theorem stops_andThen (c : Checked α) (next : α → Checked β) :
    (c.andThen next).Stops ↔ c.Stops ∨ ∃ a, c = ok a ∧ (next a).Stops := by
  cases c <;> simp [andThen, Stops]

/-- A step that cannot stop adds nothing to the one before it. -/
theorem stops_andThen_of_not_stops {c : Checked α} {next : α → Checked β}
    (h : ∀ a, ¬ (next a).Stops) : (c.andThen next).Stops ↔ c.Stops := by
  simp [stops_andThen, h]

end Checked

/-! ## Scalars -/

namespace Loading

@[simp] theorem not_stops_text (d : Document) : ¬ (text d).Stops := by
  cases d <;> simp [text]

@[simp] theorem not_stops_nonemptyText (d : Document) : ¬ (nonemptyText d).Stops := by
  rw [nonemptyText, Checked.stops_andThen_of_not_stops]
  · exact not_stops_text d
  · intro s
    split <;> simp

theorem not_stops_flagOfInteger (n : Int) : ¬ (flagOfInteger n).Stops := by
  rw [flagOfInteger]
  repeat' split
  all_goals simp

@[simp] theorem not_stops_flag (d : Document) : ¬ (flag d).Stops := by
  cases d with
  | integer n => exact not_stops_flagOfInteger n
  | float x =>
    rw [flag]
    split
    · exact not_stops_flagOfInteger _
    · simp
  | text s =>
    rw [flag]
    split <;> simp
  | null | flag | list | record => simp [flag]

theorem not_stops_integerOfText (s : String) : ¬ (integerOfText s).Stops := by
  simp only [integerOfText]
  repeat' split
  all_goals simp

@[simp] theorem not_stops_integer (d : Document) : ¬ (integer d).Stops := by
  cases d with
  | text s => exact not_stops_integerOfText s
  | float x =>
    rw [integer]
    repeat' split
    all_goals simp
  | null | flag | integer | list | record => simp [integer]

@[simp] theorem not_stops_positive (d : Document) : ¬ (positive d).Stops := by
  rw [positive, Checked.stops_andThen_of_not_stops]
  · exact not_stops_integer d
  · intro n
    split <;> simp

@[simp] theorem not_stops_natural (d : Document) : ¬ (natural d).Stops := by
  rw [natural, Checked.stops_andThen_of_not_stops]
  · exact not_stops_integer d
  · intro n
    split <;> simp

@[simp] theorem not_stops_float (d : Document) : ¬ (float d).Stops := by
  cases d with
  | integer n =>
    simp only [float]
    split <;> simp
  | text s =>
    rw [float]
    split <;> simp
  | null | flag | float | list | record => simp [float]

@[simp] theorem not_stops_member [Vocabulary α] (d : Document) :
    ¬ (member d : Checked α).Stops := by
  cases d with
  | text s =>
    rw [member]
    split <;> simp
  | null | flag | integer | float | list | record => simp [member]

/-! ## Lists -/

theorem stops_itemsFrom {read : Document → Checked α} {position : Nat} {items : List Document} :
    (itemsFrom read position items).Stops ↔ ∃ d ∈ items, (read d).Stops := by
  induction items generalizing position with
  | nil => simp [itemsFrom]
  | cons d ds ih => simp [itemsFrom, ih]

theorem stops_list {read : Document → Checked α} {d : Document} :
    (list read d).Stops ↔ ∃ items, d = .list items ∧ ∃ item ∈ items, (read item).Stops := by
  cases d with
  | list items => simp [list, stops_itemsFrom]
  | null | flag | integer | float | text | record => simp [list]

@[simp] theorem not_stops_texts (d : Document) : ¬ (texts d).Stops := by
  simp [texts, stops_list]

@[simp] theorem not_stops_oneOrMoreTexts (d : Document) : ¬ (oneOrMoreTexts d).Stops := by
  cases d with
  | text s => simp [oneOrMoreTexts]
  | null | flag | integer | float | list | record => exact not_stops_texts _

theorem stops_orNull {read : Document → Checked α} {d : Document} :
    (orNull read d).Stops ↔ d ≠ .null ∧ (read d).Stops := by
  cases d <;> simp [orNull]

end Loading

/-! ## Records -/

namespace Entries

variable {entries : Entries} {field : FieldName} {read : Document → Checked α}

@[simp] theorem stops_required :
    (entries.required field read).Stops ↔
      ∃ entry, field.locate? entries = some entry ∧ (read entry.2).Stops := by
  rw [required]
  split
  · next key value hlocate => simp [hlocate]
  · next hlocate => simp [hlocate]

@[simp] theorem stops_optional {default : α} :
    (entries.optional field default read).Stops ↔
      ∃ entry, field.locate? entries = some entry ∧ (read entry.2).Stops := by
  rw [optional]
  split
  · next key value hlocate => simp [hlocate]
  · next hlocate => simp [hlocate]

@[simp] theorem stops_nullable :
    (entries.nullable field read).Stops ↔
      ∃ entry, field.locate? entries = some entry ∧ entry.2 ≠ .null ∧ (read entry.2).Stops := by
  simp [nullable, Loading.stops_orNull]

@[simp] theorem not_stops_closed (fields : List FieldName) : ¬ (entries.closed fields).Stops := by
  rw [closed]
  split <;> simp

@[simp] theorem stops_asRecord {fields : List FieldName} {body : Entries → Checked α} :
    (entries.asRecord fields body).Stops ↔ (body entries).Stops := by
  simp [asRecord]

@[simp] theorem not_stops_tagged (tag : String) : ¬ (entries.tagged tag).Stops := by
  rw [tagged, stops_optional]
  rintro ⟨⟨key, value⟩, -, hstops⟩
  cases value with
  | text s =>
    simp only at hstops
    split at hstops <;> simp at hstops
  | null | flag | integer | float | list | record => simp at hstops

end Entries

namespace Document

theorem stops_asRecord {d : Document} {fields : List FieldName} {body : Entries → Checked α} :
    (d.asRecord fields body).Stops ↔ ∃ entries, d = .record entries ∧ (body entries).Stops := by
  cases d with
  | record entries => simp [asRecord]
  | null | flag | integer | float | text | list => simp [asRecord]

/-- A tagged record stops only if the reader of its tag does. -/
theorem not_stops_byTag {d : Document} {variant? : String → Option (Entries → Checked α)}
    (h : ∀ tag, ∀ read ∈ variant? tag, ∀ entries, d = .record entries → ¬ (read entries).Stops) :
    ¬ (d.byTag variant?).Stops := by
  cases d with
  | record entries =>
    rw [byTag]
    split
    · simp
    · next tag _ =>
      split
      · next read hread => simpa using h tag read hread entries rfl
      · simp
    · simp
  | null | flag | integer | float | text | list => simp [byTag]

end Document
end PgSchema
