/-
# Definitions

Types whose values are read from documents and written back.  `Definition.evolve` replaces fields
of a value by name and checks the result like any other definition.
-/
import PgSchema.Loading.Record

namespace PgSchema

/-- A type of values that are read from documents and written to them. -/
class Definition (α : Type) where
  /-- Reads a value. -/
  load : Document → Checked α
  /-- Writes a value. -/
  save : Style → α → Document
  /-- Reads a changed value: one of several variants stays the variant that it is. -/
  reload : α → Document → Checked α := fun _ => load

/-- The value with the given fields replaced, checked anew. -/
def Definition.evolve [Definition α] (a : α) (changes : Entries) : Checked α :=
  reload a ((save .internal a).changed changes)

end PgSchema
