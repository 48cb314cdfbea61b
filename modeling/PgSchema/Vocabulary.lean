/-
# Closed vocabularies

A type whose values are the words of a closed list.  Words are read and written exactly as
spelled.
-/

namespace PgSchema

/-- A type whose values are spelled by the words of a closed list. -/
class Vocabulary (α : Type) where
  /-- The values, in the order in which they are listed. -/
  all : List α
  /-- The word for a value. -/
  word : α → String

namespace Vocabulary

/-- The value that a word spells. -/
def ofWord? [Vocabulary α] (s : String) : Option α :=
  (all : List α).find? fun a => word a == s

/-- The words of the list. -/
def words (α : Type) [Vocabulary α] : List String := (all : List α).map word

theorem word_of_ofWord? [Vocabulary α] {s : String} {a : α} (h : ofWord? s = some a) :
    word a = s := by
  simpa using List.find?_some h

end Vocabulary

/-- A vocabulary whose words spell different values. -/
class LawfulVocabulary (α : Type) [Vocabulary α] : Prop where
  /-- The word for a value spells that value. -/
  ofWord?_word : ∀ a : α, Vocabulary.ofWord? (Vocabulary.word a) = some a

end PgSchema
