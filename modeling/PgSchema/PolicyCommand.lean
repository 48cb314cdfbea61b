/-
# Policy commands

The commands that a row security policy applies to.
-/
import PgSchema.Vocabulary

namespace PgSchema

/-- The commands that a policy applies to. -/
inductive PolicyCommand
  | all | select | insert | update | delete
deriving DecidableEq, Repr

namespace PolicyCommand

/-- The word for a command. -/
def word : PolicyCommand → String
  | all => "all"
  | select => "select"
  | insert => "insert"
  | update => "update"
  | delete => "delete"

instance : Vocabulary PolicyCommand := ⟨[.all, .select, .insert, .update, .delete], word⟩

instance : LawfulVocabulary PolicyCommand := ⟨fun command => by cases command <;> rfl⟩

/-- The command in SQL. -/
def sql : PolicyCommand → String
  | all => "ALL"
  | select => "SELECT"
  | insert => "INSERT"
  | update => "UPDATE"
  | delete => "DELETE"

/-- Holds for the commands that write rows, which alone can check them. -/
def allowsCheck : PolicyCommand → Bool
  | all | insert | update => true
  | select | delete => false

end PolicyCommand
end PgSchema
