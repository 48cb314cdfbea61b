/-
# Referential actions

What a foreign key does when the row that it refers to is deleted or its key changes.
-/
import PgSchema.Loading.Checked
import PgSchema.Text.Blank
import PgSchema.Text.Case
import PgSchema.Text.Search
import PgSchema.Vocabulary

namespace PgSchema

/-- The referential actions. -/
inductive ReferentialAction
  /-- Leave the check to the end of the statement; the default of the database. -/
  | noAction
  /-- Refuse the change while dependent rows exist. -/
  | restrict
  /-- Carry the change over to dependent rows. -/
  | cascade
  | setNull
  | setDefault
deriving DecidableEq, Repr

namespace ReferentialAction

/-- The word for an action. -/
def word : ReferentialAction → String
  | noAction => "no-action"
  | restrict => "restrict"
  | cascade => "cascade"
  | setNull => "set-null"
  | setDefault => "set-default"

/-- The actions. -/
def all : List ReferentialAction := [noAction, restrict, cascade, setNull, setDefault]

instance : Vocabulary ReferentialAction := ⟨all, word⟩

instance : LawfulVocabulary ReferentialAction := ⟨fun action => by cases action <;> rfl⟩

/-- The action in SQL. -/
def sql : ReferentialAction → String
  | noAction => "NO ACTION"
  | restrict => "RESTRICT"
  | cascade => "CASCADE"
  | setNull => "SET NULL"
  | setDefault => "SET DEFAULT"

/-- The text without the marks that may separate its words. -/
def compact (s : String) : String :=
  String.ofList (s.toList.filter fun c => c != '_' && c != '-' && c != ' ')

/-- Reads an action in any spelling: `set-null`, `SET NULL`, `SetNull`. -/
def read (s : String) : Except BrokenRule ReferentialAction :=
  let written := compact (Text.lower (Text.trim s))
  match all.find? fun action => compact action.word == written with
  | some action => .ok action
  | none => .error (.unknownAction s)

/-- Holds when a column with these properties can take the action. -/
def suits (action : ReferentialAction) (nullable hasDefault : Bool) : Bool :=
  match action with
  | setNull => nullable
  | setDefault => hasDefault
  | _ => true

/-- What the action asks of the column. -/
def requirements : ReferentialAction → List String
  | setNull => ["Column must be nullable"]
  | setDefault => ["Column must have a default value"]
  | _ => []

end ReferentialAction
end PgSchema
