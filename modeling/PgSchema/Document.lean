/-
# Documents

The values that definitions are written in: a document is a scalar, a list, or a record whose
entries keep the order in which they were written.  Integers are unbounded and distinct from
floating-point numbers.
-/
import PgSchema.Number.FloatText
import PgSchema.Text.Quoted

namespace PgSchema

/-- A value of a definition file. -/
inductive Document
  | null
  | flag (value : Bool)
  | integer (value : Int)
  | float (value : Float)
  | text (value : String)
  | list (items : List Document)
  | record (entries : List (String × Document))
deriving Inhabited

/-- The entries of a record, in the order in which they were written. -/
abbrev Entries := List (String × Document)

namespace Entries

/-- The value under a key. -/
def find? (entries : Entries) (key : String) : Option Document :=
  (List.find? (fun entry => entry.1 == key) entries).map (·.2)

/-- Holds when the key is present. -/
def has (entries : Entries) (key : String) : Bool := (entries.find? key).isSome

/-- Puts a value under a key: in the place of the present value, else at the end. -/
def put (entries : Entries) (key : String) (value : Document) : Entries :=
  match entries with
  | [] => [(key, value)]
  | entry :: rest =>
    if entry.1 == key then (key, value) :: rest else entry :: put rest key value

/-- Puts every entry of `changes` in turn. -/
def putAll (entries changes : Entries) : Entries :=
  changes.foldl (fun result change => result.put change.1 change.2) entries

end Entries

namespace Document

mutual

/-- The text of a document inside a list or record: texts are quoted. -/
def shown : Document → String
  | .null => "None"
  | .flag true => "True"
  | .flag false => "False"
  | .integer n => toString n
  | .float x => Number.floatText x
  | .text s => Text.quoted s
  | .list items => "[" ++ ", ".intercalate (shownItems items) ++ "]"
  | .record entries => "\x7b" ++ ", ".intercalate (shownEntries entries) ++ "\x7d"

/-- The texts of the items of a list. -/
def shownItems : List Document → List String
  | [] => []
  | item :: items => item.shown :: shownItems items

/-- The texts of the entries of a record. -/
def shownEntries : List (String × Document) → List String
  | [] => []
  | (key, value) :: entries => (Text.quoted key ++ ": " ++ value.shown) :: shownEntries entries

end

/-- The text of a document on its own: a text stands for itself. -/
def printed : Document → String
  | .text s => s
  | d => d.shown

mutual

/-- Equality of documents; numbers are compared bit for bit. -/
def same : Document → Document → Bool
  | .null, .null => true
  | .flag a, .flag b => a == b
  | .integer a, .integer b => a == b
  | .float a, .float b => decide (a = b)
  | .text a, .text b => a == b
  | .list a, .list b => sameItems a b
  | .record a, .record b => sameEntries a b
  | _, _ => false

/-- Equality of lists of documents. -/
def sameItems : List Document → List Document → Bool
  | [], [] => true
  | a :: as, b :: bs => a.same b && sameItems as bs
  | _, _ => false

/-- Equality of entries, in order. -/
def sameEntries : List (String × Document) → List (String × Document) → Bool
  | [], [] => true
  | (j, a) :: as, (k, b) :: bs => j == k && a.same b && sameEntries as bs
  | _, _ => false

end

instance : BEq Document := ⟨same⟩

end Document
end PgSchema
