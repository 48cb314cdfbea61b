/-
# Type text

Reads types as they are spelled in SQL: `varchar(255)`, `timestamp(3) with time zone`, `text[]`.
`TypeText.parse` takes the text apart; names that are not known become custom types.
-/
import PgSchema.SqlType
import PgSchema.Loading.Checked
import PgSchema.Number.Numeral
import PgSchema.Text.Blank

namespace PgSchema

/-- What a type text without its array brackets says. -/
inductive BaseText
  /-- A known kind with the numbers in its parentheses, if it has any. -/
  | known (kind : Kind) (length precision scale : Option Int)
  /-- Any other text: the name of a custom type. -/
  | custom (name : String)

/-- A type text taken apart: how many pairs of array brackets end it, and what is before them. -/
structure TypeText where
  depth : Nat
  base : BaseText

/-- Why a type text cannot be taken apart. -/
inductive TypeTextError
  /-- A number in the parentheses is malformed. -/
  | badInteger (fault : Number.IntegerFault)
  /-- The parentheses hold commas or blanks only. -/
  | missingNumber

namespace TypeText

open Text

/-- Other spellings of the kinds. -/
def aliases : List (String × Kind) :=
  [("int", .integer), ("int2", .smallint), ("int4", .integer), ("int8", .bigint),
   ("serial4", .serial), ("serial8", .bigserial), ("bool", .boolean), ("float4", .real),
   ("float8", .doublePrecision), ("double", .doublePrecision), ("character varying", .varchar),
   ("character", .char), ("timestamp without time zone", .timestamp),
   ("timestamp with time zone", .timestamptz), ("time without time zone", .time)]

/-- The kind that a name in lower case spells.  Arrays, enums and custom types have no name of
their own in type text. -/
def kindOfName? (name : String) : Option Kind :=
  match aliases.find? fun entry => entry.1 == name with
  | some (_, kind) => some kind
  | none =>
    (Vocabulary.ofWord? name).filter fun kind =>
      kind.family != .array && kind.family != .named

/-- The name with words in lower case and single spaces between them. -/
def normalName (cs : List Char) : String :=
  " ".intercalate ((words (cs.map Char.toLower)).map String.ofList)

/-- A name, and the text between the parentheses that follow it, if there are any. -/
structure NameAndParams where
  name : List Char
  params : Option (List Char)

/-- Holds for the characters of a type name. -/
def isNameChar (c : Char) : Bool := c.isAlphanum || c == '_' || c == ' '

/-- Holds for a name: a letter or underscore, then letters, digits, underscores and spaces. -/
def isName : List Char → Bool
  | [] => false
  | c :: cs => (c.isAlpha || c == '_') && cs.all isNameChar

/-- Splits `name (params)`, where the parenthesis closes at the end of the text and at no
earlier place. -/
def splitParams? (cs : List Char) : Option NameAndParams :=
  let name := trimEndWhere isBlank (cs.takeWhile (· != '('))
  if isName name then
    match cs.dropWhile (· != '(') with
    | [] => some ⟨name, none⟩
    | _ :: inside =>
      if inside.dropWhile (· != ')') == [')'] then
        some ⟨name, some (inside.takeWhile (· != ')'))⟩
      else none
  else none

/-- Holds for a number with blanks around it. -/
def isPaddedNumber (cs : List Char) : Bool :=
  let digits := trimWhere isBlank cs
  !digits.isEmpty && digits.all isDecimalDigit

/-- Splits `timestamp (n) with time zone` and its like, where the parentheses stand inside the
name. -/
def splitZoned? (cs : List Char) : Option NameAndParams :=
  let head := cs.takeWhile Char.isAlpha
  match (cs.dropWhile Char.isAlpha).dropWhile isBlank with
  | '(' :: rest =>
    let inside := rest.takeWhile (· != ')')
    match rest.dropWhile (· != ')') with
    | _ :: blank :: zone =>
      let name := normalName head
      let zoneName := normalName (blank :: zone)
      if (name == "timestamp" || name == "time") && isPaddedNumber inside && isBlank blank &&
          (zoneName == "with time zone" || zoneName == "without time zone") then
        some ⟨head ++ ' ' :: zone, some inside⟩
      else none
    | _ => none
  | _ => none

/-- The numbers of a parameter list; blank pieces do not count. -/
def numbers (params : List Char) : Except Number.IntegerFault (List Int) :=
  ((splitAt ',' params).filter fun piece => !piece.all isBlank).mapM fun piece =>
    Number.readInteger (String.ofList piece)

/-- The parameters of a known kind.  Empty parentheses say nothing. -/
def baseOfParams (kind : Kind) (params : List Char) : Except TypeTextError BaseText :=
  if params.isEmpty then .ok (.known kind none none none)
  else
    match numbers params with
    | .error fault => .error (.badInteger fault)
    | .ok [] => .error .missingNumber
    | .ok (first :: rest) =>
      match kind.family with
      | .exact => .ok (.known kind none (some first) rest.head?)
      | .timed => .ok (.known kind none (some first) none)
      | _ => .ok (.known kind (some first) none none)

/-- Takes a type text without array brackets and outer blanks apart. -/
def parseBase (cs : List Char) : Except TypeTextError BaseText :=
  let custom := BaseText.custom (String.ofList cs)
  match (splitZoned? cs).orElse fun _ => splitParams? cs with
  | none => .ok custom
  | some split =>
    match kindOfName? (normalName split.name) with
    | none => .ok custom
    | some kind => baseOfParams kind (split.params.getD [])

/-- Counts the array brackets at the end of a text and removes them.  The text is given, and
returned, from its end. -/
def splitBrackets (reversed : List Char) : Nat × List Char :=
  match _h : reversed.dropWhile isBlank with
  | ']' :: '[' :: rest =>
    let (depth, base) := splitBrackets rest
    (depth + 1, base)
  | rest => (0, rest)
termination_by reversed.length
decreasing_by
  have := (List.dropWhile_suffix (l := reversed) isBlank).length_le
  rw [_h] at this
  simp at this
  omega

/-- Takes a type text apart. -/
def parse (s : String) : Except TypeTextError TypeText :=
  let (depth, base) := splitBrackets (s.toList.dropWhile isBlank).reverse
  (parseBase base.reverse).map fun base => ⟨depth, base⟩

end TypeText
end PgSchema
