/-
# Reading scalars and lists

The readers of texts, flags, numbers, words of a vocabulary and lists.  Flags and numbers are
also read from the scalars that stand for them: `"yes"`, `1`, `"2.50"`.
-/
import PgSchema.Document
import PgSchema.Loading.Checked
import PgSchema.Number.FloatReader
import PgSchema.Vocabulary

namespace PgSchema.Loading

open Number Text

/-- Reads a text. -/
def text : Document → Checked String
  | .text s => .ok s
  | _ => .fault .notText

/-- A text that is not empty. -/
structure NonemptyText where
  value : String
  nonempty : value ≠ ""

/-- Reads a text that is not empty. -/
def nonemptyText (d : Document) : Checked NonemptyText :=
  (text d).andThen fun s => if h : s = "" then .fault .emptyText else .ok ⟨s, h⟩

/-- Reads `null` as nothing. -/
def orNull (read : Document → Checked α) : Document → Checked (Option α)
  | .null => .ok none
  | d => some <$> read d

/-! ## Flags -/

/-- The flag that a word stands for, in any case. -/
def flagOfWord? (s : String) : Option Bool :=
  match String.ofList (s.toList.map Char.toLower) with
  | "1" | "on" | "t" | "true" | "y" | "yes" => some true
  | "0" | "off" | "f" | "false" | "n" | "no" => some false
  | _ => none

/-- The flag that a whole number stands for.  A number of more than 64 bits is not looked at. -/
def flagOfInteger (n : Int) : Checked Bool :=
  if n = 0 then .ok false
  else if n = 1 then .ok true
  else if n.natAbs < Nat.pow 2 63 then .fault .unreadableFlag
  else .fault .notFlag

/-- Reads a flag. -/
def flag : Document → Checked Bool
  | .flag b => .ok b
  | .integer n => flagOfInteger n
  | .float x =>
    match wholeValue? x with
    | some n => flagOfInteger n
    | none => .fault .notFlag
  | .text s =>
    match flagOfWord? s with
    | some b => .ok b
    | none => .fault .unreadableFlag
  | _ => .fault .notFlag

/-! ## Numbers -/

/-- Removes a point followed by one or more zeros and nothing else. -/
def dropZeroFraction (cs : List Char) : List Char :=
  match cs.dropWhile (· != '.') with
  | _ :: fraction =>
    if !fraction.isEmpty && fraction.all (· == '0') then cs.takeWhile (· != '.') else cs
  | [] => cs

/-- Reads the integer that a text stands for: ASCII digits, perhaps with a sign, underscores and
a fraction of zeros. -/
def integerOfText (s : String) : Checked Int :=
  let (negative, digits) := splitSign (trimWhere isWhiteSpace s.toList)
  if digits.length > maxDigits then .fault .integerTooLarge
  else
    match digitValues? asciiDigit? (dropZeroFraction digits) with
    | some values => .ok (ofSignedDigits negative values)
    | none => .fault .unreadableInteger

/-- Reads an integer. -/
def integer : Document → Checked Int
  | .integer n => .ok n
  | .flag b => .ok (if b then 1 else 0)
  | .float x =>
    if !isFinite x then .fault .infiniteInteger
    else
      match wholeValue? x with
      | some n => if n.natAbs < Nat.pow 2 63 then .ok n else .fault .integerTooLarge
      | none => .fault .fractionalInteger
  | .text s => integerOfText s
  | _ => .fault .notInteger

/-- Reads a positive integer. -/
def positive (d : Document) : Checked { n : Nat // 0 < n } :=
  (integer d).andThen fun n =>
    if h : 0 < n then .ok ⟨n.toNat, by omega⟩ else .fault .notPositive

/-- Reads a natural number. -/
def natural (d : Document) : Checked Nat :=
  (integer d).andThen fun n => if 0 ≤ n then .ok n.toNat else .fault .negative

/-- Reads a floating-point number; an integer is rounded to the nearest. -/
def float : Document → Checked Float
  | .float x => .ok x
  | .integer n =>
    let x := Float.ofInt n
    if isFinite x then .ok x else .fault .notFloat
  | .flag b => .ok (if b then 1.0 else 0.0)
  | .text s =>
    match readFloat? s with
    | some x => .ok x
    | none => .fault .unreadableFloat
  | _ => .fault .notFloat

/-! ## Words and lists -/

/-- Reads a word of a vocabulary. -/
def member [Vocabulary α] : Document → Checked α
  | .text s =>
    match Vocabulary.ofWord? s with
    | some a => .ok a
    | none => .fault .notMember
  | _ => .fault .notMember

/-- The word for a value is read as that value. -/
theorem member_word [Vocabulary α] [LawfulVocabulary α] (a : α) :
    member (.text (Vocabulary.word a)) = .ok a := by
  simp [member, LawfulVocabulary.ofWord?_word]

/-- Reads the items of a list, the first of which has the given position. -/
def itemsFrom (read : Document → Checked α) (position : Nat) : List Document → Checked (List α)
  | [] => .ok []
  | d :: ds =>
    List.cons <$> (read d).under (.position position) <*> itemsFrom read (position + 1) ds

/-- A list written item by item is read back if each of its items is. -/
theorem itemsFrom_map {read : Document → Checked α} {write : α → Document} {xs : List α}
    (h : ∀ x ∈ xs, read (write x) = .ok x) (position : Nat) :
    itemsFrom read position (xs.map write) = .ok xs := by
  induction xs generalizing position with
  | nil => rfl
  | cons x xs ih =>
    have first : read (write x) = .ok x := h x List.mem_cons_self
    have others := ih (fun y hy => h y (List.mem_cons_of_mem x hy)) (position + 1)
    rw [List.map_cons, itemsFrom, first, others]
    rfl

/-- Reads a list. -/
def list (read : Document → Checked α) : Document → Checked (List α)
  | .list items => itemsFrom read 0 items
  | _ => .fault .notList

/-- Reads a list of texts. -/
def texts : Document → Checked (List String) := list text

/-- Reads a list of texts, or a single text as a list of one. -/
def oneOrMoreTexts : Document → Checked (List String)
  | .text s => .ok [s]
  | d => texts d

end PgSchema.Loading
