/-
# Lines of a statement

The body of a `CREATE TABLE` statement gets one line for each element.  A long policy, index or
foreign key statement is wrapped before its clauses.  Any other statement stays on one line.
-/
import PgSchema.Layout.Canonical
import PgSchema.Text.Word

namespace PgSchema.Layout

open Text

/-- The longest line that is not wrapped. -/
def maxLineLength : Nat := 100

/-- The indentation of elements and clauses. -/
def indent : List Char := [' ', ' ']

/-! ## Table bodies -/

/-- The text up to the parenthesis that closes the innermost of `depth + 1` open ones, and the
text after it. -/
def splitClosing (depth : Nat) : List Char → Option (List Char × List Char)
  | [] => none
  | c :: cs =>
    if c == ')' then
      match depth with
      | 0 => some ([], cs)
      | depth + 1 => (splitClosing depth cs).map fun (body, rest) => (c :: body, rest)
    else
      (splitClosing (if c == '(' then depth + 1 else depth) cs).map
        fun (body, rest) => (c :: body, rest)

/-- The elements of a body: the text between the commas outside parentheses. -/
def splitElements (depth : Nat) : List Char → List (List Char)
  | [] => [[]]
  | c :: cs =>
    if c == ',' && depth = 0 then [] :: splitElements 0 cs
    else
      let depth := if c == '(' then depth + 1 else if c == ')' then depth - 1 else depth
      match splitElements depth cs with
      | [] => [[c]]
      | element :: elements => (c :: element) :: elements

/-- A statement with the elements of its first parentheses on lines of their own. -/
def arrangeTable (cs : List Char) : List Char :=
  let head := cs.takeWhile (· != '(')
  match cs.dropWhile (· != '(') with
  | [] => cs
  | _ :: inside =>
    match splitClosing 0 inside with
    | none => cs
    | some (body, rest) =>
      let elements := (splitElements 0 body).map (trimWhere isBlank)
      if elements.all (·.isEmpty) then cs
      else
        let tail := trimWhere isBlank rest
        let closing := if tail.isEmpty || tail.head? == some ';' then [')'] else [')', '\n']
        trimEndWhere isBlank head ++ [' ', '(', '\n'] ++
          [',', '\n'].intercalate (elements.map (indent ++ ·)) ++ '\n' :: closing ++ tail

/-! ## Clauses -/

/-- Holds when the text starts with the keyword and the word ends there. -/
def startsWithKeyword (cs keyword : List Char) : Bool :=
  match dropStart? keyword cs with
  | some rest => !rest.head?.any isWord
  | none => false

/-- Breaks the line before the first occurrence of each keyword outside parentheses. -/
def wrapFrom (depth : Int) (keywords : List (List Char)) : List Char → List Char
  | [] => []
  | c :: cs =>
    if c == '(' then c :: wrapFrom (depth + 1) keywords cs
    else if c == ')' then c :: wrapFrom (depth - 1) keywords cs
    else if c == ' ' && depth = 0 then
      match keywords.find? (startsWithKeyword cs) with
      | some keyword => '\n' :: indent ++ wrapFrom depth (keywords.erase keyword) cs
      | none => c :: wrapFrom depth keywords cs
    else c :: wrapFrom depth keywords cs

/-- The clauses of a policy. -/
def policyClauses : List String := ["AS", "FOR", "TO", "USING", "WITH CHECK"]

/-- The clauses of an index. -/
def indexClauses : List String := ["USING", "INCLUDE", "WITH", "TABLESPACE", "WHERE"]

/-- The clauses of a foreign key. -/
def foreignKeyClauses : List String :=
  ["FOREIGN KEY", "REFERENCES", "ON DELETE", "ON UPDATE", "DEFERRABLE", "NOT VALID"]

/-- The text after a start and a word behind it. -/
def dropStartAndWord? (start cs : List Char) : Option (List Char) :=
  (dropStart? start cs).bind fun rest =>
    let name := rest.takeWhile (!isBlank ·)
    if name.isEmpty then none else some (rest.drop name.length)

/-- The clauses before which a statement may be wrapped. -/
def clausesOf (cs : List Char) : List String :=
  let foreignKey? :=
    (dropStartAndWord? "ALTER TABLE ".toList cs).bind
      (dropStartAndWord? " ADD CONSTRAINT ".toList)
  if startsWithKeyword cs "CREATE POLICY".toList then policyClauses
  else if startsWithKeyword cs "CREATE INDEX".toList ||
      startsWithKeyword cs "CREATE UNIQUE INDEX".toList then indexClauses
  else if foreignKey?.any (startsWithKeyword · " FOREIGN KEY".toList) then foreignKeyClauses
  else []

/-! ## Statements -/

/-- The length of the comment mask that starts the text, with the space after a block comment. -/
def leadingMask? : List Char → Option Nat
  | [] => none
  | c :: cs =>
    let digits := cs.takeWhile isDecimalDigit
    match cs.dropWhile isDecimalDigit with
    | d :: rest =>
      if (c == lineMark || c == blockMark) && !digits.isEmpty && d == c then
        if c == blockMark && rest.head? == some ' ' then some (digits.length + 3)
        else some (digits.length + 2)
      else none
    | [] => none

/-- The length of the comment masks that start the text, the first `skip` characters of which
are known to belong to them. -/
def leadingMasksFrom (skip : Nat) : List Char → Nat
  | [] => 0
  | c :: cs =>
    match skip with
    | skip + 1 => 1 + leadingMasksFrom skip cs
    | 0 =>
      match leadingMask? (c :: cs) with
      | some n => 1 + leadingMasksFrom (n - 1) cs
      | none => 0

/-- Arranges a masked statement that no comment precedes. -/
def arrangeBare (segments : List (List Char)) (cs : List Char) :
    Except MaskError (List Char) :=
  if "CREATE TABLE ".toList.isPrefixOf cs then .ok (arrangeTable cs)
  else do
    if (← unmask segments cs).length ≤ maxLineLength then return cs
    else return wrapFrom 0 ((clausesOf cs).map String.toList) cs

/-- Arranges a masked statement; the comments before it stay as they are. -/
def arrange (segments : List (List Char)) (cs : List Char) : Except MaskError (List Char) :=
  let n := leadingMasksFrom 0 cs
  (arrangeBare segments (cs.drop n)).map (cs.take n ++ ·)

end PgSchema.Layout
