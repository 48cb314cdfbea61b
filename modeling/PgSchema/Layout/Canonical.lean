/-
# Statements on one line

The canonical form of a masked statement: words with single spaces between them, and no space
after an opening parenthesis, before a closing one, before a comma or semicolon, or after a line
comment, which brings its own line end.
-/
import PgSchema.Layout.Mask

namespace PgSchema.Layout

open Text

/-- Words with single spaces between them. -/
def singleSpaced (cs : List Char) : List Char := [' '].intercalate (words cs)

/-- Drops a space after an opening parenthesis. -/
def dropAfterOpening : List Char → List Char
  | [] => []
  | [c] => [c]
  | c :: d :: cs =>
    if c == '(' && d == ' ' then '(' :: dropAfterOpening cs
    else c :: dropAfterOpening (d :: cs)

/-- Drops a space before the characters that satisfy `p`. -/
def dropBefore (p : Char → Bool) : List Char → List Char
  | [] => []
  | c :: cs => if c == ' ' && cs.head?.any p then dropBefore p cs else c :: dropBefore p cs

/-- The length of the mask of a line comment at the start of the text, if a space follows it. -/
def spacedLineMask? : List Char → Option Nat
  | [] => none
  | c :: cs =>
    let digits := cs.takeWhile isDecimalDigit
    if c == lineMark && !digits.isEmpty &&
        [lineMark, ' '].isPrefixOf (cs.dropWhile isDecimalDigit) then
      some (digits.length + 2)
    else none

/-- Drops a space after the mask of a line comment.  The first `copied` characters belong to a
mask with a space after it. -/
def dropAfterLineMaskFrom (copied : Nat) : List Char → List Char
  | [] => []
  | c :: cs =>
    match copied with
    | 1 => dropAfterLineMaskFrom 0 cs
    | copied + 1 => c :: dropAfterLineMaskFrom copied cs
    | 0 =>
      match spacedLineMask? (c :: cs) with
      | some n => c :: dropAfterLineMaskFrom n cs
      | none => c :: dropAfterLineMaskFrom 0 cs

/-- Drops a space after the mask of a line comment. -/
def dropAfterLineMask (cs : List Char) : List Char := dropAfterLineMaskFrom 0 cs

/-- The canonical form of a masked statement. -/
def canonical (cs : List Char) : List Char :=
  dropAfterLineMask <| dropBefore (fun c => c == ',' || c == ';') <| dropBefore (· == ')') <|
    dropAfterOpening <| singleSpaced cs

/-- Cuts a masked script after each semicolon. -/
def splitAfterSemicolons : List Char → List (List Char)
  | [] => [[]]
  | c :: cs =>
    if c == ';' then [c] :: splitAfterSemicolons cs
    else
      match splitAfterSemicolons cs with
      | [] => [[c]]
      | statement :: statements => (c :: statement) :: statements

/-- The statements of a masked script in canonical form, empty ones left out. -/
def statements (masked : List Char) : List (List Char) :=
  ((splitAfterSemicolons masked).map canonical).filter (!·.isEmpty)

end PgSchema.Layout
