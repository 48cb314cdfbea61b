/-
# Pieces of a script

For its layout a script is cut into pieces: text whose white space may change, and segments that
stay as they are, namely quoted text and comments.  After a word that starts a command the rest
of the statement is not looked into; its last lexeme stays as it is.
-/
import PgSchema.Sql.Lexeme

namespace PgSchema.Layout

open Sql

/-- A piece of a script. -/
inductive Piece
  /-- Text whose white space may change. -/
  | loose (text : List Char)
  /-- A segment of quoted text. -/
  | quoted (text : List Char)
  /-- A comment that ends with its line. -/
  | lineComment (text : List Char)
  | blockComment (text : List Char)
deriving DecidableEq, Repr

namespace Piece

/-- The text of a piece. -/
def text : Piece → List Char
  | loose text => text
  | quoted text => text
  | lineComment text => text
  | blockComment text => text

/-- The text that a piece keeps as it is, if it keeps any. -/
def kept? : Piece → Option (List Char)
  | loose _ => none
  | quoted text => some text
  | lineComment text => some text
  | blockComment text => some text

/-! ## Comments between tokens -/

/-- The length of a line comment after its mark, with the line feed that ends it. -/
def lineLength : List Char → Nat
  | [] => 0
  | c :: cs => if c == '\n' then 1 else 1 + lineLength cs

/-- The length of a block comment after its mark: to the first closing mark, or to the end. -/
def blockLength : List Char → Nat
  | [] => 0
  | c :: cs => if c == '*' && cs.head? == some '/' then 2 else 1 + blockLength cs

/-- The comment that starts with `c`: its kind, and how many characters of `cs` belong to it. -/
def comment? (c : Char) (cs : List Char) : Option ((List Char → Piece) × Nat) :=
  match c, cs with
  | '-', '-' :: cs => some (lineComment, 1 + lineLength cs)
  | '/', '*' :: cs => some (blockComment, 1 + blockLength cs)
  | _, _ => none

/-- The pieces of the text between two tokens, the first `skip` characters of which have been
taken already. -/
def ofGapFrom (skip : Nat) : List Char → List Piece
  | [] => []
  | c :: cs =>
    match skip with
    | skip + 1 => ofGapFrom skip cs
    | 0 =>
      match comment? c cs with
      | some (kind, n) => kind (c :: cs.take n) :: ofGapFrom n cs
      | none => loose [c] :: ofGapFrom 0 cs

/-- The pieces of the text between two tokens. -/
def ofGap (gap : List Char) : List Piece := ofGapFrom 0 gap

/-! ## Commands -/

/-- Where the cutting stands: between tokens, with the gap so far, or inside a command, with its
lexemes so far, latest first.  `fresh` holds where a command may start. -/
inductive Place
  | between (gap : List Char) (fresh : Bool)
  | command (body : List Lexeme)

/-- The pieces of the rest of a command, and the gap left at its end: its last lexeme is a
segment, empty if that lexeme is a run of blanks, and all before it is gap. -/
def ofCommand (body : List Lexeme) : List Piece × List Char :=
  let text := body.reverse.flatMap (·.text)
  match body with
  | [] => ([], [])
  | last :: before =>
    if text.all Text.isBlank then ([], text)
    else if last.kind = .blank then (ofGap text ++ [quoted []], [])
    else (ofGap (before.reverse.flatMap (·.text)) ++ [quoted last.text], [])

/-- The pieces of the lexemes from a place on. -/
def ofLexemesFrom : Place → List Lexeme → List Piece
  | .between gap _, [] => ofGap gap
  | .command body, [] =>
    let (pieces, gap) := ofCommand body
    pieces ++ ofGap gap
  | .between gap fresh, ℓ :: ℓs =>
    match ℓ.kind with
    | .blank | .lineBreak | .comment => ofLexemesFrom (.between (gap ++ ℓ.text) fresh) ℓs
    | .quoted => ofGap gap ++ quoted ℓ.text :: ofLexemesFrom (.between [] false) ℓs
    | .plain | .parameter => ofGap gap ++ loose ℓ.text :: ofLexemesFrom (.between [] false) ℓs
    | .semicolon | .opening =>
      ofGap gap ++ loose ℓ.text :: ofLexemesFrom (.between [] true) ℓs
    | .command =>
      ofGap gap ++ loose ℓ.text ::
        ofLexemesFrom (if fresh then .command [] else .between [] false) ℓs
  | .command body, ℓ :: ℓs =>
    if ℓ.kind = .semicolon then
      let (pieces, gap) := ofCommand body
      pieces ++ ofGap gap ++ loose ℓ.text :: ofLexemesFrom (.between [] true) ℓs
    else ofLexemesFrom (.command (ℓ :: body)) ℓs

/-- The pieces of the lexemes of a script. -/
def ofLexemes (ℓs : List Lexeme) : List Piece := ofLexemesFrom (.between [] true) ℓs

end Piece
end PgSchema.Layout
