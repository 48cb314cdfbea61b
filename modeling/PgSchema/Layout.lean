/-
# Layout of SQL scripts

`Layout.format` changes the white space of a script: a blank line between statements, one
element to a line in table bodies, long statements wrapped before their clauses.  Quoted text
and comments stay as they are, and so does a script that cannot be cut into lexemes.
-/
import PgSchema.Layout.Arrange

namespace PgSchema.Layout

open Sql

/-- What became of a script. -/
inductive Outcome
  /-- The script in its new layout. -/
  | arranged (text : String)
  /-- The script cannot be cut into lexemes and stays as it is. -/
  | unreadable (why : LexError)

/-- The layout of a script given by its pieces. -/
def ofPieces (pieces : List Piece) : Except MaskError (List Char) := do
  let kept := segments pieces
  let arranged ← (statements (mask pieces)).mapM (arrange kept)
  unmask kept (['\n', '\n'].intercalate arranged)

/-- Lays a script out, if it can be read. -/
def layOut (s : String) : Except MaskError Outcome :=
  match Lexeme.scan s.toList with
  | .error why => .ok (.unreadable why)
  | .ok ℓs => (ofPieces (Piece.ofLexemes ℓs)).map fun cs => .arranged (String.ofList cs)

/-- The script in its layout; a script that cannot be read is returned unchanged. -/
def format (s : String) : Except MaskError String :=
  (layOut s).map fun
    | .arranged text => text
    | .unreadable _ => s

end PgSchema.Layout
