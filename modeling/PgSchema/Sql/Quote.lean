/-
# SQL quotes

A single quote inside a literal is written twice, so a literal ends at its first lone quote.
-/

namespace PgSchema.Sql

/-- The inside of a literal: every single quote is doubled. -/
def escapeChars : List Char → List Char
  | [] => []
  | c :: cs => if c == '\'' then '\'' :: '\'' :: escapeChars cs else c :: escapeChars cs

/-- The text as it stands inside a single-quoted literal. -/
def escape (s : String) : String := String.ofList (escapeChars s.toList)

/-- The text as a single-quoted literal. -/
def literal (s : String) : String := "'" ++ escape s ++ "'"

end PgSchema.Sql
