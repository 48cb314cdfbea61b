/-
# Quoted text in messages

A message shows a text between single quotes, or between double quotes if it holds single
quotes and no double ones.  Backslashes, line breaks and characters that cannot be shown are
escaped.
-/
import PgSchema.Text.Printable

namespace PgSchema.Text

/-- The hexadecimal digits of a number, padded with zeros to a width. -/
def hexadecimal (width n : Nat) : String :=
  let digits := String.ofList (Nat.toDigits 16 n)
  String.ofList (List.replicate (width - digits.length) '0') ++ digits

/-- One character inside quotes of the given kind. -/
def quotedChar (quote : Char) (c : Char) : String :=
  if c == quote || c == '\\' then String.ofList ['\\', c]
  else if c == '\t' then "\\t"
  else if c == '\n' then "\\n"
  else if c == '\r' then "\\r"
  else if isPrintable c then String.singleton c
  else if c.toNat < 0x100 then "\\x" ++ hexadecimal 2 c.toNat
  else if c.toNat < 0x10000 then "\\u" ++ hexadecimal 4 c.toNat
  else "\\U" ++ hexadecimal 8 c.toNat

/-- The quote that needs the fewest escapes; single quotes unless only double ones are free. -/
def quoteFor (s : String) : Char :=
  if s.toList.contains '\'' && !s.toList.contains '"' then '"' else '\''

/-- The text as a message shows it. -/
def quoted (s : String) : String :=
  let quote := quoteFor s
  String.singleton quote ++ String.join (s.toList.map (quotedChar quote)) ++
    String.singleton quote

end PgSchema.Text
