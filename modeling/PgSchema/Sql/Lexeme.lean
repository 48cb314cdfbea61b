/-
# Lexemes of SQL text

`Lexeme.scan` cuts SQL text into lexemes: blanks, comments, quoted text and plain tokens.  The
lexemes of a text, joined in order, are the text.  Text that ends inside a quote or a comment
cannot be cut.
-/
import PgSchema.Number.Numeral
import PgSchema.Text.Blank
import PgSchema.Text.Case
import PgSchema.Text.Search

namespace PgSchema.Sql

/-- Why a text cannot be cut into lexemes. -/
inductive LexError
  /-- A quote, comment or dollar-quoted body is not closed. -/
  | unterminated
  /-- The text ends with a dollar sign. -/
  | strayDollar
  /-- A bit string holds something else than digits of its base. -/
  | badBits
deriving DecidableEq, Repr

/-- What a reader is told. -/
def LexError.message : LexError → String
  | .unterminated => "unterminated quote or comment"
  | .strayDollar => "stray dollar sign at the end"
  | .badBits => "malformed bit string"

/-- The kinds of lexemes. -/
inductive LexemeKind
  /-- A run of spaces and tabs. -/
  | blank
  /-- Any other single blank. -/
  | lineBreak
  | comment
  /-- A literal, a quoted identifier or a dollar-quoted body: text to be kept as it is. -/
  | quoted
  | plain
  /-- A parameter mark: the word after it is no keyword. -/
  | parameter
  | semicolon
  /-- The word `BEGIN`, after which a command may start. -/
  | opening
  /-- A word that starts a command when it comes first. -/
  | command
deriving DecidableEq, Repr

/-- A piece of SQL text with its kind. -/
structure Lexeme where
  kind : LexemeKind
  text : List Char
deriving DecidableEq, Repr

namespace Lexeme

open Text

/-! ## Characters -/

/-- The characters that are tokens of their own and end a word. -/
def marks : List Char :=
  ['(', ')', '[', ']', '\x7b', '\x7d', '&', '^', ':', ',', '.', '-', '=', '>', '<', '%', '!', '|',
   '+', ';', '/', '\\', '*', '~', '?', '@', '#', '\'', '"', '\x60', '$']

/-- Holds for a space or a tab. -/
def isSpaceOrTab (c : Char) : Bool := c == ' ' || c == '\t'

/-- Holds for the characters of a word: all but blanks and marks, the dollar sign excepted. -/
def isWordChar (c : Char) : Bool := !isBlank c && (c == '$' || !marks.contains c)

/-- Holds for the characters of a number in another base: all but blanks and marks. -/
def isDigitsChar (c : Char) : Bool := !isBlank c && !marks.contains c

/-! ## Quotes -/

/-- The length of quoted text up to and including its closing quote.  A doubled quote does not
close, and neither does a quote after a backslash where backslashes escape. -/
def closingQuote? (quote : Char) (backslash : Bool) : List Char → Option Nat
  | [] => none
  | [c] => if c == quote then some 1 else none
  | c :: d :: cs =>
    if c == quote then
      if d == quote then (closingQuote? quote backslash cs).map (· + 2) else some 1
    else if backslash && c == '\\' then (closingQuote? quote backslash cs).map (· + 2)
    else (closingQuote? quote backslash (d :: cs)).map (· + 1)

/-- The kind and the further length of a quoted text that starts after `skipped` characters. -/
def quotedAfter (kind : LexemeKind) (quote : Char) (backslash : Bool) (skipped : Nat)
    (cs : List Char) : Except LexError (LexemeKind × Nat) :=
  match closingQuote? quote backslash cs with
  | some n => .ok (kind, skipped + n)
  | none => .error .unterminated

/-- A bit string: what stands between its quotes is a numeral of the base, or nothing. -/
def bitsAfter (base : Nat) (baseMarks : List Char) (cs : List Char) :
    Except LexError (LexemeKind × Nat) := do
  let (kind, n) ← quotedAfter .quoted '\'' false 1 cs
  let inside := cs.take (n - 2)
  if inside.isEmpty || Number.isNumeral base baseMarks inside then return (kind, n)
  else throw .badBits

/-- A string, which may have a one-letter mark in front: `none` if no string starts here. -/
def string? (c : Char) (cs : List Char) : Option (Except LexError (LexemeKind × Nat)) :=
  match c, cs with
  | '\'', cs => some (quotedAfter .quoted '\'' false 0 cs)
  | c, '\'' :: cs =>
    if c == 'n' || c == 'N' then some (quotedAfter .quoted '\'' false 1 cs)
    else if c == 'e' || c == 'E' then some (quotedAfter .quoted '\'' true 1 cs)
    else if c == 'b' || c == 'B' then some (bitsAfter 2 ['b', 'B'] cs)
    else if c == 'x' || c == 'X' then some (bitsAfter 16 ['x', 'X'] cs)
    else none
  | c, '&' :: '\'' :: cs =>
    if c == 'u' || c == 'U' then some (quotedAfter .plain '\'' false 2 cs) else none
  | _, _ => none

/-! ## Dollar quotes -/

/-- Holds when a pair of quotes ends the text, pairs taken from its start. -/
def endsInPair : List Char → Bool
  | '\'' :: '\'' :: [] => true
  | '\'' :: '\'' :: c :: cs => endsInPair (c :: cs)
  | _ :: cs => endsInPair cs
  | [] => false

/-- The length of a body up to and including its delimiter.  A pair of quotes is passed over as
one unit. -/
def bodyLength? (delimiter : List Char) : List Char → Option Nat
  | [] => none
  | [c] => if delimiter.isPrefixOf [c] then some delimiter.length else none
  | c :: d :: cs =>
    if c == '\'' && d == '\'' then (bodyLength? delimiter cs).map (· + 2)
    else if delimiter.isPrefixOf (c :: d :: cs) then some delimiter.length
    else (bodyLength? delimiter (d :: cs)).map (· + 1)

/-- What starts with a dollar sign: a dollar-quoted body, or a parameter mark where the text up
to the next dollar sign is no tag. -/
def dollar (cs : List Char) : Except LexError (LexemeKind × Nat) :=
  let tag := cs.takeWhile (· != '$')
  match cs, cs.dropWhile (· != '$') with
  | [], _ => .error .strayDollar
  | _, [] => if endsInPair tag then .error .unterminated else .ok (.parameter, 0)
  | _, _ :: body =>
    if !tag.isEmpty && body.isEmpty then .ok (.parameter, 1)
    else if !tag.isEmpty && (tag.all isDigit || tag.any isBlank) then .ok (.parameter, 0)
    else
      match bodyLength? ('$' :: tag ++ ['$']) body with
      | some n => .ok (.quoted, tag.length + 1 + n)
      | none => .error .unterminated

/-! ## Comments -/

/-- The length of a block comment after its opening mark, through its closing mark.  An inner
comment opens behind a character that has been passed. -/
def commentLength? (opening closing : Char × Char) (depth : Nat) : List Char → Option Nat
  | [] => none
  | c :: cs =>
    let closes := c == closing.1 && cs.head? == some closing.2
    if closes && depth = 1 then some 2
    else
      let depth := if closes then depth - 1 else depth
      match cs with
      | a :: b :: rest =>
        if a == opening.1 && b == opening.2 then
          (commentLength? opening closing (depth + 1) rest).map (· + 3)
        else (commentLength? opening closing depth (a :: b :: rest)).map (· + 1)
      | cs => (commentLength? opening closing depth cs).map (· + 1)

/-- A comment: `none` if none starts here. -/
def comment? (c : Char) (cs : List Char) : Option (Except LexError (LexemeKind × Nat)) :=
  let block (opening closing : Char × Char) (cs : List Char) :=
    match commentLength? opening closing 1 cs with
    | some n => Except.ok (LexemeKind.comment, n + 1)
    | none => .error .unterminated
  match c, cs with
  | '-', '-' :: cs =>
    some (.ok (.comment, 1 + (cs.takeWhile fun c => c != '\n' && c != '\r').length))
  | '/', '*' :: cs => some (block ('/', '*') ('*', '/') cs)
  | '\x7b', '#' :: cs => some (block ('\x7b', '#') ('#', '\x7d') cs)
  | _, _ => none

/-! ## Numbers, operators and words -/

/-- The further length of a number.  It has at most one point, which a parameter mark before the
number rules out, one exponent mark, and one sign after that mark with a digit behind it. -/
def numberLength (afterParameter point : Bool) (exponentMarks : Nat) : List Char → Nat
  | [] => 0
  | c :: cs =>
    if c.isDigit then 1 + numberLength afterParameter point exponentMarks cs
    else if c == '.' && !point then
      if afterParameter then 0 else 1 + numberLength afterParameter true exponentMarks cs
    else if (c == '-' || c == '+') && exponentMarks = 1 then
      if cs.head?.any Char.isDigit then 1 + numberLength afterParameter point 2 cs else 0
    else if (c == 'e' || c == 'E') && exponentMarks = 0 then
      1 + numberLength afterParameter point 1 cs
    else 0

/-- A number.  One in another base is kept as it is. -/
def number (afterParameter : Bool) (c : Char) (cs : List Char) : LexemeKind × Nat :=
  if c == '0' && cs.head?.any ['b', 'B', 'x', 'X'].contains then
    (.quoted, (cs.takeWhile isDigitsChar).length)
  else (.plain, numberLength afterParameter false 0 cs)

/-- The operators of several characters, longer ones first. -/
def operators : List (List Char) :=
  (["<<->>", "#>>", "&<|", "+%\x7d", "+\x7d\x7d", "-%\x7d", "->>", "-|-", "-\x7d\x7d", "<->",
    "<=>", "?::", "\x7b%+", "\x7b%-", "\x7b\x7b+", "\x7b\x7b-", "||/", "~~*", "~~~",
    "!=", "#-", "#>", "%\x7d", "&&", "&<", "&>", "->", "::", ":=", "<=", "<>", "<@", "==", "=>",
    ">=", "?&", "??", "?|", "@>", "@?", "@@", "^@", "\x7b%", "|/", "|>", "||", "~*",
    "~~"] : List String).map String.toList

/-- The further length of an operator of several characters, if one starts here. -/
def operator? (cs : List Char) : Option Nat :=
  (operators.find? fun op => op.isPrefixOf cs).map fun op => op.length - 1

/-- The keywords of several words. -/
def phrases : List (List (List Char)) :=
  ([["CHAR", "VARYING"], ["CHARACTER", "VARYING"], ["CLUSTER", "BY"], ["CONNECT", "BY"],
    ["DISTRIBUTE", "BY"], ["DOUBLE", "PRECISION"], ["FOREIGN", "KEY"], ["GROUP", "BY"],
    ["GROUPING", "SETS"], ["ORDER", "BY"], ["PARTITION", "BY"], ["PARTITIONED", "BY"],
    ["PRIMARY", "KEY"], ["SIMILAR", "TO"], ["SORT", "BY"],
    ["SQL", "SECURITY"]] : List (List String)).map (·.map String.toList)

/-- The rest of a text after a word in any case. -/
def dropWord? : List Char → List Char → Option (List Char)
  | [], cs => some cs
  | _ :: _, [] => none
  | w :: word, c :: cs => if upperChar c == [w] then dropWord? word cs else none

/-- The rest of a text after words in any case with blanks between them. -/
def dropPhrase? : List (List Char) → List Char → Option (List Char)
  | [], cs => some cs
  | [word], cs => dropWord? word cs
  | word :: words, cs =>
    match dropWord? word cs with
    | some (c :: rest) => if isBlank c then dropPhrase? words (rest.dropWhile isBlank) else none
    | _ => none

/-- The keyword whose hyphen does not end it. -/
def hyphenated : List Char := "USER-DEFINED".toList

/-- The further length of a keyword of several words, if one starts here.  A blank, a mark or
the end of the text follows it. -/
def phrase? (cs : List Char) : Option Nat :=
  let length (rest : List Char) := cs.length - rest.length - 1
  match phrases.findSome? fun phrase => dropPhrase? phrase cs with
  | some rest =>
    if rest.head?.all fun c => isBlank c || marks.contains c then some (length rest)
    else (dropWord? hyphenated cs).map length
  | none => (dropWord? hyphenated cs).map length

/-- The words that start a command. -/
def commandWords : List String :=
  ["CALL", "EXPLAIN", "OPTIMIZE", "PREPARE", "VACUUM", "DECLARE", "DO", "EXEC", "REFRESH",
   "REINDEX", "RESET", "EXECUTE", "FETCH", "SHOW", "RENAME", "LOCK"]

/-- The kind of a word: no word is a keyword after a parameter mark. -/
def wordKind (afterParameter : Bool) (word : List Char) : LexemeKind :=
  let capitals := upper (String.ofList word)
  if afterParameter then .plain
  else if commandWords.contains capitals then .command
  else if capitals == "BEGIN" then .opening
  else .plain

/-- A single character that is a token of its own. -/
def markKind (c : Char) : LexemeKind :=
  if c == '@' then .parameter else if c == ';' then .semicolon else .plain

/-! ## Scanning -/

/-- The kind of the lexeme that starts with `c`, and how many characters of `cs` belong to it. -/
def next (afterParameter : Bool) (c : Char) (cs : List Char) :
    Except LexError (LexemeKind × Nat) :=
  if isSpaceOrTab c then .ok (.blank, (cs.takeWhile isSpaceOrTab).length)
  else if isBlank c then .ok (.lineBreak, 0)
  else if c.isDigit then .ok (number afterParameter c cs)
  else if c == '"' then quotedAfter .quoted '"' false 0 cs
  else
    match string? c cs with
    | some result => result
    | none =>
      if c == '$' then dollar cs
      else
        match comment? c cs with
        | some result => result
        | none =>
          match operator? (c :: cs) with
          | some n => .ok (.plain, n)
          | none =>
            if marks.contains c then .ok (markKind c, 0)
            else
              match phrase? (c :: cs) with
              | some n => .ok (.plain, n)
              | none =>
                let n := (cs.takeWhile isWordChar).length
                .ok (wordKind afterParameter (c :: cs.take n), n)

/-- Whether the next word follows a parameter mark directly: blanks and comments do not count. -/
def LexemeKind.afterParameter (before : Bool) : LexemeKind → Bool
  | .blank | .lineBreak | .comment => before
  | .parameter => true
  | _ => false

/-- The lexemes of a text, the first `skip` characters of which have been taken already. -/
def scanFrom (afterParameter : Bool) (skip : Nat) :
    List Char → Except LexError (List Lexeme)
  | [] => .ok []
  | c :: cs =>
    match skip with
    | skip + 1 => scanFrom afterParameter skip cs
    | 0 => do
      let (kind, n) ← next afterParameter c cs
      let rest ← scanFrom (LexemeKind.afterParameter afterParameter kind) n cs
      return ⟨kind, c :: cs.take n⟩ :: rest

/-- The lexemes of a text. -/
def scan (cs : List Char) : Except LexError (List Lexeme) := scanFrom false 0 cs

end Lexeme
end PgSchema.Sql
