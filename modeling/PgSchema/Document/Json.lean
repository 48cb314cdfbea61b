/-
# JSON text

Reads a document from JSON text.  `Lexer` cuts the text into tokens one character at a time and
`Builder` assembles the tokens on a stack of open lists and records, so both are folds and no
input makes them run on.
-/
import PgSchema.Document
import PgSchema.Number.FloatReader

namespace PgSchema.Document.Json

/-- Why a text is no document. -/
inductive Fault
  | badEscape
  | badWord (word : String)
  | unclosedText
  | unexpected
  | unfinished
deriving DecidableEq, Repr

/-- What a reader is told. -/
def Fault.message : Fault → String
  | .badEscape => "malformed escape in a text"
  | .badWord word => "unknown word " ++ Text.quoted word
  | .unclosedText => "text without a closing quote"
  | .unexpected => "unexpected mark"
  | .unfinished => "the document is incomplete"

/-- The tokens of JSON. -/
inductive Token
  | openList
  | closeList
  | openRecord
  | closeRecord
  | colon
  | comma
  | scalar (value : Document)

/-! ## Cutting into tokens -/

/-- Where the lexer stands.  Characters read so far are kept newest first; the halves of a
surrogate pair count as two. -/
inductive Place
  | between
  | word (chars : List Char)
  | inText (codes : List Nat)
  | escape (codes : List Nat)
  | hex (codes : List Nat) (digits : List Nat)

/-- The state of the lexer: its place and the tokens so far, newest first. -/
structure Lexer where
  place : Place := .between
  tokens : List Token := []

/-- Joins surrogate pairs; half a pair becomes the replacement character. -/
def joinSurrogates : List Nat → List Char
  | [] => []
  | [code] => [if 0xD800 ≤ code && code < 0xE000 then '\uFFFD' else Char.ofNat code]
  | high :: low :: codes =>
    if 0xD800 ≤ high && high < 0xDC00 && 0xDC00 ≤ low && low < 0xE000 then
      Char.ofNat (0x10000 + (high - 0xD800) * 0x400 + (low - 0xDC00)) :: joinSurrogates codes
    else if 0xD800 ≤ high && high < 0xE000 then '\uFFFD' :: joinSurrogates (low :: codes)
    else Char.ofNat high :: joinSurrogates (low :: codes)

/-- A number: whole if it has neither point nor exponent. -/
def number? (cs : List Char) : Option Document :=
  let (negative, digits) :=
    match cs with
    | '-' :: cs => (true, cs)
    | cs => (false, cs)
  if !digits.isEmpty && digits.all Char.isDigit then
    some (.integer (Number.ofSignedDigits negative (digits.filterMap Number.asciiDigit?)))
  else (Number.DecimalParts.ofChars? digits).map fun parts => .float (parts.toFloat negative)

/-- The scalar that a bare word stands for. -/
def scalarOfWord (word : List Char) : Except Fault Document :=
  match String.ofList word with
  | "null" => .ok .null
  | "true" => .ok (.flag true)
  | "false" => .ok (.flag false)
  | "NaN" => .ok (.float (Float.ofBits 0x7FF8000000000000))
  | "Infinity" => .ok (.float (Float.ofBits 0x7FF0000000000000))
  | "-Infinity" => .ok (.float (Float.ofBits 0xFFF0000000000000))
  | spelling =>
    match number? word with
    | some d => .ok d
    | none => .error (.badWord spelling)

/-- The token of a punctuation mark. -/
def punctuation? : Char → Option Token
  | '[' => some .openList
  | ']' => some .closeList
  | '\x7b' => some .openRecord
  | '\x7d' => some .closeRecord
  | ':' => some .colon
  | ',' => some .comma
  | _ => none

/-- Adds a token. -/
def Lexer.push (lexer : Lexer) (token : Token) : Lexer :=
  { place := .between, tokens := token :: lexer.tokens }

/-- Reads a character outside texts and words. -/
def Lexer.stepBetween (lexer : Lexer) (c : Char) : Lexer :=
  match punctuation? c with
  | some token => lexer.push token
  | none =>
    if c == '"' then { lexer with place := .inText [] }
    else if c == ' ' || c == '\t' || c == '\n' || c == '\r' then { lexer with place := .between }
    else { lexer with place := .word [c] }

/-- Holds for the characters that end a bare word. -/
def endsWord (c : Char) : Bool :=
  (punctuation? c).isSome || c == '"' || c == ' ' || c == '\t' || c == '\n' || c == '\r'

/-- Adds the scalar of a finished word. -/
def Lexer.finishWord (lexer : Lexer) (word : List Char) : Except Fault Lexer :=
  (scalarOfWord word.reverse).map fun d => lexer.push (.scalar d)

/-- The character that a one-letter escape stands for. -/
def simpleEscape? : Char → Option Char
  | '"' => some '"'
  | '\\' => some '\\'
  | '/' => some '/'
  | 'b' => some '\x08'
  | 'f' => some '\x0c'
  | 'n' => some '\n'
  | 'r' => some '\r'
  | 't' => some '\t'
  | _ => none

/-- Reads one character. -/
def Lexer.step (lexer : Lexer) (c : Char) : Except Fault Lexer :=
  match lexer.place with
  | .between => .ok (lexer.stepBetween c)
  | .word chars =>
    if endsWord c then (lexer.finishWord chars).map fun lexer => lexer.stepBetween c
    else .ok { lexer with place := .word (c :: chars) }
  | .inText codes =>
    if c == '"' then
      .ok (lexer.push (.scalar (.text (String.ofList (joinSurrogates codes.reverse)))))
    else if c == '\\' then .ok { lexer with place := .escape codes }
    else .ok { lexer with place := .inText (c.toNat :: codes) }
  | .escape codes =>
    if c == 'u' then .ok { lexer with place := .hex codes [] }
    else
      match simpleEscape? c with
      | some e => .ok { lexer with place := .inText (e.toNat :: codes) }
      | none => .error .badEscape
  | .hex codes digits =>
    match Number.digitInBase? 16 c with
    | none => .error .badEscape
    | some v =>
      if digits.length = 3 then
        let code := Text.ofDigitValues 16 (digits.reverse ++ [v])
        .ok { lexer with place := .inText (code :: codes) }
      else .ok { lexer with place := .hex codes (v :: digits) }

/-- The tokens of a text. -/
def tokens (cs : List Char) : Except Fault (List Token) := do
  let lexer ← cs.foldlM Lexer.step {}
  match lexer.place with
  | .between => return lexer.tokens.reverse
  | .word chars => return (← lexer.finishWord chars).tokens.reverse
  | _ => throw .unclosedText

/-! ## Assembling -/

/-- An open list or record: its members so far, the list newest first, the record in order with
the key that waits for its value. -/
inductive Frame
  | list (items : List Document)
  | record (entries : Entries) (key : String)

/-- What may come next. -/
inductive Expected
  | value
  | firstItem
  | key
  | firstKey
  | colon (key : String)
  | separator
  | nothing (result : Document)

/-- The state of the assembly: the open frames, innermost first. -/
structure Builder where
  frames : List Frame := []
  expected : Expected := .value

/-- A value is complete: it joins the innermost frame, or is the result. -/
def Builder.complete (builder : Builder) (value : Document) : Builder :=
  match builder.frames with
  | [] => { frames := [], expected := .nothing value }
  | .list items :: frames => { frames := .list (value :: items) :: frames, expected := .separator }
  | .record entries key :: frames =>
    { frames := .record (entries.put key value) "" :: frames, expected := .separator }

/-- Closes the innermost frame if it is of the kind asked for. -/
def Builder.close (builder : Builder) (list : Bool) : Except Fault Builder :=
  match builder.frames, list with
  | .list items :: frames, true =>
    .ok (({ builder with frames := frames } : Builder).complete (.list items.reverse))
  | .record entries _ :: frames, false =>
    .ok (({ builder with frames := frames } : Builder).complete (.record entries))
  | _, _ => .error .unexpected

/-- Takes the start of a value. -/
def Builder.beginValue (builder : Builder) : Token → Except Fault Builder
  | .scalar value => .ok (builder.complete value)
  | .openList => .ok { frames := .list [] :: builder.frames, expected := .firstItem }
  | .openRecord => .ok { frames := .record [] "" :: builder.frames, expected := .firstKey }
  | _ => .error .unexpected

/-- Takes one token. -/
def Builder.step (builder : Builder) (token : Token) : Except Fault Builder :=
  match builder.expected, token with
  | .value, token => builder.beginValue token
  | .firstItem, .closeList => builder.close true
  | .firstItem, token => builder.beginValue token
  | .firstKey, .closeRecord => builder.close false
  | .firstKey, .scalar (.text key) => .ok { builder with expected := .colon key }
  | .key, .scalar (.text key) => .ok { builder with expected := .colon key }
  | .colon key, .colon =>
    match builder.frames with
    | .record entries _ :: frames =>
      .ok { frames := .record entries key :: frames, expected := .value }
    | _ => .error .unexpected
  | .separator, .comma =>
    match builder.frames with
    | .list _ :: _ => .ok { builder with expected := .value }
    | _ => .ok { builder with expected := .key }
  | .separator, .closeList => builder.close true
  | .separator, .closeRecord => builder.close false
  | _, _ => .error .unexpected

/-- Reads a document from JSON text. -/
def read (s : String) : Except Fault Document := do
  let builder ← (← tokens s.toList).foldlM Builder.step {}
  match builder.expected with
  | .nothing value => return value
  | _ => throw .unfinished

end PgSchema.Document.Json
