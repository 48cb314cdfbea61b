/-
# Patterns

Regular expressions over characters, as far as column rules use them: characters, classes,
anchors, sequences, alternatives and repetition.  `Pattern.ends` gives the texts that can remain
after a match, and `Pattern.occursIn` tells whether a match starts anywhere in a text.
-/
import PgSchema.Text.Blank
import PgSchema.Text.Digit
import PgSchema.Text.Word

namespace PgSchema

/-- A member of a character class. -/
inductive ClassItem
  | range (first last : Char)
  | digit (negated : Bool)
  | blank (negated : Bool)
  | word (negated : Bool)
deriving DecidableEq, Repr

/-- Holds when the class item takes the character. -/
def ClassItem.takes : ClassItem → Char → Bool
  | range first last, c => first ≤ c && c ≤ last
  | digit negated, c => Text.isDecimalDigit c != negated
  | blank negated, c => Text.isBlank c != negated
  | word negated, c => Text.isWord c != negated

/-- A regular expression. -/
inductive Pattern
  /-- The empty text. -/
  | empty
  /-- One character of a class, or one outside it. -/
  | oneOf (negated : Bool) (items : List ClassItem)
  /-- The start of the text. -/
  | start
  /-- The end of the text, or the place before a line feed that ends it. -/
  | stop
  | seq (first second : Pattern)
  | alt (left right : Pattern)
  /-- At least `min` and at most `max` repetitions. -/
  | times (body : Pattern) (min : Nat) (max : Option Nat)
deriving DecidableEq, Repr

namespace Pattern

/-- The pattern of a single character. -/
def char (c : Char) : Pattern := oneOf false [.range c c]

/-- The remainders after exactly `n` steps. -/
def exactly (step : List Char → List (List Char)) : Nat → List (List Char) → List (List Char)
  | 0, rs => rs
  | n + 1, rs => exactly step n ((rs.flatMap step).eraseDups)

/-- The remainders after at most `n` steps. -/
def upTo (step : List Char → List (List Char)) : Nat → List (List Char) → List (List Char)
  | 0, rs => rs
  | n + 1, rs => rs ++ upTo step n ((rs.flatMap step).eraseDups)

/-- The texts that can remain after a match at the start of `cs`, which is an end of a text of
`whole` characters. -/
def ends (whole : Nat) : Pattern → List Char → List (List Char)
  | empty, cs => [cs]
  | oneOf negated items, cs =>
    match cs with
    | [] => []
    | c :: rest => if (items.any fun item => item.takes c) != negated then [rest] else []
  | start, cs => if cs.length = whole then [cs] else []
  | stop, cs => if cs = [] ∨ cs = ['\n'] then [cs] else []
  | seq first second, cs => ((first.ends whole cs).flatMap (second.ends whole)).eraseDups
  | alt left right, cs => (left.ends whole cs ++ right.ends whole cs).eraseDups
  | times body min max, cs =>
    let least := exactly (body.ends whole) min [cs]
    let more := match max with
      | some max => max - min
      | none => cs.length
    (upTo (body.ends whole) more least).eraseDups

/-- Holds when a match starts at the start of one of the ends of a text of `whole`
characters. -/
def occursFrom (p : Pattern) (whole : Nat) : List Char → Bool
  | [] => !(p.ends whole []).isEmpty
  | c :: cs => !(p.ends whole (c :: cs)).isEmpty || occursFrom p whole cs

/-- Holds when the pattern matches somewhere in the text. -/
def occursIn (p : Pattern) (s : String) : Bool := p.occursFrom s.length s.toList

end Pattern
end PgSchema
