/-
# Reading patterns

Reads a pattern from its text, one character at a time.  Groups that are still open lie on a
stack; a class, an escape or a count in braces is a state of its own.
-/
import PgSchema.Number.Numeral
import PgSchema.Pattern

namespace PgSchema.Pattern

/-- An item of a sequence.  A repeated item takes no further count, but may be marked as
reluctant once.  An anchor takes none unless it is a group. -/
structure Item where
  pattern : Pattern
  grouped : Bool := false
  repeated : Bool := false
  marked : Bool := false

/-- An open group: the finished alternatives and the items of the current one, both newest
first. -/
structure Group where
  branches : List Pattern := []
  items : List Item := []

/-- A character class being read.  `last` may still become the start of a range, for which a
`dash` has been seen; a `fresh` class has no member yet. -/
structure ClassDraft where
  negated : Bool := false
  fresh : Bool := true
  items : List ClassItem := []
  last : Option Char := none
  dash : Bool := false

/-- Where the reader stands. -/
inductive Place
  | between
  | escape
  | opened
  | openedMark
  | count (read : List Char)
  | inClass (draft : ClassDraft)
  | classEscape (draft : ClassDraft)

/-- The state of the reader: its place and the open groups, innermost first. -/
structure Reader where
  place : Place := .between
  inner : Group := {}
  outer : List Group := []

/-! ## Groups -/

/-- The sequence of the items, given newest first. -/
def ofItems (items : List Item) : Pattern :=
  items.foldl (fun rest item =>
    match rest with
    | .empty => item.pattern
    | rest => .seq item.pattern rest) .empty

/-- The pattern of a finished group. -/
def Group.finish (group : Group) : Pattern :=
  group.branches.foldl (fun right left => .alt left right) (ofItems group.items)

/-- Adds an item to the innermost group. -/
def Reader.addItem (reader : Reader) (item : Item) : Reader :=
  { reader with
    place := .between
    inner := { reader.inner with items := item :: reader.inner.items } }

/-- Adds a pattern to the innermost group. -/
def Reader.add (reader : Reader) (p : Pattern) : Reader := reader.addItem { pattern := p }

/-- Starts the next alternative. -/
def Reader.nextBranch (reader : Reader) : Reader :=
  { reader with
    place := .between
    inner := { branches := ofItems reader.inner.items :: reader.inner.branches } }

/-- Opens a group. -/
def Reader.openGroup (reader : Reader) : Reader :=
  { place := .between, inner := {}, outer := reader.inner :: reader.outer }

/-- Closes the innermost group, which becomes an item of the one around it. -/
def Reader.closeGroup (reader : Reader) : Option Reader :=
  match reader.outer with
  | [] => none
  | group :: outer =>
    some (({ place := .between, inner := group, outer } : Reader).addItem
      { pattern := reader.inner.finish, grouped := true })

/-- Holds for the patterns that cannot be repeated: the anchors. -/
def isAnchor : Pattern → Bool
  | .start => true
  | .stop => true
  | _ => false

/-- Repeats the last item. -/
def Reader.repeatLast (reader : Reader) (min : Nat) (max : Option Nat) : Option Reader :=
  match reader.inner.items with
  | [] => none
  | item :: items =>
    if item.repeated || (isAnchor item.pattern && !item.grouped) then none
    else
      let repeated : Item := { pattern := .times item.pattern min max, repeated := true }
      some { reader with
        place := .between, inner := { reader.inner with items := repeated :: items } }

/-- Takes a question mark: the last item is optional, or its count reluctant. -/
def Reader.question (reader : Reader) : Option Reader :=
  match reader.inner.items with
  | item :: items =>
    if item.repeated && !item.marked then
      some { reader with
        inner := { reader.inner with items := { item with marked := true } :: items } }
    else reader.repeatLast 0 (some 1)
  | [] => none

/-! ## Escapes and classes -/

/-- The class that an escaped letter names. -/
def namedClass? : Char → Option ClassItem
  | 'd' => some (.digit false)
  | 'D' => some (.digit true)
  | 's' => some (.blank false)
  | 'S' => some (.blank true)
  | 'w' => some (.word false)
  | 'W' => some (.word true)
  | _ => none

/-- The character that an escape stands for: a control character, or itself unless it is a
letter or digit. -/
def escapedChar? : Char → Option Char
  | 'n' => some '\n'
  | 't' => some '\t'
  | 'r' => some '\r'
  | 'f' => some '\x0c'
  | 'v' => some '\x0b'
  | 'a' => some '\x07'
  | '0' => some '\x00'
  | c => if c.isAlphanum then none else some c

/-- The members read so far, the pending character included. -/
def ClassDraft.settled (draft : ClassDraft) : List ClassItem :=
  match draft.last with
  | some c => .range c c :: draft.items
  | none => draft.items

/-- Adds a character: the end of a range after a dash, else a member that may start one. -/
def ClassDraft.addChar (draft : ClassDraft) (c : Char) : Option ClassDraft :=
  match draft.dash, draft.last with
  | true, some first =>
    if first ≤ c then
      some { draft with
        fresh := false, items := .range first c :: draft.items, last := none, dash := false }
    else none
  | _, _ =>
    some { draft with fresh := false, items := draft.settled, last := some c, dash := false }

/-- Adds a named class, which ends no range. -/
def ClassDraft.addNamed (draft : ClassDraft) (item : ClassItem) : Option ClassDraft :=
  if draft.dash then none
  else some { draft with fresh := false, items := item :: draft.settled, last := none }

/-- The finished class; a dash at its end stands for itself. -/
def ClassDraft.finish (draft : ClassDraft) : Pattern :=
  let items := if draft.dash then .range '-' '-' :: draft.settled else draft.settled
  .oneOf draft.negated items.reverse

/-- Reads a character inside a class. -/
def Reader.stepClass (reader : Reader) (draft : ClassDraft) (c : Char) : Option Reader :=
  if c == '^' && draft.fresh && !draft.negated then
    some { reader with place := .inClass { draft with negated := true } }
  else if c == ']' && !draft.fresh then some (reader.add draft.finish)
  else if c == '\\' then some { reader with place := .classEscape draft }
  else if c == '-' && draft.last.isSome && !draft.dash then
    some { reader with place := .inClass { draft with dash := true } }
  else (draft.addChar c).map fun draft => { reader with place := .inClass draft }

/-- Reads an escaped character inside a class. -/
def Reader.stepClassEscape (reader : Reader) (draft : ClassDraft) (c : Char) : Option Reader :=
  let draft? :=
    match namedClass? c with
    | some item => draft.addNamed item
    | none =>
      if c == 'b' then draft.addChar '\x08' else (escapedChar? c).bind draft.addChar
  draft?.map fun draft => { reader with place := .inClass draft }

/-! ## Counts -/

/-- The number that a text of digits spells, if there is a digit. -/
def count? (cs : List Char) : Option Nat :=
  if cs.isEmpty then none else some (Text.ofDigitValues 10 (cs.filterMap Number.asciiDigit?))

/-- The bounds of a count `n`, `n,`, `,m` or `n,m`, if the text is one. -/
def countBounds? (cs : List Char) : Option (Nat × Option Nat) :=
  match Text.splitAt ',' cs with
  | [n] => if n.isEmpty then none else some ((count? n).getD 0, count? n)
  | [n, m] => some ((count? n).getD 0, count? m)
  | _ => none

/-- Adds characters that stand for themselves. -/
def Reader.addChars (reader : Reader) (cs : List Char) : Reader :=
  cs.foldl (fun reader c => reader.add (.char c)) { reader with place := .between }

/-! ## One character -/

/-- Reads a character outside classes and escapes. -/
def Reader.stepBetween (reader : Reader) (c : Char) : Option Reader :=
  match c with
  | '\\' => some { reader with place := .escape }
  | '[' => some { reader with place := .inClass {} }
  | '(' => some { reader with place := .opened }
  | ')' => reader.closeGroup
  | '|' => some reader.nextBranch
  | '^' => some (reader.add .start)
  | '$' => some (reader.add .stop)
  | '.' => some (reader.add (.oneOf true [.range '\n' '\n']))
  | '*' => reader.repeatLast 0 none
  | '+' => reader.repeatLast 1 none
  | '?' => reader.question
  | '\x7b' => some { reader with place := .count [] }
  | c => some (reader.add (.char c))

/-- Reads an escaped character. -/
def Reader.stepEscape (reader : Reader) (c : Char) : Option Reader :=
  match namedClass? c with
  | some item => some (reader.add (.oneOf false [item]))
  | none => (escapedChar? c).map fun c => reader.add (.char c)

/-- Reads a character of a count in braces; what is no count stands for itself. -/
def Reader.stepCount (reader : Reader) (read : List Char) (c : Char) : Option Reader :=
  if c.isDigit || c == ',' then some { reader with place := .count (read ++ [c]) }
  else if c == '\x7d' then
    match countBounds? read with
    | some (min, some max) => if min ≤ max then reader.repeatLast min (some max) else none
    | some (min, none) => reader.repeatLast min none
    | none => some (reader.addChars ('\x7b' :: read ++ [c]))
  else (reader.addChars ('\x7b' :: read)).stepBetween c

/-- Reads one character. -/
def Reader.step (reader : Reader) (c : Char) : Option Reader :=
  match reader.place with
  | .between => reader.stepBetween c
  | .escape => reader.stepEscape c
  | .opened =>
    if c == '?' then some { reader with place := .openedMark }
    else reader.openGroup.stepBetween c
  | .openedMark => if c == ':' then some reader.openGroup else none
  | .count read => reader.stepCount read c
  | .inClass draft => reader.stepClass draft c
  | .classEscape draft => reader.stepClassEscape draft c

/-- Ends the reading: no group, class or escape may be open. -/
def Reader.finish (reader : Reader) : Option Pattern :=
  let reader :=
    match reader.place with
    | .count read => reader.addChars ('\x7b' :: read)
    | _ => reader
  match reader.place, reader.outer with
  | .between, [] => some reader.inner.finish
  | _, _ => none

/-- The pattern that a text spells, if it is well formed. -/
def read? (s : String) : Option Pattern :=
  (s.toList.foldlM Reader.step {}).bind Reader.finish

end PgSchema.Pattern
