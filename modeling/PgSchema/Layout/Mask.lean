/-
# Masks

While white space changes, every segment that must not change is replaced by a mask: its number
between two marks.  The marks are control characters, and tell quoted text, line comments and
block comments apart.  `unmask` puts the segments back.
-/
import PgSchema.Layout.Piece

namespace PgSchema.Layout

/-- The mark of quoted text. -/
def quotedMark : Char := '\x00'

/-- The mark of line comments. -/
def lineMark : Char := '\x01'

/-- The mark of block comments. -/
def blockMark : Char := '\x02'

/-- Holds for the marks. -/
def isMark (c : Char) : Bool := c == quotedMark || c == lineMark || c == blockMark

/-- A mask: a number between two marks. -/
def maskOf (mark : Char) (number : Nat) : List Char :=
  mark :: (toString number).toList ++ [mark]

/-- The masked text of pieces whose first segment has the given number. -/
def maskFrom (number : Nat) : List Piece → List Char
  | [] => []
  | .loose text :: pieces => text ++ maskFrom number pieces
  | .quoted _ :: pieces => maskOf quotedMark number ++ maskFrom (number + 1) pieces
  | .lineComment _ :: pieces => maskOf lineMark number ++ maskFrom (number + 1) pieces
  | .blockComment _ :: pieces => maskOf blockMark number ++ maskFrom (number + 1) pieces

/-- The masked text of a script. -/
def mask (pieces : List Piece) : List Char := maskFrom 0 pieces

/-- The segments of a script, in the order of their numbers. -/
def segments (pieces : List Piece) : List (List Char) := pieces.filterMap Piece.kept?

/-! ## Unmasking -/

/-- Why the segments cannot be put back: the text itself has something like a mask. -/
inductive MaskError
  /-- No segment has the number. -/
  | unknownSegment (number : Int)
  /-- The number cannot be read. -/
  | badNumber (fault : Number.IntegerFault)

/-- The digits of a mask that starts with a mark, if one does: any mark may close it. -/
def maskDigits? : List Char → Option (List Char)
  | [] => none
  | c :: cs =>
    let digits := cs.takeWhile Text.isDecimalDigit
    if isMark c && !digits.isEmpty && (cs.dropWhile Text.isDecimalDigit).head?.any isMark then
      some digits
    else none

/-- The segment that a mask stands for. -/
def segmentOf (segments : List (List Char)) (digits : List Char) :
    Except MaskError (List Char) :=
  match Number.readInteger (String.ofList digits) with
  | .error fault => .error (.badNumber fault)
  | .ok n =>
    match segments[n.toNat]? with
    | some segment => .ok segment
    | none => .error (.unknownSegment n)

/-- The text with the segments put back, the first `skip` characters of which have been taken
already. -/
def unmaskFrom (segments : List (List Char)) (skip : Nat) :
    List Char → Except MaskError (List Char)
  | [] => .ok []
  | c :: cs =>
    match skip with
    | skip + 1 => unmaskFrom segments skip cs
    | 0 =>
      match maskDigits? (c :: cs) with
      | some digits => do
        let segment ← segmentOf segments digits
        return segment ++ (← unmaskFrom segments (digits.length + 1) cs)
      | none => return c :: (← unmaskFrom segments 0 cs)

/-- The text with the segments put back. -/
def unmask (segments : List (List Char)) (masked : List Char) : Except MaskError (List Char) :=
  unmaskFrom segments 0 masked

@[simp] theorem unmask_nil (segments : List (List Char)) : unmask segments [] = .ok [] := by
  rw [unmask, unmaskFrom]

end PgSchema.Layout
