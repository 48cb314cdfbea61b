/-
# Blank characters

Blanks are the white space of every script together with the four information separators
U+001C to U+001F.  This module trims and splits text at them.
-/
import PgSchema.Text.CharSet

namespace PgSchema.Text

/-- The blank characters. -/
def blanks : CharSet :=
  [(0x9, 0xD), (0x1C, 0x20), (0x85, 0x85), (0xA0, 0xA0), (0x1680, 0x1680), (0x2000, 0x200A),
   (0x2028, 0x2029), (0x202F, 0x202F), (0x205F, 0x205F), (0x3000, 0x3000)]

/-- Holds for blank characters. -/
def isBlank (c : Char) : Bool := blanks.contains c

/-- Holds for the blanks that the white space property names: all but the separators
U+001C to U+001F. -/
def isWhiteSpace (c : Char) : Bool := isBlank c && !(0x1C ≤ c.toNat && c.toNat ≤ 0x1F)

/-- The text without the leading and trailing characters that satisfy `p`. -/
def trimWhere (p : Char → Bool) (cs : List Char) : List Char :=
  ((cs.dropWhile p).reverse.dropWhile p).reverse

/-- The text without the trailing characters that satisfy `p`. -/
def trimEndWhere (p : Char → Bool) (cs : List Char) : List Char :=
  (cs.reverse.dropWhile p).reverse

/-- The text without leading and trailing blanks. -/
def trim (s : String) : String := String.ofList (trimWhere isBlank s.toList)

/-- Holds for a text of blanks only, the empty text among them. -/
def allBlank (s : String) : Bool := s.toList.all isBlank

/-- Nothing is left after the leading elements that satisfy `p` when all do. -/
theorem dropWhile_eq_nil_iff_all {p : Char → Bool} {cs : List Char} :
    cs.dropWhile p = [] ↔ cs.all p = true := by
  induction cs with
  | nil => simp
  | cons c cs ih => by_cases h : p c = true <;> simp [h, ih]

/-- A list of characters that satisfy `p` is trimmed to nothing, and no other list is. -/
theorem trimWhere_eq_nil_iff {p : Char → Bool} {cs : List Char} :
    trimWhere p cs = [] ↔ cs.all p = true := by
  rw [trimWhere, List.reverse_eq_nil_iff, dropWhile_eq_nil_iff_all, List.all_reverse]
  induction cs with
  | nil => simp
  | cons c cs ih => by_cases h : p c = true <;> simp [h, ih]

/-- A text is blank when nothing is left of it after trimming. -/
theorem allBlank_iff_trim_eq_empty {s : String} : allBlank s = true ↔ trim s = "" := by
  rw [allBlank, trim, ← trimWhere_eq_nil_iff]
  constructor
  · intro h
    rw [h]
  · intro h
    simpa using congrArg String.toList h

/-- The maximal runs of characters other than blanks, with the run begun so far. -/
def wordsFrom (word : List Char) : List Char → List (List Char)
  | [] => if word.isEmpty then [] else [word.reverse]
  | c :: cs =>
    if isBlank c then
      if word.isEmpty then wordsFrom [] cs else word.reverse :: wordsFrom [] cs
    else wordsFrom (c :: word) cs

/-- The maximal runs of characters other than blanks. -/
def words (cs : List Char) : List (List Char) := wordsFrom [] cs

/-- The pieces of a text between the occurrences of a separator, empty ones included. -/
def splitAt (separator : Char) : List Char → List (List Char)
  | [] => [[]]
  | c :: cs =>
    if c == separator then [] :: splitAt separator cs
    else
      match splitAt separator cs with
      | [] => [[c]]
      | piece :: pieces => (c :: piece) :: pieces

theorem isBlank_of_isWhitespace {c : Char} (h : c.isWhitespace = true) : isBlank c = true := by
  simp only [Char.isWhitespace, Bool.or_eq_true, decide_eq_true_eq] at h
  rcases h with ((rfl | rfl) | rfl) | rfl <;> decide

end PgSchema.Text
