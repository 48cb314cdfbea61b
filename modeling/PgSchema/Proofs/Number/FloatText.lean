/-
# Characters of numbers

A number is written with digits and a few signs and letters, in any notation, and never without a
character.

* `all_boundText` : the characters of a bound.
-/
import Mathlib.Tactic.SplitIfs
import PgSchema.Number.FloatText
import PgSchema.Proofs.Number.Numeral

namespace PgSchema.Number

/-- The characters of numbers, of `nan` and of `inf` that are no digits. -/
def numberSigns : List Char := ['-', '+', '.', 'e', 'n', 'a', 'i', 'f']

/-- Holds for the characters of numbers, of `nan` and of `inf`. -/
def isNumberChar (c : Char) : Bool := c.isDigit || numberSigns.contains c

theorem isBlank_of_isNumberChar {c : Char} (h : isNumberChar c = true) :
    Text.isBlank c = false := by
  rcases Bool.or_eq_true_iff.1 h with hdigit | hother
  · exact isBlank_of_isDigit hdigit
  · have hblank : numberSigns.all (!Text.isBlank ·) = true := by decide
    simpa using List.all_eq_true.1 hblank c (List.contains_iff_mem.1 hother)

theorem toUpper_of_isNumberChar {c : Char} (h : isNumberChar c = true) :
    c.toUpper ≠ 'D' ∧ c.toUpper ≠ 'R' := by
  rcases Bool.or_eq_true_iff.1 h with hdigit | hother
  · have hsame : c.toUpper = c := by
      unfold Char.toUpper
      unfold Char.isDigit at hdigit
      grind
    rw [hsame]
    constructor <;> rintro rfl <;> exact absurd hdigit (by decide)
  · have hupper : numberSigns.all (fun c => c.toUpper ≠ 'D' ∧ c.toUpper ≠ 'R') = true := by decide
    simpa using List.all_eq_true.1 hupper c (List.contains_iff_mem.1 hother)

theorem all_toString (n : Nat) : (toString n).toList.all isNumberChar = true := by
  rw [Nat.toString_eq_repr, Nat.toList_repr, List.all_eq_true]
  intro c hc
  rw [isNumberChar, Nat.isDigit_of_mem_toDigits (by decide) (by decide) hc, Bool.true_or]

theorem all_zeroDigits (n : Nat) : (zeroDigits n).all isNumberChar = true := by
  rw [List.all_eq_true]
  intro c hc
  rw [List.eq_of_mem_replicate hc]
  decide

variable {digits : List Char}

theorem all_positional (h : digits.all isNumberChar = true) (exponent : Int) :
    (positional digits exponent).all isNumberChar = true := by
  have hpoint : isNumberChar '.' = true := by decide
  have hzero : isNumberChar '0' = true := by decide
  have htake (n : Nat) : (digits.take n).all isNumberChar = true :=
    List.all_eq_true.2 fun c hc => List.all_eq_true.1 h c (List.mem_of_mem_take hc)
  have hdrop (n : Nat) : (digits.drop n).all isNumberChar = true :=
    List.all_eq_true.2 fun c hc => List.all_eq_true.1 h c (List.mem_of_mem_drop hc)
  unfold positional
  dsimp only
  split_ifs <;>
    simp only [List.all_append, List.all_cons, List.all_nil, h, hpoint, hzero, htake, hdrop,
      all_zeroDigits, Bool.and_self]

theorem all_scientific (style : FloatStyle) (h : digits.all isNumberChar = true) (exponent : Int) :
    (scientific style digits exponent).all isNumberChar = true := by
  have hpoint : isNumberChar '.' = true := by decide
  have hexponent : isNumberChar 'e' = true := by decide
  have hsign (negative : Prop) [Decidable negative] :
      isNumberChar (if negative then '-' else '+') = true := by
    split <;> decide
  unfold scientific
  dsimp only
  simp only [List.all_append, List.all_cons, hexponent, hsign, all_zeroDigits, all_toString,
    Bool.and_true]
  split
  · simpa [hpoint] using h
  · exact h

theorem all_write (style : FloatStyle) (d : Decimal) :
    (d.write style).all isNumberChar = true := by
  unfold Decimal.write
  dsimp only
  split
  · exact all_positional (all_toString d.digits) d.exponent
  · exact all_scientific style (all_toString d.digits) d.exponent

theorem all_floatText (x : Float) : (floatText x).toList.all isNumberChar = true := by
  have hsign : (if isNegative x then ['-'] else []).all isNumberChar = true := by
    split <;> decide
  have hzero : ['0', '.', '0'].all isNumberChar = true := by decide
  unfold floatText
  split
  · decide
  · decide
  · decide
  · dsimp only
    split <;> rw [String.toList_ofList, List.all_append, hsign, Bool.true_and]
    · exact hzero
    · exact all_write .standard (shortest x)

theorem toString_negSucc (n : Nat) :
    (toString (Int.negSucc n)).toList = '-' :: (toString (n + 1)).toList := by
  have hsign : toString (Int.negSucc n) = "-" ++ toString (n + 1) := rfl
  rw [hsign, String.toList_append]
  rfl

/-- The characters of a bound. -/
theorem all_boundText (x : Float) : (boundText x).toList.all isNumberChar = true := by
  unfold boundText
  split
  · next n _ =>
    cases n with
    | ofNat n => exact all_toString n
    | negSucc n =>
      rw [toString_negSucc, List.all_cons, all_toString]
      decide
  · exact all_floatText x

theorem boundText_ne_empty (x : Float) : (boundText x).toList ≠ [] := by
  have hwrite : (shortest x).write .standard ≠ [] := by
    unfold Decimal.write positional scientific
    dsimp only
    split_ifs <;> simp
  unfold boundText floatText
  split
  · next n _ =>
    cases n with
    | ofNat n =>
      have hdigits : (toString n).toList ≠ [] := by
        rw [Nat.toString_eq_repr, Nat.toList_repr]
        exact Nat.toDigits_ne_nil
      exact hdigits
    | negSucc n =>
      rw [toString_negSucc]
      exact List.cons_ne_nil _ _
  · split
    · decide
    · decide
    · decide
    · dsimp only
      split <;> simp [hwrite]

end PgSchema.Number
