/-
# Sets of characters

A set of characters is a list of inclusive ranges of code points.  The tables of the
character classes are values of this type.
-/

namespace PgSchema.Text

/-- A set of characters, given by inclusive ranges of code points. -/
abbrev CharSet := List (Nat × Nat)

/-- Membership: the code point lies in one of the ranges. -/
def CharSet.contains (set : CharSet) (c : Char) : Bool :=
  set.any fun range => range.1 ≤ c.toNat && c.toNat ≤ range.2

theorem CharSet.contains_iff {set : CharSet} {c : Char} :
    set.contains c = true ↔ ∃ range ∈ set, range.1 ≤ c.toNat ∧ c.toNat ≤ range.2 := by
  simp [CharSet.contains, List.any_eq_true]

end PgSchema.Text
