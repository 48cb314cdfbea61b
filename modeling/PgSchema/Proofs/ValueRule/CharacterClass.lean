/-
# Rules on characters

A rule on the characters of a text takes ASCII letters, and digits, blanks and underscores as far as
it allows them.  A text is accepted if it consists of such characters.  Where blanks are not allowed
it is also accepted with a line feed behind them.

* `ValueRule.check_characters` : the texts that the rules on characters accept;
* `ValueRule.check_letters_lineFeed` : a text that is accepted for all its line feed.
-/
import PgSchema.Proofs.Pattern
import PgSchema.ValueRule

namespace PgSchema.ValueRule

open Pattern

/-! ## Classes of characters -/

/-- Holds for ASCII letters, and for ASCII digits, blanks and underscores if they are allowed. -/
def isAllowed (digits spaces underscores : Bool) (c : Char) : Bool :=
  c.isAlpha || digits && c.isDigit || spaces && Text.isBlank c || underscores && c == '_'

/-- Holds for a text of characters of a class, at least one of them. -/
def ConsistsOf (p : Char → Bool) (s : String) : Prop := s ≠ "" ∧ ∀ c ∈ s.toList, p c = true

/-- The class of these characters, as the patterns of the rules have it. -/
def classItems (digits spaces underscores : Bool) : List ClassItem :=
  [.range 'a' 'z', .range 'A' 'Z'] ++ (if digits then [.range '0' '9'] else []) ++
    (if spaces then [.blank false] else []) ++ if underscores then [.range '_' '_'] else []

theorem takes_range_self (d c : Char) : (ClassItem.range d d).takes c = (c == d) := by
  rw [ClassItem.takes, Bool.eq_iff_iff, Bool.and_eq_true, decide_eq_true_eq, decide_eq_true_eq,
    beq_iff_eq]
  exact ⟨fun ⟨h, h'⟩ => Char.le_antisymm h' h,
    fun h => h ▸ ⟨Char.le_refl _, Char.le_refl _⟩⟩

theorem takes_classItems (digits spaces underscores : Bool) (c : Char) :
    takes false (classItems digits spaces underscores) c =
      isAllowed digits spaces underscores c := by
  have hlower : (ClassItem.range 'a' 'z').takes c = c.isLower := rfl
  have hupper : (ClassItem.range 'A' 'Z').takes c = c.isUpper := (Bool.decide_and ..).symm
  have hdigit : (ClassItem.range '0' '9').takes c = c.isDigit := rfl
  have hblank : (ClassItem.blank false).takes c = Text.isBlank c := by simp [ClassItem.takes]
  have hletter : (c.isLower || c.isUpper) = c.isAlpha := Bool.or_comm ..
  unfold takes classItems isAllowed
  cases digits <;> cases spaces <;> cases underscores <;>
    simp [hlower, hupper, hdigit, hblank, takes_range_self, ← hletter, Bool.or_assoc]

/-- The pattern of a text of these characters. -/
def classPattern (digits spaces underscores : Bool) : Pattern :=
  .seq .start (.seq (.times (.oneOf false (classItems digits spaces underscores)) 1 none) .stop)

theorem read?_lettersPattern (spaces : Bool) :
    read? (lettersPattern spaces) = some (classPattern false spaces false) := by
  cases spaces <;> decide

theorem read?_alphanumericPattern (spaces underscores : Bool) :
    read? (alphanumericPattern spaces underscores) =
      some (classPattern true spaces underscores) := by
  cases spaces <;> cases underscores <;> decide

/-! ## Texts that are accepted -/

section

variable {digits spaces underscores : Bool} {s : String}

theorem isAllowed_lineFeed (digits underscores : Bool) :
    isAllowed digits true underscores '\n' = true := by
  cases digits <;> cases underscores <;> decide

theorem consistsOf_ofList {p : Char → Bool} {cs : List Char} :
    ConsistsOf p (String.ofList cs) ↔ cs ≠ [] ∧ ∀ c ∈ cs, p c = true := by
  simp [ConsistsOf]

/-- The pattern matches in the texts of its characters, and in these with a line feed behind them,
which is one of the characters if blanks are. -/
theorem occursIn_classPattern_iff :
    (classPattern digits spaces underscores).occursIn s = true ↔
      ConsistsOf (isAllowed digits spaces underscores) s ∨
        spaces = false ∧ ∃ line, s = line ++ "\n" ∧
          ConsistsOf (isAllowed digits spaces underscores) line := by
  rw [classPattern, occursIn_anchored_iff]
  simp only [takes_classItems]
  constructor
  · rintro ⟨taken, hne, htaken, hs | hs⟩
    · exact .inl ⟨fun hempty => hne (by rw [← hs, hempty]; rfl), hs ▸ htaken⟩
    · cases spaces with
      | true =>
        refine .inl ⟨fun hempty => ?_, fun c hc => ?_⟩
        · rw [hempty] at hs
          simp at hs
        · rw [hs, List.mem_append, List.mem_singleton] at hc
          rcases hc with hc | rfl
          · exact htaken c hc
          · exact isAllowed_lineFeed digits underscores
      | false =>
        refine .inr ⟨rfl, String.ofList taken, ?_, consistsOf_ofList.2 ⟨hne, htaken⟩⟩
        rw [← String.toList_inj, hs, String.toList_append, String.toList_ofList]
        rfl
  · rintro (⟨hne, hall⟩ | ⟨-, line, rfl, hne, hall⟩)
    · exact ⟨s.toList, by simpa using hne, hall, .inl rfl⟩
    · refine ⟨line.toList, by simpa using hne, hall, .inr ?_⟩
      rw [String.toList_append]
      rfl

end

/-- A rule on characters gives a verdict on every text.  It accepts the texts that consist of the
characters it allows, and where it does not allow blanks, these with a line feed behind them. -/
theorem check_characters (spaces underscores : Bool) (s : String) :
    (∃ accepted, (letters spaces).check (.text s) = .ok accepted ∧
      (accepted = true ↔ ConsistsOf (isAllowed false spaces false) s ∨
        spaces = false ∧ ∃ line, s = line ++ "\n" ∧
          ConsistsOf (isAllowed false spaces false) line)) ∧
    ∃ accepted, (alphanumeric spaces underscores).check (.text s) = .ok accepted ∧
      (accepted = true ↔ ConsistsOf (isAllowed true spaces underscores) s ∨
        spaces = false ∧ ∃ line, s = line ++ "\n" ∧
          ConsistsOf (isAllowed true spaces underscores) line) := by
  refine ⟨⟨_, ?_, occursIn_classPattern_iff⟩, _, ?_, occursIn_classPattern_iff⟩
  · rw [check, checkMatch, read?_lettersPattern]
    rfl
  · rw [check, checkMatch, read?_alphanumericPattern]
    rfl

/-- A line feed behind a letter is accepted, though no blanks are allowed. -/
theorem check_letters_lineFeed :
    (letters false).check (.text "a\n") = .ok true ∧
      ¬ ConsistsOf (isAllowed false false false) "a\n" := by
  refine ⟨?_, fun ⟨_, hall⟩ => ?_⟩
  · have hoccurs : (classPattern false false false).occursIn "a\n" = true := by decide
    rw [check, checkMatch, read?_lettersPattern]
    exact congrArg Except.ok hoccurs
  · exact absurd (hall '\n' (by decide)) (by decide)

end PgSchema.ValueRule
