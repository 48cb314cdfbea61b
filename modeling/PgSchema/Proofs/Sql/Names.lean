/-
# Names and literals read back

A quoted literal ends at its first lone quote, and a doubled quote in it stands for one quote.  A
plain name is a word, and it is stored with its ASCII letters in lower case.  So the literal of a
text is read as the text, but a plain name is read as itself only if it has no capitals.

* `readLiteral?_append` : a literal is read back, whatever its text;
* `readName?_append` : a plain name is read in its stored form.
-/
import PgSchema.Proofs.Sql.Verbatim
import PgSchema.Proofs.Text.Span
import PgSchema.Sql.Quote

namespace PgSchema.Sql

/-! ## Literals -/

/-- The text of a literal behind its opening quote, and what follows the literal. -/
def literalRest? : List Char → Option (List Char × List Char)
  | '\'' :: '\'' :: cs => (literalRest? cs).map fun (text, rest) => ('\'' :: text, rest)
  | '\'' :: cs => some ([], cs)
  | c :: cs => (literalRest? cs).map fun (text, rest) => (c :: text, rest)
  | [] => none

/-- The text of the literal that a text starts with, and what follows the literal. -/
def readLiteral? : List Char → Option (String × List Char)
  | '\'' :: cs => (literalRest? cs).map fun (text, rest) => (String.ofList text, rest)
  | _ => none

theorem literalRest?_escapeChars (cs : List Char) {rest : List Char}
    (h : ∀ c ∈ rest.head?, c ≠ '\'') :
    literalRest? (escapeChars cs ++ '\'' :: rest) = some (cs, rest) := by
  induction cs with
  | nil =>
    rw [escapeChars, List.nil_append]
    cases rest with
    | nil => rfl
    | cons c rest =>
      rw [literalRest?]
      intro cs heq
      exact h c rfl (List.cons.inj heq).1
  | cons c cs ih =>
    rw [escapeChars]
    split
    · next hc =>
      obtain rfl := eq_of_beq hc
      rw [List.cons_append, List.cons_append, literalRest?, ih]
      rfl
    · next hc =>
      have hne : c ≠ '\'' := fun heq => hc (by rw [heq, beq_self_eq_true])
      rw [List.cons_append, literalRest?, ih]
      · rfl
      · exact fun _ heq => absurd heq hne
      · exact hne

/-- The literal of a text is read as the text. -/
theorem readLiteral?_append (s : String) {rest : List Char} (h : ∀ c ∈ rest.head?, c ≠ '\'') :
    readLiteral? ((literal s).toList ++ rest) = some (s, rest) := by
  have hlist : (literal s).toList ++ rest = '\'' :: (escapeChars s.toList ++ '\'' :: rest) := by
    simp [literal, escape, String.toList_append]
  rw [hlist, readLiteral?, literalRest?_escapeChars s.toList h, Option.map_some]
  simp only [String.ofList_toList]

theorem readLiteral?_append_cons (s : String) {c : Char} (h : c ≠ '\'') (rest : List Char) :
    readLiteral? ((literal s).toList ++ c :: rest) = some (s, c :: rest) :=
  readLiteral?_append s (by simpa using h)

/-! ## Plain names -/

/-- The form in which a plain name is stored. -/
def stored (name : String) : String := name.map Char.toLower

/-- Holds for a plain name: a word, and nothing else. -/
def isPlainName (name : String) : Bool :=
  match name.toList with
  | [] => false
  | c :: cs => startsWord c && cs.all continuesWord

/-- The stored form of the plain name that a text starts with, and what follows the name. -/
def readName? : List Char → Option (String × List Char)
  | [] => none
  | c :: cs =>
    if startsWord c then
      some (stored (String.ofList (c :: cs.takeWhile continuesWord)), cs.dropWhile continuesWord)
    else none

theorem stored_stored (name : String) : stored (stored name) = stored name := by
  have hlower (c : Char) : c.toLower.toLower = c.toLower := by
    unfold Char.toLower
    grind
  rw [← String.toList_inj, stored, stored, String.toList_map, String.toList_map, List.map_map]
  exact List.map_congr_left fun c _ => hlower c

/-- A plain name is read in its stored form. -/
theorem readName?_append {name : String} (hname : isPlainName name = true) {rest : List Char}
    (hrest : ∀ c ∈ rest.head?, continuesWord c = false) :
    readName? (name.toList ++ rest) = some (stored name, rest) := by
  unfold isPlainName at hname
  split at hname
  · simp at hname
  · next c cs hcs =>
    obtain ⟨hstart, hword⟩ := Bool.and_eq_true_iff.1 hname
    rw [List.all_eq_true] at hword
    rw [hcs, List.cons_append, readName?, if_pos hstart,
      Text.takeWhile_append_of_head? hword hrest, Text.dropWhile_append_of_head? hword hrest, ← hcs,
      String.ofList_toList]

theorem readName?_append_cons {name : String} (hname : isPlainName name = true) {c : Char}
    (h : continuesWord c = false) (rest : List Char) :
    readName? (name.toList ++ c :: rest) = some (stored name, c :: rest) :=
  readName?_append hname (by simpa using h)

end PgSchema.Sql
