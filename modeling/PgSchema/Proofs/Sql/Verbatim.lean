/-
# Verbatim texts

Literals, quoted identifiers, dollar-quoted bodies and comments stand for themselves, white space
included.  `verbatims` reads them off a text by the rules of PostgreSQL; `verbatimTexts` are those
that the tokenizer cuts off.

* `verbatims` : the verbatim texts, by PostgreSQL's rules;
* `hasShape_of_mem_scanFrom` : what the lexemes of white space and comments look like.
-/
import PgSchema.Proofs.Sql.Comment

namespace PgSchema.Sql

open Text Lexeme

/-! ## PostgreSQL's rules -/

/-- Holds for the characters that start a word. -/
def startsWord (c : Char) : Bool := c.isAlpha || c == '_' || 128 ≤ c.toNat

/-- Holds for the characters of a word behind the first one. -/
def continuesWord (c : Char) : Bool := startsWord c || c.isDigit || c == '$'

/-- The length of a text through the first occurrence of a delimiter. -/
def throughFirst? (delimiter : List Char) : List Char → Option Nat
  | [] => none
  | c :: cs =>
    if delimiter.isPrefixOf (c :: cs) then some delimiter.length
    else (throughFirst? delimiter cs).map (· + 1)

/-- The further length of a dollar-quoted body: its tag is empty or a word without dollar signs. -/
def dollarQuoted? (cs : List Char) : Option Nat :=
  let tag := cs.takeWhile fun c => startsWord c || c.isDigit
  match cs.drop tag.length with
  | '$' :: body =>
    if tag.head?.all startsWord then
      (throughFirst? ('$' :: tag ++ ['$']) body).map (tag.length + 1 + ·)
    else none
  | _ => none

/-- The length of a block comment behind its opening mark, with `depth` comments around it. -/
def blockEnd? (depth : Nat) : List Char → Option Nat
  | '*' :: '/' :: cs =>
    match depth with
    | 0 => some 2
    | depth + 1 => (blockEnd? depth cs).map (· + 2)
  | '/' :: '*' :: cs => (blockEnd? (depth + 1) cs).map (· + 2)
  | _ :: cs => (blockEnd? depth cs).map (· + 1)
  | [] => none

/-- The further length of the verbatim text that starts with `c`, if one does.  A literal may start
with a letter, and backslashes escape in it if that is `E`. -/
def verbatim? (c : Char) (cs : List Char) : Option Nat :=
  match c, cs with
  | '\'', cs => closingQuote? '\'' false cs
  | '"', cs => closingQuote? '"' false cs
  | '$', cs => dollarQuoted? cs
  | '-', '-' :: cs => some (1 + (cs.takeWhile (!endsLine ·)).length)
  | '/', '*' :: cs => (blockEnd? 0 cs).map (· + 1)
  | c, '\'' :: cs =>
    if c == 'e' || c == 'E' then (closingQuote? '\'' true cs).map (· + 1)
    else if ['b', 'B', 'n', 'N', 'x', 'X'].contains c then
      (closingQuote? '\'' false cs).map (· + 1)
    else none
  | _, _ => none

/-- The verbatim texts of a text whose first `skip` characters have been read; `inWord` holds behind
a character of a word. -/
def verbatimsFrom (skip : Nat) (inWord : Bool) : List Char → List (List Char)
  | [] => []
  | c :: cs =>
    match skip with
    | skip + 1 => verbatimsFrom skip false cs
    | 0 =>
      if inWord && continuesWord c then verbatimsFrom 0 true cs
      else
        match verbatim? c cs with
        | some n => (c :: cs.take n) :: verbatimsFrom n false cs
        | none => verbatimsFrom 0 (startsWord c) cs

/-- The literals, quoted identifiers, dollar-quoted bodies and comments of a text, in order. -/
def verbatims (cs : List Char) : List (List Char) := verbatimsFrom 0 false cs

example : verbatims "DO $f$ '' $$ $f$ /* a /* b */ */ x$1$ --c".toList =
    ["$f$ '' $$ $f$".toList, "/* a /* b */ */".toList, "--c".toList] := by decide

/-! ## The tokenizer's lexemes -/

namespace Lexeme

/-- Holds for quoted text and comments. -/
def isVerbatim (ℓ : Lexeme) : Bool := ℓ.kind == .quoted || ℓ.kind == .comment

/-- The texts of quoted text and comments, in order. -/
def verbatimTexts (ℓs : List Lexeme) : List (List Char) := (ℓs.filter isVerbatim).map (·.text)

theorem verbatimTexts_cons (ℓ : Lexeme) (ℓs : List Lexeme) :
    verbatimTexts (ℓ :: ℓs) = (if isVerbatim ℓ then [ℓ.text] else []) ++ verbatimTexts ℓs := by
  rw [verbatimTexts, verbatimTexts, List.filter_cons]
  split <;> rfl

/-- Holds for a comment to the end of its line, between block marks, or behind a brace. -/
def IsCommentText (text : List Char) : Prop :=
  (∃ body, text = '-' :: '-' :: body ∧ '\n' ∉ body) ∨
  (∃ v, text = '/' :: '*' :: (v ++ ['*', '/'])) ∨ ∃ w, text = '\x7b' :: w

/-- Holds for lexemes of white space that are blank and have a line feed only by itself, and for
comments that are texts of comments. -/
def HasShape (ℓ : Lexeme) : Prop :=
  (ℓ.kind = .blank ∨ ℓ.kind = .lineBreak → ℓ.text.all isBlank = true ∧
    ('\n' ∈ ℓ.text → ℓ.kind = .lineBreak ∧ ℓ.text = ['\n'])) ∧
  (ℓ.kind = .comment → IsCommentText ℓ.text)

theorem isCommentText_of_next {p : Bool} {c : Char} {cs : List Char} {n : Nat}
    (h : next p c cs = .ok (.comment, n)) : IsCommentText (c :: cs.take n) := by
  obtain ⟨body, r, rfl, rfl, rfl, hbody, -⟩ | ⟨ds, k, rfl, rfl, rfl, hk⟩ | rfl :=
    next_comment_cases h
  · refine .inl ⟨body, ?_, fun hmem => ?_⟩
    · rw [Nat.add_comm, List.take_succ_cons, List.take_left]
    · exact absurd (List.any_eq_false.1 hbody _ hmem) (by decide)
  · obtain ⟨v, r, rfl, rfl⟩ := exists_append_of_commentLength? hk
    have hlength : v.length + 2 = (v ++ ['*', '/']).length := by simp
    refine .inr (.inl ⟨v, ?_⟩)
    rw [List.take_succ_cons, hlength, List.take_left]
  · exact .inr (.inr ⟨_, rfl⟩)

theorem hasShape_of_mem_scanFrom {p : Bool} {cs : List Char} {ℓs : List Lexeme}
    (h : scanFrom p 0 cs = .ok ℓs) : ∀ ℓ ∈ ℓs, HasShape ℓ := by
  refine scan_induction (motive := fun _ _ ℓs => ∀ ℓ ∈ ℓs, HasShape ℓ) ?_ ?_ h
  · simp
  · intro p c cs kind n rest hnext hrest
    refine List.forall_mem_cons.2 ⟨⟨fun hkind => ?_, ?_⟩, hrest⟩
    · obtain ⟨hblank, hfeed, -⟩ := white_of_next hnext hkind
      exact ⟨hblank, hfeed⟩
    · rintro rfl
      exact isCommentText_of_next hnext

end Lexeme
end PgSchema.Sql
