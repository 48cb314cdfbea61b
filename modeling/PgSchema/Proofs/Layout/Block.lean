/-
# Anonymous blocks

An anonymous block is the word `DO` and a body between two dollar marks.  The body ends at the next
mark, wherever it stands: for PostgreSQL and for the tokenizer alike.  So a block whose text has no
mark of its own is read as one body, and the layout keeps it as it is.

* `exists_throughFirst?` : where the body of a block ends;
* `verbatims_block_eq_iff` : when a block is one body;
* `format_block` : such a block is laid out as it stands.
-/
import PgSchema.Proofs.Layout.Format
import PgSchema.Proofs.Sql.Quote
import PgSchema.Proofs.Sql.Verbatim
import PgSchema.Proofs.Sql.Word
import PgSchema.Proofs.Text.Occurrences

namespace PgSchema.Sql

open Text Lexeme

/-- The mark at the two ends of a body without a tag. -/
def bodyMark : List Char := ['$', '$']

/-- A text between marks. -/
def marked (inside : List Char) : List Char := bodyMark ++ (inside ++ bodyMark)

/-- The block that runs a text. -/
def doBlock (inside : List Char) : List Char := 'D' :: 'O' :: ' ' :: (marked inside ++ [';'])

/-- Holds for a text in front of a mark that has no mark in it, and makes none with the mark behind
it. -/
def IsUnmarked (inside : List Char) : Prop := occurrences bodyMark (inside ++ ['$']) = 0

/-! ## Where a body ends -/

/-- A body ends at the mark behind its text, or before it if there is a mark in the text. -/
theorem exists_throughFirst? (inside rest : List Char) :
    ∃ n ≤ inside.length + 2, throughFirst? bodyMark (inside ++ (bodyMark ++ rest)) = some n ∧
      (n = inside.length + 2 ↔ IsUnmarked inside) := by
  unfold IsUnmarked
  induction inside with
  | nil => exact ⟨2, Nat.le_refl 2, rfl, iff_of_true rfl (by decide)⟩
  | cons c inside ih =>
    obtain ⟨n, hle, hn, hiff⟩ := ih
    have hstart : bodyMark.isPrefixOf (c :: (inside ++ (bodyMark ++ rest))) =
        bodyMark.isPrefixOf (c :: (inside ++ ['$'])) := by
      have hlength : bodyMark.length ≤ (c :: (inside ++ ['$'])).length := by simp [bodyMark]
      have happend := isPrefixOf_append hlength ('$' :: rest) []
      simpa [bodyMark] using happend
    rw [List.cons_append, List.cons_append, throughFirst?, occurrences, hstart, hn]
    cases hmark : bodyMark.isPrefixOf (c :: (inside ++ ['$'])) with
    | true => exact ⟨2, by simp, rfl, by simp⟩
    | false =>
      refine ⟨n + 1, Nat.succ_le_succ hle, rfl, ?_⟩
      rw [List.length_cons, Nat.add_right_comm, Nat.add_right_cancel_iff, hiff]
      simp

/-- The tokenizer looks for the end of a body where PostgreSQL does: a pair of quotes, which it
passes over at once, is no part of a mark. -/
theorem bodyLength?_eq_throughFirst? (tag cs : List Char) :
    bodyLength? ('$' :: tag) cs = throughFirst? ('$' :: tag) cs := by
  fun_induction bodyLength? ('$' :: tag) cs with
  | case1 => rfl
  | case2 c h => rw [throughFirst?, if_pos h]
  | case3 c h =>
    rw [throughFirst?, if_neg h]
    rfl
  | case4 c d cs hpair ih =>
    rw [Bool.and_eq_true, beq_iff_eq, beq_iff_eq] at hpair
    obtain ⟨rfl, rfl⟩ := hpair
    have hquote (ds : List Char) : ('$' :: tag).isPrefixOf ('\'' :: ds) = false := rfl
    rw [ih, throughFirst?, hquote, throughFirst?, hquote]
    cases throughFirst? ('$' :: tag) cs <;> rfl
  | case5 c d cs _ h => rw [throughFirst?, if_pos h]
  | case6 c d cs _ h ih => rw [throughFirst?, if_neg h, ih]

theorem throughFirst?_of_isUnmarked {inside : List Char} (h : IsUnmarked inside)
    (rest : List Char) :
    throughFirst? bodyMark (inside ++ (bodyMark ++ rest)) = some (inside.length + 2) := by
  obtain ⟨n, -, hn, hiff⟩ := exists_throughFirst? inside rest
  rw [hn, hiff.2 h]

/-! ## How PostgreSQL reads a block -/

theorem verbatimsFrom_eq_drop (skip : Nat) (cs : List Char) :
    verbatimsFrom skip false cs = verbatims (cs.drop skip) := by
  induction cs generalizing skip with
  | nil => simp [verbatims, verbatimsFrom]
  | cons c cs ih =>
    cases skip with
    | zero => rfl
    | succ skip => rw [verbatimsFrom, ih, List.drop_succ_cons]

/-- The first verbatim text of a block is its body. -/
theorem verbatims_do {cs : List Char} {n : Nat} (h : throughFirst? bodyMark cs = some n) :
    verbatims ('D' :: 'O' :: ' ' :: (bodyMark ++ cs)) =
      (bodyMark ++ cs.take n) :: verbatims (cs.drop n) := by
  have hword : verbatims ('D' :: 'O' :: ' ' :: (bodyMark ++ cs)) = verbatims (bodyMark ++ cs) := rfl
  have hbody : verbatim? '$' ('$' :: cs) = some (n + 1) := by
    have htag : ('$' :: cs).takeWhile (fun c => startsWord c || c.isDigit) = [] := rfl
    have hmark : throughFirst? ('$' :: [] ++ ['$']) cs = some n := h
    rw [verbatim?, dollarQuoted?, htag]
    simp only [List.length_nil, List.drop_zero, List.head?_nil, Option.all_none, if_true, hmark,
      Option.map_some, Nat.zero_add, Nat.add_comm 1 n]
  rw [hword, bodyMark, List.cons_append, List.cons_append, List.nil_append, verbatims,
    verbatimsFrom, hbody]
  simp [verbatimsFrom_eq_drop]

/-- A block is one body for PostgreSQL exactly when there is no mark in its text. -/
theorem verbatims_block_eq_iff {inside : List Char} :
    verbatims (doBlock inside) = [marked inside] ↔ IsUnmarked inside := by
  obtain ⟨n, hle, hn, hiff⟩ := exists_throughFirst? inside [';']
  have hlist : doBlock inside =
      'D' :: 'O' :: ' ' :: (bodyMark ++ (inside ++ (bodyMark ++ [';']))) := by
    simp [doBlock, marked]
  rw [hlist, verbatims_do hn, ← hiff]
  constructor
  · intro h
    -- a shorter body would not be the whole text between the marks
    have hlength := congrArg List.length (List.cons.inj h).1
    simp only [marked, bodyMark, List.length_append, List.length_take, List.length_cons,
      List.length_nil] at hlength
    omega
  · rintro rfl
    have hall : inside ++ (bodyMark ++ [';']) = (inside ++ bodyMark) ++ [';'] := by simp
    have hlen : inside.length + 2 = (inside ++ bodyMark).length := by simp [bodyMark]
    rw [hall, hlen, List.take_left, List.drop_left]
    rfl

/-! ## How the tokenizer reads a block -/

namespace Lexeme

/-- No keyword of several words starts with the word `DO`. -/
theorem phrase?_do (cs : List Char) : phrase? ('D' :: 'O' :: ' ' :: cs) = none :=
  @phrase?_append_eq_none ['D', 'O', ' '] (by decide) cs

theorem next_do (cs : List Char) : next false 'D' ('O' :: ' ' :: cs) = .ok (.command, 1) := by
  have hoperator : operator? ('D' :: 'O' :: ' ' :: cs) = none := by
    simp [operator?, operators, List.isPrefixOf]
  have hstring : string? 'D' ('O' :: ' ' :: cs) = none := rfl
  have hcomment : comment? 'D' ('O' :: ' ' :: cs) = none := rfl
  have hword : ('O' :: ' ' :: cs).takeWhile isWordChar = ['O'] := rfl
  have hkind : wordKind false ['D', 'O'] = .command := by decide
  rw [next, hstring, hcomment, hoperator, phrase?_do, hword]
  simp only [List.length_singleton, List.take_succ_cons, List.take_zero, hkind]
  rfl

/-- The body of a block is one quoted text. -/
theorem next_marked {inside : List Char} (h : IsUnmarked inside) (rest : List Char) :
    next false '$' ('$' :: (inside ++ (bodyMark ++ rest))) = .ok (.quoted, inside.length + 3) := by
  have hdollar := dollar_append (List.not_mem_nil : '$' ∉ []) (inside ++ (bodyMark ++ rest))
  have hlength : bodyLength? ['$', '$'] (inside ++ (bodyMark ++ rest)) =
      some (inside.length + 2) := by
    rw [bodyLength?_eq_throughFirst?]
    exact throughFirst?_of_isUnmarked h rest
  change dollar ('$' :: (inside ++ (bodyMark ++ rest))) = _
  rw [List.nil_append] at hdollar
  rw [hdollar]
  simp only [List.isEmpty_nil, Bool.not_true, Bool.false_and, Bool.false_eq_true, if_false,
    List.nil_append, List.cons_append, hlength, List.length_nil]
  rw [Nat.zero_add, Nat.add_comm]

/-- The lexemes of a block that is one body. -/
theorem scan_block {inside : List Char} (h : IsUnmarked inside) :
    scan (doBlock inside) = .ok [⟨.command, ['D', 'O']⟩, ⟨.blank, [' ']⟩, ⟨.quoted, marked inside⟩,
      ⟨.semicolon, [';']⟩] := by
  have hall : '$' :: (inside ++ (bodyMark ++ [';'])) = '$' :: (inside ++ bodyMark) ++ [';'] := by
    simp
  have hlen : inside.length + 3 = ('$' :: (inside ++ bodyMark)).length := by simp [bodyMark]
  have hend : scanFrom false 0 [';'] = .ok [⟨.semicolon, [';']⟩] :=
    scanFrom_cons_eq_ok_iff.2 ⟨.semicolon, 0, [], next_punctuation rfl _ _, rfl, rfl⟩
  have hquoted : scanFrom false 0 ('$' :: '$' :: (inside ++ (bodyMark ++ [';']))) =
      .ok [⟨.quoted, marked inside⟩, ⟨.semicolon, [';']⟩] := by
    refine scanFrom_cons_eq_ok_iff.2 ⟨.quoted, inside.length + 3, [⟨.semicolon, [';']⟩],
      next_marked h [';'], ?_, ?_⟩
    · rw [hall, hlen, List.drop_left]
      exact hend
    · rw [hall, hlen, List.take_left]
      simp [marked, bodyMark]
  have hlist : doBlock inside =
      'D' :: 'O' :: ' ' :: '$' :: '$' :: (inside ++ (bodyMark ++ [';'])) := by
    simp [doBlock, marked, bodyMark]
  rw [hlist]
  refine scanFrom_cons_eq_ok_iff.2 ⟨.command, 1, _, next_do _, ?_, rfl⟩
  exact scanFrom_cons_eq_ok_iff.2 ⟨.blank, 0, _, rfl, hquoted, rfl⟩

end Lexeme
end PgSchema.Sql

namespace PgSchema.Layout

open Sql

/-- A block whose body is masked. -/
def maskedBlock : List Char := ['D', 'O', ' '] ++ maskOf quotedMark 0 ++ [';']

theorem unmask_maskedBlock (body : List Char) :
    unmask [body] maskedBlock = .ok ('D' :: 'O' :: ' ' :: (body ++ [';'])) := rfl

/-- A masked block is no statement that the layout arranges. -/
theorem arrange_maskedBlock (body : List Char) :
    arrange [body] maskedBlock = .ok maskedBlock := by
  have hleading : leadingMasksFrom 0 maskedBlock = 0 := by decide
  have htable : "CREATE TABLE ".toList.isPrefixOf maskedBlock = false := by decide
  have hclauses : clausesOf maskedBlock = [] := by decide
  have hwrap : wrapFrom 0 [] maskedBlock = maskedBlock := by decide
  have hbare : arrangeBare [body] maskedBlock = .ok maskedBlock := by
    rw [arrangeBare, htable, unmask_maskedBlock, hclauses, List.map_nil, hwrap]
    simp [bind, Except.bind, pure, Except.pure]
  rw [arrange, hleading, List.drop_zero, hbare]
  rfl

/-- A block that is one body stays as it is. -/
theorem format_block {inside : List Char} (h : IsUnmarked inside) :
    format (String.ofList (doBlock inside)) = .ok (String.ofList (doBlock inside)) := by
  have hscan := Lexeme.scan_block h
  rw [← String.toList_ofList (l := doBlock inside)] at hscan
  have hpieces : Piece.ofLexemes [⟨.command, ['D', 'O']⟩, ⟨.blank, [' ']⟩,
      ⟨.quoted, marked inside⟩, ⟨.semicolon, [';']⟩] =
      [.loose ['D', 'O'], .loose [' '], .quoted (marked inside), .loose [';']] := rfl
  have hmask : mask [.loose ['D', 'O'], .loose [' '], .quoted (marked inside), .loose [';']] =
      maskedBlock := rfl
  have hstatements : statements maskedBlock = [maskedBlock] := by decide
  have hlayout : Layout.ofPieces [.loose ['D', 'O'], .loose [' '], .quoted (marked inside),
      .loose [';']] = .ok (doBlock inside) := by
    refine ofPieces_eq_ok_iff.2 ⟨[maskedBlock], ?_, unmask_maskedBlock (marked inside)⟩
    rw [hmask, hstatements]
    exact mapM_cons_eq_ok_iff.2 ⟨maskedBlock, [], arrange_maskedBlock _, rfl, rfl⟩
  rw [format_of_scan_eq_ok hscan, hpieces, hlayout]
  rfl

end PgSchema.Layout
