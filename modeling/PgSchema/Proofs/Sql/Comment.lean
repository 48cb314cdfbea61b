/-
# Comments of SQL text

A line comment ends before a line end or with the text; a block comment ends with its closing
mark, and comments may be nested in it.

* `next_line` and `next_block` : comments are found whatever stands behind them;
* `next_comment_cases` : the comments of a text.
-/
import PgSchema.Proofs.Sql.Quote

namespace PgSchema.Sql.Lexeme

open Text Layout

/-! ## Block comments -/

theorem commentLength?_nil (opening closing : Char × Char) (depth : Nat) :
    commentLength? opening closing depth [] = none := rfl

theorem commentLength?_singleton (opening closing : Char × Char) (depth : Nat) (c : Char) :
    commentLength? opening closing depth [c] = none := by
  simp [commentLength?]

/-- The end of a block comment is its first character, or it is found behind one or three
characters. -/
theorem commentLength?_cons_cons (opening closing : Char × Char) (depth : Nat) (c d : Char)
    (cs : List Char) : commentLength? opening closing depth (c :: d :: cs) =
      if (c == closing.1 && d == closing.2) && depth = 1 then some 2
      else
        let depth := if c == closing.1 && d == closing.2 then depth - 1 else depth
        match cs with
        | e :: rest =>
          if d == opening.1 && e == opening.2 then
            (commentLength? opening closing (depth + 1) rest).map (· + 3)
          else (commentLength? opening closing depth (d :: cs)).map (· + 1)
        | [] => (commentLength? opening closing depth [d]).map (· + 1) := by
  rw [commentLength?]
  simp only [List.head?_cons, Option.some_beq_some]
  cases cs <;> rfl

theorem two_le_of_commentLength? {opening closing : Char × Char} {depth : Nat} {cs : List Char}
    {n : Nat} (h : commentLength? opening closing depth cs = some n) : 2 ≤ n := by
  induction hlength : cs.length using Nat.strongRecOn generalizing cs depth n with
  | _ l ih =>
    subst hlength
    match cs with
    | [] => simp [commentLength?_nil] at h
    | [c] => simp [commentLength?_singleton] at h
    | c :: d :: cs =>
      rw [commentLength?_cons_cons] at h
      split at h
      · exact Nat.le_of_eq (Option.some.inj h)
      · cases cs with
        | nil => simp [commentLength?_singleton] at h
        | cons e cs =>
          simp only at h
          split at h
          · obtain ⟨k, hk, rfl⟩ := Option.map_eq_some_iff.1 h
            have := ih _ (by simp only [List.length_cons]; omega) hk rfl
            omega
          · obtain ⟨k, hk, rfl⟩ := Option.map_eq_some_iff.1 h
            have := ih _ (by simp only [List.length_cons]; omega) hk rfl
            omega

/-- The end of a block comment is found whatever stands behind it. -/
theorem commentLength?_append {opening closing : Char × Char} {depth : Nat} {t r : List Char}
    (h : commentLength? opening closing depth (t ++ r) = some t.length) (r' : List Char) :
    commentLength? opening closing depth (t ++ r') = some t.length := by
  induction hn : t.length using Nat.strongRecOn generalizing t depth with
  | _ n ih =>
    subst hn
    match t, h with
    | [], h => exact absurd (two_le_of_commentLength? h) (by decide)
    | [c], h => exact absurd (two_le_of_commentLength? h) (by simp)
    -- two characters that do not close leave no room for the closing mark in `t`
    | [c, d], h =>
      rw [List.cons_append, List.cons_append, List.nil_append, commentLength?_cons_cons] at h ⊢
      split at h
      · next hclosed => rw [if_pos hclosed]; rfl
      · exfalso
        cases r with
        | nil =>
          simp [commentLength?_singleton] at h
        | cons e r =>
          simp only at h
          split at h
          · obtain ⟨k, hk, hlength⟩ := Option.map_eq_some_iff.1 h
            have := two_le_of_commentLength? hk
            simp at hlength
          · obtain ⟨k, hk, hlength⟩ := Option.map_eq_some_iff.1 h
            have := two_le_of_commentLength? hk
            simp only [List.length_cons, List.length_nil] at hlength
            omega
    | c :: d :: e :: t, h =>
      simp only [List.cons_append] at h ⊢
      rw [commentLength?_cons_cons] at h ⊢
      split at h
      · have hlength := Option.some.inj h
        simp at hlength
      · next hopen =>
        rw [if_neg hopen]
        simp only at h ⊢
        split at h
        -- an inner comment opens behind `c`, so one more mark must close
        · next hinner =>
          rw [if_pos hinner]
          obtain ⟨k, hk, hlength⟩ := Option.map_eq_some_iff.1 h
          obtain rfl : k = t.length := by simpa using hlength
          rw [ih t.length (by simp only [List.length_cons]; omega) hk rfl]
          rfl
        · next hinner =>
          rw [if_neg hinner]
          obtain ⟨k, hk, hlength⟩ := Option.map_eq_some_iff.1 h
          obtain rfl : k = (d :: e :: t).length := by simpa using hlength
          have hrest := ih (d :: e :: t).length (Nat.lt_succ_self _) hk rfl
          rw [List.cons_append, List.cons_append] at hrest
          rw [hrest]
          rfl

/-! ## Comments at the start of a text -/

/-- Holds for the characters that end a line comment. -/
def endsLine (c : Char) : Bool := c == '\n' || c == '\r'

/-- A line comment is found before a line end or the end of the text. -/
theorem next_line (afterParameter : Bool) {body r : List Char} (hbody : body.any endsLine = false)
    (hr : ∀ c, r.head? = some c → endsLine c = true) :
    next afterParameter '-' ('-' :: (body ++ r)) = .ok (.comment, 1 + body.length) := by
  have htake : (body ++ r).takeWhile (fun c => c != '\n' && c != '\r') = body := by
    rw [List.takeWhile_append_of_pos]
    · cases r with
      | nil => simp
      | cons c r =>
        rw [List.takeWhile_cons_of_neg, List.append_nil]
        have hc := hr c rfl
        rw [endsLine, Bool.or_eq_true, beq_iff_eq, beq_iff_eq] at hc
        rcases hc with rfl | rfl <;> decide
    · intro c hc
      have hc' := List.any_eq_false.1 hbody c hc
      simpa [endsLine] using hc'
  have hstring : string? '-' ('-' :: (body ++ r)) = none := by
    rw [string?_eq_none_iff]
    simp [stringMarks]
  have hcomment : comment? '-' ('-' :: (body ++ r)) = some (.ok (.comment, 1 + body.length)) := by
    simp only [comment?, htake]
  simp only [next, hstring, hcomment]
  rfl

/-- A block comment is found whatever stands behind it. -/
theorem next_block (afterParameter : Bool) {t r : List Char}
    (h : commentLength? ('/', '*') ('*', '/') 1 (t ++ r) = some t.length) (r' : List Char) :
    next afterParameter '/' ('*' :: (t ++ r')) = .ok (.comment, t.length + 1) := by
  have hstring : string? '/' ('*' :: (t ++ r')) = none := by
    rw [string?_eq_none_iff]
    simp [stringMarks]
  have hcomment : comment? '/' ('*' :: (t ++ r')) = some (.ok (.comment, t.length + 1)) := by
    simp only [comment?, commentLength?_append h r']
  simp only [next, hstring, hcomment]
  rfl

/-- The end of a block comment stands in the text, behind its closing mark. -/
theorem exists_append_of_commentLength? {opening closing : Char × Char} {depth : Nat}
    {cs : List Char} {n : Nat} (h : commentLength? opening closing depth cs = some n) :
    ∃ v r, cs = v ++ [closing.1, closing.2] ++ r ∧ n = v.length + 2 := by
  -- on the length: an inner mark is passed over with the character before it
  induction hlength : cs.length using Nat.strongRecOn generalizing cs depth n with
  | _ l ih =>
    subst hlength
    match cs with
    | [] => simp [commentLength?_nil] at h
    | [c] => simp [commentLength?_singleton] at h
    | c :: d :: cs =>
      rw [commentLength?_cons_cons] at h
      split at h
      · next hclosed =>
        simp only [Bool.and_eq_true, beq_iff_eq] at hclosed
        exact ⟨[], cs, by rw [hclosed.1.1, hclosed.1.2]; rfl, (Option.some.inj h).symm⟩
      · cases cs with
        | nil => simp [commentLength?_singleton] at h
        | cons e cs =>
          simp only at h
          split at h
          · obtain ⟨k, hk, rfl⟩ := Option.map_eq_some_iff.1 h
            obtain ⟨v, r, rfl, rfl⟩ := ih _ (by simp only [List.length_cons]; omega) hk rfl
            exact ⟨c :: d :: e :: v, r, rfl, by simp⟩
          · obtain ⟨k, hk, rfl⟩ := Option.map_eq_some_iff.1 h
            obtain ⟨v, r, heq, rfl⟩ := ih _ (by simp only [List.length_cons]; omega) hk rfl
            exact ⟨c :: v, r, congrArg (c :: ·) heq, by simp⟩

/-- The comments of a text: to the end of the line, or between marks. -/
theorem next_comment_cases {afterParameter : Bool} {c : Char} {cs : List Char} {n : Nat}
    (h : next afterParameter c cs = .ok (.comment, n)) :
    (∃ body r, c = '-' ∧ cs = '-' :: (body ++ r) ∧ n = 1 + body.length ∧
      body.any endsLine = false ∧ ∀ c, r.head? = some c → endsLine c = true) ∨
    (∃ ds k, c = '/' ∧ cs = '*' :: ds ∧ n = k + 1 ∧
      commentLength? ('/', '*') ('*', '/') 1 ds = some k) ∨ c = '\x7b' := by
  have hblank := isBlank_eq_false_of_next h (by decide) (by decide)
  -- no other form of token has the kind of a comment
  have hcomment : comment? c cs = some (.ok (.comment, n)) := by
    obtain ⟨-, h⟩ | ⟨-, -, h⟩ | ⟨-, -, h⟩ | ⟨-, h⟩ | h | h := next_cases hblank h
    · rw [number] at h
      split at h <;> simp at h
    · obtain ⟨k, -, hkind, -⟩ := quotedAfter_eq_ok_iff.1 h
      simp at hkind
    · obtain ⟨ds, k, -, -, -, hkind, -⟩ := string?_loose h (by decide)
      simp at hkind
    · obtain hkind | hkind := kind_of_dollar h <;> simp at hkind
    · exact h
    · exact absurd h.1 (by decide)
  rw [comment?.eq_def] at hcomment
  simp only at hcomment
  split at hcomment
  · next ds =>
    refine .inl ⟨_, _, rfl, congrArg _ (List.takeWhile_append_dropWhile ..).symm,
      (Prod.mk.inj (Except.ok.inj (Option.some.inj hcomment))).2.symm, ?_, ?_⟩
    · rw [List.any_eq_false]
      intro c hc
      have hall := List.all_eq_true.1 (List.all_takeWhile (l := ds)) c hc
      simpa [endsLine] using hall
    · intro c hc
      have hnot := List.head?_dropWhile_not (fun c : Char => c != '\n' && c != '\r') ds
      rw [hc] at hnot
      rw [endsLine, ← Bool.not_eq_false', Bool.not_or]
      simpa using hnot
  · next ds =>
    split at hcomment
    · next k hk =>
      exact .inr (.inl ⟨ds, k, rfl, rfl,
        (Prod.mk.inj (Except.ok.inj (Option.some.inj hcomment))).2.symm, hk⟩)
    · simp at hcomment
  · exact .inr (.inr rfl)
  · simp at hcomment

/-! ## White space -/

/-- White space at the start of a text that can be cut. -/
theorem white_of_next {p : Bool} {c : Char} {cs : List Char} {kind : LexemeKind} {n : Nat}
    (h : next p c cs = .ok (kind, n)) (hkind : kind = .blank ∨ kind = .lineBreak) :
    (c :: cs.take n).all isBlank = true ∧
      ('\n' ∈ c :: cs.take n → kind = .lineBreak ∧ c :: cs.take n = ['\n']) ∧
      LexemeKind.afterParameter p kind = p := by
  have hc := isBlank_of_next h hkind
  rw [next_of_isBlank hc] at h
  by_cases htab : isSpaceOrTab c = true
  · rw [if_pos htab] at h
    obtain ⟨rfl, rfl⟩ := Prod.mk.inj (Except.ok.inj h)
    have htake : cs.take (cs.takeWhile isSpaceOrTab).length = cs.takeWhile isSpaceOrTab :=
      (List.prefix_iff_eq_take.1 (List.takeWhile_prefix _)).symm
    have hall : ∀ d ∈ c :: cs.takeWhile isSpaceOrTab, isSpaceOrTab d = true :=
      List.forall_mem_cons.2 ⟨htab, List.all_eq_true.1 List.all_takeWhile⟩
    rw [htake]
    refine ⟨List.all_eq_true.2 fun d hd => isBlank_of_isSpaceOrTab (hall d hd),
      fun hfeed => ?_, rfl⟩
    exact absurd (hall _ hfeed) (by decide)
  · rw [if_neg htab] at h
    obtain ⟨rfl, rfl⟩ := Prod.mk.inj (Except.ok.inj h)
    refine ⟨by rw [List.take_zero, List.all_cons, hc]; rfl, fun hfeed => ⟨rfl, ?_⟩, rfl⟩
    rw [List.take_zero, List.mem_singleton] at hfeed
    rw [List.take_zero, hfeed]

theorem isBlank_of_endsLine {c : Char} (h : endsLine c = true) : isBlank c = true := by
  rw [endsLine, Bool.or_eq_true, beq_iff_eq, beq_iff_eq] at h
  rcases h with rfl | rfl <;> decide

end PgSchema.Sql.Lexeme
