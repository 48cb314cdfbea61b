/-
# The ink of canonical statements

Each step of the canonical form keeps the ink of a statement, except that the last one joins
what follows a line comment to its mask.

* `ink_tidy` : the steps before the last one keep the ink;
* `isSingleSpaced_tidy` : they leave single spaces between characters as the only white space.
-/
import PgSchema.Layout.Canonical
import PgSchema.Proofs.Layout.Lookup
import PgSchema.Proofs.Text.Occurrences

namespace PgSchema.Layout

open Text

/-- The canonical form before line comments are joined to what follows them. -/
def tidy (cs : List Char) : List Char :=
  dropBefore (fun c => c == ',' || c == ';') <| dropBefore (· == ')') <|
    dropAfterOpening <| singleSpaced cs

theorem canonical_eq (cs : List Char) : canonical cs = dropAfterLineMask (tidy cs) := rfl

/-! ## Words with single spaces -/

/-- Words are written behind a word begun so far as they stand in the text. -/
theorem ink_intercalate_wordsFrom {j : Joint} (hj : j ≠ .joined) {word : List Char}
    (hword : word.all (!isBlank ·) = true) (cs : List Char) :
    ink j ([' '].intercalate (wordsFrom word cs)) = ink j (word.reverse ++ cs) := by
  -- the word begun so far is written before the rest, last character first
  induction cs generalizing j word with
  | nil =>
    cases word with
    | nil => rfl
    | cons w word => simp [wordsFrom]
  | cons c cs ih =>
    by_cases hc : isBlank c = true
    · rw [wordsFrom, if_pos hc]
      cases word with
      | nil =>
        simp only [List.isEmpty_nil, if_true, List.reverse_nil, List.nil_append]
        rw [ih hj (by rfl), ink_cons_blank hc, Joint.blank_of_ne_joined hj]
        rfl
      | cons w word =>
        simp only [List.isEmpty_cons, Bool.false_eq_true, if_false]
        rw [ink_append, ink_cons_blank hc]
        have hrest : ink (j.after (w :: word).reverse).blank ([' '].intercalate (wordsFrom [] cs))
            = ink (j.after (w :: word).reverse).blank cs := ih (by simp) (by rfl)
        -- a space is written behind the word only if another word follows
        cases hws : wordsFrom [] cs with
        | nil =>
          rw [hws] at hrest
          rw [← hrest]
          simp
        | cons v words =>
          rw [hws] at hrest
          rw [List.intercalate_cons_cons, List.append_assoc, ink_append, ← hrest]
          rw [List.singleton_append, ink_cons_blank (by decide)]
    · rw [wordsFrom, if_neg hc]
      rw [Bool.not_eq_true] at hc
      rw [ih hj (by simp [hc, hword]), List.reverse_cons, List.append_assoc]
      rfl

/-- Single spacing keeps the ink of a text that starts behind white space or where it is free. -/
theorem ink_singleSpaced {j : Joint} (hj : j ≠ .joined) (cs : List Char) :
    ink j (singleSpaced cs) = ink j cs :=
  ink_intercalate_wordsFrom hj (by rfl) cs

/-! ## Spaces beside punctuation -/

/-- The white space behind an opening parenthesis is free. -/
theorem ink_dropAfterOpening (j : Joint) (cs : List Char) :
    ink j (dropAfterOpening cs) = ink j cs := by
  fun_induction dropAfterOpening cs generalizing j with
  | case1 => rfl
  | case2 c => rfl
  | case3 c d cs h ih =>
    simp only [Bool.and_eq_true, beq_iff_eq] at h
    obtain ⟨rfl, rfl⟩ := h
    rw [ink_punctuation (by decide), ink_punctuation (by decide), ih,
      ink_cons_blank (by decide)]
    rfl
  | case4 c d cs h ih => exact ink_cons_congr ih j c

/-- The white space before punctuation is free. -/
theorem ink_dropBefore {p : Char → Bool} (hp : ∀ c, p c = true → isPunctuation c = true)
    (j : Joint) (cs : List Char) : ink j (dropBefore p cs) = ink j cs := by
  fun_induction dropBefore p cs generalizing j with
  | case1 => rfl
  | case2 c cs h ih =>
    simp only [Bool.and_eq_true, beq_iff_eq] at h
    obtain ⟨rfl, hd⟩ := h
    obtain ⟨d, ds, rfl, hd⟩ : ∃ d ds, cs = d :: ds ∧ p d = true := by
      cases cs with
      | nil => simp at hd
      | cons d ds => exact ⟨d, ds, rfl, by simpa using hd⟩
    rw [ih, ink_punctuation (hp d hd), ink_cons_blank (by decide), ink_punctuation (hp d hd)]
  | case3 c cs h ih => exact ink_cons_congr ih j c

/-- The steps before the last keep the ink of a statement. -/
theorem ink_tidy {j : Joint} (hj : j ≠ .joined) (cs : List Char) :
    ink j (tidy cs) = ink j cs := by
  rw [tidy, ink_dropBefore, ink_dropBefore, ink_dropAfterOpening, ink_singleSpaced hj]
  · intro c hc
    simp only [beq_iff_eq] at hc
    simp [isPunctuation, hc]
  · intro c hc
    simp only [Bool.or_eq_true, beq_iff_eq] at hc
    rcases hc with rfl | rfl <;> decide

/-! ## Single spaces -/

/-- Holds when the only white space of a text is single spaces, each with another character
behind it. -/
def IsSingleSpaced : List Char → Prop
  | [] => True
  | c :: cs => (isBlank c = true → c = ' ' ∧ cs.head?.any (!isBlank ·) = true) ∧ IsSingleSpaced cs

theorem isSingleSpaced_append {cs ds : List Char} (hcs : IsSingleSpaced cs)
    (hds : IsSingleSpaced ds) : IsSingleSpaced (cs ++ ds) := by
  induction cs with
  | nil => exact hds
  | cons c cs ih =>
    refine ⟨fun hc => ?_, ih hcs.2⟩
    obtain ⟨hspace, hhead⟩ := hcs.1 hc
    cases cs with
    | nil => simp at hhead
    | cons d cs => exact ⟨hspace, hhead⟩

theorem isSingleSpaced_of_no_blank {cs : List Char} (h : cs.all (!isBlank ·) = true) :
    IsSingleSpaced cs := by
  induction cs with
  | nil => trivial
  | cons c cs ih =>
    rw [List.all_cons, Bool.and_eq_true] at h
    exact ⟨fun hc => by simp [hc] at h, ih h.2⟩

/-- The words of a text are not empty and have no white space. -/
theorem of_mem_wordsFrom {word w : List Char} {cs : List Char}
    (hword : word.all (!isBlank ·) = true) (hw : w ∈ wordsFrom word cs) :
    w ≠ [] ∧ w.all (!isBlank ·) = true := by
  induction cs generalizing word with
  | nil =>
    cases word with
    | nil => simp [wordsFrom] at hw
    | cons v word =>
      simp only [wordsFrom, List.isEmpty_cons, Bool.false_eq_true, if_false,
        List.mem_singleton] at hw
      subst hw
      exact ⟨by simp, by simpa [and_comm] using hword⟩
  | cons c cs ih =>
    rw [wordsFrom] at hw
    by_cases hc : isBlank c = true
    · rw [if_pos hc] at hw
      cases word with
      | nil => exact ih hword (by simpa using hw)
      | cons v word =>
        simp only [List.isEmpty_cons, Bool.false_eq_true, if_false, List.mem_cons] at hw
        rcases hw with rfl | hw
        · exact ⟨by simp, by simpa [and_comm] using hword⟩
        · exact ih (by rfl) hw
    · rw [if_neg hc] at hw
      rw [Bool.not_eq_true] at hc
      exact ih (by simp [hc, hword]) hw

/-- Words with single spaces between them are single-spaced. -/
theorem isSingleSpaced_intercalate {ws : List (List Char)}
    (hws : ∀ w ∈ ws, w ≠ [] ∧ w.all (!isBlank ·) = true) :
    IsSingleSpaced ([' '].intercalate ws) := by
  induction ws with
  | nil => trivial
  | cons w ws ih =>
    obtain ⟨-, hw⟩ := hws w (by simp)
    cases ws with
    | nil => simpa using isSingleSpaced_of_no_blank hw
    | cons v ws =>
      have hrest := ih (fun u hu => hws u (by simp [hu]))
      rw [List.intercalate_cons_cons, List.append_assoc]
      refine isSingleSpaced_append (isSingleSpaced_of_no_blank hw) ⟨fun _ => ⟨rfl, ?_⟩, hrest⟩
      -- the next word starts with a character that is no blank
      obtain ⟨hv, hv'⟩ := hws v (by simp)
      cases v with
      | nil => exact absurd rfl hv
      | cons d v =>
        rw [List.all_cons, Bool.and_eq_true] at hv'
        cases ws with
        | nil => simpa using hv'.1
        | cons u ws => simpa [List.intercalate_cons_cons] using hv'.1

theorem isSingleSpaced_singleSpaced (cs : List Char) : IsSingleSpaced (singleSpaced cs) :=
  isSingleSpaced_intercalate fun _ hw => of_mem_wordsFrom (by rfl) hw

theorem head?_dropAfterOpening (cs : List Char) : (dropAfterOpening cs).head? = cs.head? := by
  fun_cases dropAfterOpening cs with
  | case1 => rfl
  | case2 c => rfl
  | case3 c d cs h =>
    simp only [Bool.and_eq_true, beq_iff_eq] at h
    simp [h.1]
  | case4 c d cs h => rfl

theorem isSingleSpaced_dropAfterOpening {cs : List Char} (h : IsSingleSpaced cs) :
    IsSingleSpaced (dropAfterOpening cs) := by
  fun_induction dropAfterOpening cs with
  | case1 => trivial
  | case2 c => exact h
  | case3 c d cs _ ih => exact ⟨fun hc => absurd hc (by decide), ih h.2.2⟩
  | case4 c d cs _ ih => exact ⟨by simpa [head?_dropAfterOpening] using h.1, ih h.2⟩

theorem isSingleSpaced_dropBefore {p : Char → Bool} {cs : List Char} (h : IsSingleSpaced cs) :
    IsSingleSpaced (dropBefore p cs) := by
  fun_induction dropBefore p cs with
  | case1 => trivial
  | case2 c cs _ ih => exact ih h.2
  | case3 c cs _ ih =>
    refine ⟨fun hc => ?_, ih h.2⟩
    obtain ⟨hspace, hhead⟩ := h.1 hc
    refine ⟨hspace, ?_⟩
    -- a character that is no blank is not dropped
    cases cs with
    | nil => simp at hhead
    | cons d cs =>
      have hd : isBlank d = false := by simpa using hhead
      have hne : (d == ' ') = false := by
        rw [beq_eq_false_iff_ne]
        rintro rfl
        exact absurd hd (by decide)
      simp [dropBefore, hne, hd]

theorem isSingleSpaced_tidy (cs : List Char) : IsSingleSpaced (tidy cs) :=
  isSingleSpaced_dropBefore <| isSingleSpaced_dropBefore <| isSingleSpaced_dropAfterOpening <|
    isSingleSpaced_singleSpaced cs

/-! ## Spaces behind line comments -/

/-- A line mask with a space behind it. -/
theorem spacedLineMask?_eq_some_iff {cs : List Char} {n : Nat} :
    spacedLineMask? cs = some n ↔ ∃ digits rest,
      cs = lineMark :: (digits ++ lineMark :: ' ' :: rest) ∧ digits ≠ [] ∧
        digits.all isDecimalDigit = true ∧ n = digits.length + 2 := by
  constructor
  · intro h
    cases cs with
    | nil => simp [spacedLineMask?] at h
    | cons c cs =>
      rw [spacedLineMask?] at h
      split at h
      · next hmask =>
        simp only [Bool.and_eq_true, beq_iff_eq, Bool.not_eq_true', List.isEmpty_eq_false_iff,
          List.isPrefixOf_iff_prefix] at hmask
        obtain ⟨⟨rfl, hne⟩, rest, hrest⟩ := hmask
        have hcs := List.takeWhile_append_dropWhile (p := isDecimalDigit) (l := cs)
        rw [← hrest] at hcs
        exact ⟨cs.takeWhile isDecimalDigit, rest, congrArg (lineMark :: ·) hcs.symm, hne,
          List.all_takeWhile, (Option.some.inj h).symm⟩
      · simp at h
  · rintro ⟨digits, rest, rfl, hne, hdigits, rfl⟩
    obtain ⟨htake, hdrop⟩ := span_digits hdigits (by decide : isMark lineMark = true) (' ' :: rest)
    simp [spacedLineMask?, htake, hdrop, hne]

theorem dropAfterLineMask_cons_eq (c : Char) (cs : List Char) :
    dropAfterLineMask (c :: cs) =
      match spacedLineMask? (c :: cs) with
      | some n => c :: dropAfterLineMaskFrom n cs
      | none => c :: dropAfterLineMask cs := rfl

theorem dropAfterLineMaskFrom_add_two (copied : Nat) (c : Char) (cs : List Char) :
    dropAfterLineMaskFrom (copied + 2) (c :: cs) =
      c :: dropAfterLineMaskFrom (copied + 1) cs := rfl

theorem dropAfterLineMaskFrom_append (v : List Char) (c : Char) (rest : List Char) :
    dropAfterLineMaskFrom (v.length + 1) (v ++ c :: rest) = v ++ dropAfterLineMask rest := by
  induction v with
  | nil => rfl
  | cons d v ih =>
    rw [List.length_cons, List.cons_append, dropAfterLineMaskFrom_add_two, ih, List.cons_append]

/-- The space behind a line mask is dropped. -/
theorem dropAfterLineMask_spaced {digits : List Char} (hne : digits ≠ [])
    (hdigits : digits.all isDecimalDigit = true) (rest : List Char) :
    dropAfterLineMask (lineMark :: (digits ++ lineMark :: ' ' :: rest)) =
      lineMark :: (digits ++ lineMark :: dropAfterLineMask rest) := by
  have hmask : spacedLineMask? (lineMark :: (digits ++ lineMark :: ' ' :: rest)) =
      some (digits.length + 2) :=
    spacedLineMask?_eq_some_iff.2 ⟨digits, rest, rfl, hne, hdigits, rfl⟩
  rw [dropAfterLineMask_cons_eq, hmask]
  have hcopy := dropAfterLineMaskFrom_append (digits ++ [lineMark]) ' ' rest
  rw [List.length_append, List.length_singleton] at hcopy
  simpa using hcopy

/-- Any other character stays. -/
theorem dropAfterLineMask_cons {c : Char} {cs : List Char}
    (h : spacedLineMask? (c :: cs) = none) :
    dropAfterLineMask (c :: cs) = c :: dropAfterLineMask cs := by
  rw [dropAfterLineMask_cons_eq, h]

/-- A text is read by line masks with a space behind them. -/
theorem lineMask_induction {motive : List Char → Prop} (nil : motive [])
    (spaced : ∀ digits rest, digits ≠ [] → digits.all isDecimalDigit = true → motive rest →
      motive (lineMark :: (digits ++ lineMark :: ' ' :: rest)))
    (char : ∀ c cs, spacedLineMask? (c :: cs) = none → motive cs → motive (c :: cs))
    (cs : List Char) : motive cs := by
  induction hn : cs.length using Nat.strongRecOn generalizing cs with
  | _ n ih =>
    cases cs with
    | nil => exact nil
    | cons c cs =>
      cases h : spacedLineMask? (c :: cs) with
      | none => exact char c cs h (ih cs.length (by simp [← hn]) cs rfl)
      | some k =>
        obtain ⟨digits, rest, heq, hne, hdigits, -⟩ := spacedLineMask?_eq_some_iff.1 h
        rw [heq] at hn ⊢
        exact spaced digits rest hne hdigits (ih rest.length (by simp [← hn]; omega) rest rfl)

/-- Spaces behind line masks are dropped on the two sides of another character independently. -/
theorem dropAfterLineMask_append {x : Char} (hx : isMaskChar x = false) (hspace : x ≠ ' ')
    (cs ds : List Char) :
    dropAfterLineMask (cs ++ x :: ds) = dropAfterLineMask cs ++ x :: dropAfterLineMask ds := by
  induction cs using lineMask_induction with
  | nil =>
    rw [List.nil_append, dropAfterLineMask_cons]
    · rfl
    · rw [Option.eq_none_iff_forall_ne_some]
      intro n hn
      obtain ⟨digits, rest, heq, -⟩ := spacedLineMask?_eq_some_iff.1 hn
      rw [(List.cons.inj heq).1] at hx
      exact absurd hx (by decide)
  | spaced digits rest hne hdigits ih =>
    rw [dropAfterLineMask_spaced hne hdigits, List.cons_append, List.append_assoc, List.cons_append,
      List.cons_append, dropAfterLineMask_spaced hne hdigits, ih]
    simp
  | char c cs h ih =>
    rw [dropAfterLineMask_cons h, List.cons_append, dropAfterLineMask_cons, ih, List.cons_append]
    rw [Option.eq_none_iff_forall_ne_some] at h ⊢
    intro n hn
    obtain ⟨digits, rest, heq, hne, hdigits, hn⟩ := spacedLineMask?_eq_some_iff.1 hn
    -- a mask with a space behind it would end before `x`, which is in no mask
    have hmask : lineMark :: (digits ++ [lineMark, ' ']) <+: (c :: cs) ++ x :: ds :=
      ⟨rest, by simpa using heq.symm⟩
    have hxmask : x ∉ lineMark :: (digits ++ [lineMark, ' ']) := by
      simp only [List.mem_cons, List.mem_append, List.not_mem_nil, or_false, not_or]
      refine ⟨?_, fun hmem => ?_, ?_, hspace⟩
      · rintro rfl
        exact absurd hx (by decide)
      · simp [isMaskChar, List.all_eq_true.1 hdigits x hmem] at hx
      · rintro rfl
        exact absurd hx (by decide)
    obtain ⟨rest', hrest⟩ := prefix_of_prefix_append_cons hmask hxmask
    refine h n (spacedLineMask?_eq_some_iff.2 ⟨digits, rest', ?_, hne, hdigits, hn⟩)
    rw [← hrest]
    simp

end PgSchema.Layout
