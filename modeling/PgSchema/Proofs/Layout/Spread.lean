/-
# The ink of unmasked text

Unmasked text shows the characters of its segments.  Its ink is read off the glyph ink: a parted
glyph starts behind white space, any other one starts where the glyph before it ends.  Joining
what follows a line comment to its mask takes white space away from the masked text; where the
comment brings a line end of its own, the ink of the unmasked text stays.

* `ink_textOf` : the ink of unmasked text depends on the glyph ink only;
* `dropAfterLineMask_maskGlyphs` : joining to line masks, read on glyphs;
* `ink_textOf_joinLines` : it keeps the ink of the unmasked text.
-/
import PgSchema.Proofs.Layout.Canonical
import PgSchema.Proofs.Layout.Glyph

namespace PgSchema.Layout

open Text Glyph

/-! ## Ink of unmasked text -/

/-- The joint at which a stroke starts: a parted one starts behind white space. -/
def Joint.enter (j : Joint) (parted : Bool) : Joint := if parted then j.blank else j

/-- The ink of the unmasked text of glyph ink that starts at a joint. -/
def spread (j : Joint) : List (Bool × Glyph) → List (Bool × Char)
  | [] => []
  | (parted, g) :: strokes =>
    ink (j.enter parted) g.text ++ spread ((j.enter parted).after g.text) strokes

@[simp] theorem textOf_nil : textOf [] = [] := rfl

theorem textOf_cons (g : Glyph) (gs : List Glyph) : textOf (g :: gs) = g.text ++ textOf gs := rfl

theorem Joint.behind_ne_parted (c : Char) : Joint.behind c ≠ .parted := by
  rw [Joint.behind]
  split <;> decide

/-- The ink of unmasked text depends on the glyph ink only.  Behind a segment the text may start
at another joint than the glyphs, which count the segment as one character. -/
theorem ink_textOf {j k : Joint} (hfree : k = .free → j = .free) (gs : List Glyph) :
    ink (j.enter (k == .parted)) (textOf gs) = spread j (glyphInk k gs) := by
  induction gs generalizing j k with
  | nil => rfl
  | cons g gs ih =>
    rw [textOf_cons]
    cases g with
    | char c =>
      rw [Glyph.text, List.singleton_append, glyphInk]
      by_cases hc : isBlank c = true
      · have henter : (j.enter (k == .parted)).blank = j.enter (k.blank == .parted) := by
          cases k with
          | free => rw [hfree rfl]; rfl
          | joined => rfl
          | parted => exact Joint.blank_blank j
        rw [if_pos hc, ink_cons_blank hc, henter]
        apply ih
        cases k <;> simp_all [Joint.blank]
      · rw [if_neg hc, spread, Glyph.text]
        rw [Bool.not_eq_true] at hc
        have hbehind : (Joint.behind c == .parted) = false :=
          beq_eq_false_iff_ne.2 (Joint.behind_ne_parted c)
        have hrest := @ih (.behind c) (.behind c) id
        rw [hbehind] at hrest
        rw [← List.singleton_append, ink_append, Joint.after_cons hc, Joint.after_cons hc,
          Joint.after_nil, ← hrest]
        -- where the joints differ the character is punctuation
        by_cases hp : isPunctuation c = true
        · rw [ink_punctuation hp, ink_punctuation hp]
          rfl
        · rw [Bool.not_eq_true] at hp
          rw [hp, Bool.not_false, Bool.and_true]
          rfl
    | segment mark text =>
      rw [glyphInk, spread, Glyph.text, ink_append]
      exact congrArg _ (ih (k := .joined) (by simp))

/-- Glyphs with equal ink have unmasked texts with equal ink. -/
theorem ink_textOf_congr {gs hs : List Glyph} (h : glyphInk .free gs = glyphInk .free hs) :
    ink .free (textOf gs) = ink .free (textOf hs) := by
  have hspread (is : List Glyph) : ink .free (textOf is) = spread .free (glyphInk .free is) :=
    ink_textOf (k := .free) id is
  rw [hspread, hspread, h]

/-- The segments among glyphs are those of their ink. -/
theorem segmentsOf_eq_filterMap_glyphInk (j : Joint) (gs : List Glyph) :
    segmentsOf gs = (glyphInk j gs).filterMap fun stroke => stroke.2.kept? := by
  induction gs generalizing j with
  | nil => rfl
  | cons g gs ih =>
    cases g with
    | char c =>
      rw [glyphInk]
      split
      · exact ih _
      · rw [List.filterMap_cons_none (by rfl), ← ih]
        rfl
    | segment mark text =>
      rw [glyphInk, List.filterMap_cons_some (by rfl), ← ih]
      rfl

/-- Glyphs with equal ink have the same segments. -/
theorem segmentsOf_congr {gs hs : List Glyph} (h : glyphInk .free gs = glyphInk .free hs) :
    segmentsOf gs = segmentsOf hs := by
  rw [segmentsOf_eq_filterMap_glyphInk .free, segmentsOf_eq_filterMap_glyphInk .free, h]

/-! ## Spaces behind line comments -/

/-- Glyphs without a space right behind a line comment; `behind` tells whether one has just
ended. -/
def joinLinesFrom (behind : Bool) : List Glyph → List Glyph
  | [] => []
  | .char c :: gs =>
    if behind && c == ' ' then joinLinesFrom false gs else .char c :: joinLinesFrom false gs
  | .segment mark text :: gs => .segment mark text :: joinLinesFrom (mark == lineMark) gs

/-- Glyphs without a space right behind a line comment. -/
def joinLines (gs : List Glyph) : List Glyph := joinLinesFrom false gs

/-- Only a space at the start of glyphs depends on what is before them. -/
theorem joinLinesFrom_eq_joinLines {behind : Bool} {gs : List Glyph}
    (h : behind = true → gs.head? ≠ some (char ' ')) : joinLinesFrom behind gs = joinLines gs := by
  cases behind with
  | false => rfl
  | true =>
    cases gs with
    | nil => rfl
    | cons g gs =>
      cases g with
      | char c =>
        have hc : (c == ' ') = false := by simpa using h rfl
        simp [joinLines, joinLinesFrom, hc]
      | segment mark text => rfl

theorem joinLines_segment {mark : Char} {gs : List Glyph}
    (h : mark = lineMark → gs.head? ≠ some (char ' ')) (text : List Char) :
    joinLines (segment mark text :: gs) = segment mark text :: joinLines gs :=
  congrArg _ (joinLinesFrom_eq_joinLines fun hmark => h (beq_iff_eq.1 hmark))

theorem joinLines_line_space (text : List Char) (gs : List Glyph) :
    joinLines (segment lineMark text :: char ' ' :: gs) = segment lineMark text :: joinLines gs :=
  rfl

theorem joinLines_char (c : Char) (gs : List Glyph) :
    joinLines (char c :: gs) = char c :: joinLines gs :=
  rfl

theorem isProper_joinLinesFrom {gs : List Glyph} (h : ∀ g ∈ gs, g.IsProper) (behind : Bool) :
    ∀ g ∈ joinLinesFrom behind gs, g.IsProper := by
  induction gs generalizing behind with
  | nil => simp [joinLinesFrom]
  | cons g gs ih =>
    obtain ⟨hg, htail⟩ := List.forall_mem_cons.1 h
    cases g with
    | char c =>
      rw [joinLinesFrom]
      split
      · exact ih htail false
      · exact List.forall_mem_cons.2 ⟨hg, ih htail false⟩
    | segment mark text => exact List.forall_mem_cons.2 ⟨hg, ih htail _⟩

theorem segmentsOf_joinLinesFrom (behind : Bool) (gs : List Glyph) :
    segmentsOf (joinLinesFrom behind gs) = segmentsOf gs := by
  induction gs generalizing behind with
  | nil => rfl
  | cons g gs ih =>
    cases g with
    | char c =>
      rw [joinLinesFrom]
      split
      · exact ih false
      · exact ih false
    | segment mark text => exact congrArg (text :: ·) (ih _)

theorem segmentsOf_joinLines (gs : List Glyph) : segmentsOf (joinLines gs) = segmentsOf gs :=
  segmentsOf_joinLinesFrom false gs

theorem isProper_joinLines {gs : List Glyph} (h : ∀ g ∈ gs, g.IsProper) :
    ∀ g ∈ joinLines gs, g.IsProper :=
  isProper_joinLinesFrom h false

/-- Text without line marks is copied. -/
theorem dropAfterLineMask_append_of_notMem {w : List Char} (hw : lineMark ∉ w) (cs : List Char) :
    dropAfterLineMask (w ++ cs) = w ++ dropAfterLineMask cs := by
  induction w with
  | nil => rfl
  | cons c w ih =>
    rw [List.mem_cons, not_or] at hw
    rw [List.cons_append, dropAfterLineMask_cons, ih hw.2, List.cons_append]
    rw [Option.eq_none_iff_forall_ne_some]
    intro n hn
    obtain ⟨digits, rest, heq, -⟩ := spacedLineMask?_eq_some_iff.1 hn
    exact hw.1 (List.cons.inj heq).1.symm

/-- The line marks of glyphs have no space right behind them, except the closing ones of
masks. -/
theorem maskGlyphs_ne_digits_append {gs : List Glyph} (hgs : ∀ g ∈ gs, g.IsProper)
    {digits : List Char} (hdigits : digits.all isDecimalDigit = true) (number : Nat)
    (rest : List Char) : maskGlyphs number gs ≠ digits ++ lineMark :: ' ' :: rest := by
  induction gs generalizing digits with
  | nil => cases digits <;> simp [maskGlyphs]
  | cons g gs ih =>
    obtain ⟨hg, htail⟩ := List.forall_mem_cons.1 hgs
    intro h
    cases g with
    | char c =>
      cases digits with
      | nil =>
        rw [maskGlyphs, List.nil_append] at h
        rw [IsProper, (List.cons.inj h).1] at hg
        exact absurd hg (by decide)
      | cons d digits =>
        rw [List.all_cons, Bool.and_eq_true] at hdigits
        exact ih htail hdigits.2 (List.cons.inj h).2
    | segment mark text =>
      rw [maskGlyphs, maskOf_append] at h
      cases digits with
      | nil =>
        -- the digits of the number stand behind the opening mark
        have hrest := (List.cons.inj h).2
        cases hdigits' : (toString number).toList with
        | nil => exact toString_toList_ne_nil number hdigits'
        | cons d ds =>
          rw [hdigits', List.cons_append] at hrest
          have hd := isDecimalDigit_of_mem_toString (hdigits' ▸ List.mem_cons_self (a := d))
          rw [(List.cons.inj hrest).1] at hd
          exact absurd hd (by decide)
      | cons d digits =>
        rw [List.all_cons, Bool.and_eq_true, ← (List.cons.inj h).1] at hdigits
        simp [isDecimalDigit_of_isMark hg] at hdigits

theorem spacedLineMask?_maskGlyphs {gs : List Glyph} (hgs : ∀ g ∈ gs, g.IsProper) (number : Nat) :
    spacedLineMask? (lineMark :: maskGlyphs number gs) = none := by
  rw [Option.eq_none_iff_forall_ne_some]
  intro n hn
  obtain ⟨digits, rest, heq, -, hdigits, -⟩ := spacedLineMask?_eq_some_iff.1 hn
  exact maskGlyphs_ne_digits_append hgs hdigits number rest (List.cons.inj heq).2

/-- A line mask before glyphs that do not start with a space has no space behind it. -/
theorem spacedLineMask?_maskOf_append {gs : List Glyph} (hgs : ∀ g ∈ gs, g.IsProper)
    (hspace : gs.head? ≠ some (char ' ')) (number next : Nat) :
    spacedLineMask? (maskOf lineMark number ++ maskGlyphs next gs) = none := by
  rw [Option.eq_none_iff_forall_ne_some]
  intro n hn
  rw [maskOf_append] at hn
  obtain ⟨digits, rest, heq, -, hdigits, -⟩ := spacedLineMask?_eq_some_iff.1 hn
  have hdrop := congrArg (List.dropWhile isDecimalDigit) (List.cons.inj heq).2
  rw [(span_digits (digits_toString number) (by decide) _).2,
    (span_digits hdigits (by decide) _).2] at hdrop
  have hrest := (List.cons.inj hdrop).2
  cases gs with
  | nil => simp [maskGlyphs] at hrest
  | cons g gs =>
    cases g with
    | char c => exact hspace (by simp [(List.cons.inj hrest).1])
    | segment mark text =>
      rw [maskGlyphs, maskOf_append] at hrest
      have hmark : isMark mark = true := hgs _ List.mem_cons_self
      rw [(List.cons.inj hrest).1] at hmark
      exact absurd hmark (by decide)

theorem notMem_digits {m : Char} (hm : isMark m = true) (n : Nat) : m ∉ (toString n).toList := by
  intro h
  have hdigit := isDecimalDigit_of_mem_toString h
  simp [isDecimalDigit_of_isMark hm] at hdigit

/-- Joining to line masks, read on glyphs. -/
theorem dropAfterLineMask_maskGlyphs {gs : List Glyph} (hgs : ∀ g ∈ gs, g.IsProper)
    (number : Nat) :
    dropAfterLineMask (maskGlyphs number gs) = maskGlyphs number (joinLines gs) := by
  induction hn : gs.length using Nat.strongRecOn generalizing gs number with
  | _ n ih =>
    cases gs with
    | nil => rfl
    | cons g gs =>
      obtain ⟨hg, htail⟩ := List.forall_mem_cons.1 hgs
      have ihtail := fun number => ih gs.length (by simp [← hn]) htail number rfl
      cases g with
      | char c =>
        have hc : lineMark ∉ [c] := by
          rw [List.mem_singleton]
          intro hline
          rw [IsProper, ← hline] at hg
          exact absurd hg (by decide)
        rw [joinLines_char, maskGlyphs, maskGlyphs, ← List.singleton_append,
          dropAfterLineMask_append_of_notMem hc, ihtail, List.singleton_append]
      | segment mark text =>
        by_cases hline : mark = lineMark
        · subst hline
          -- a space behind a line mask goes with the mask, so the induction is on the length
          by_cases hspace : gs.head? = some (char ' ')
          · obtain ⟨hs, rfl⟩ := List.head?_eq_some_iff.1 hspace
            have ihs := ih hs.length (by simp only [← hn, List.length_cons]; omega)
              (fun g hg => htail g (List.mem_cons_of_mem _ hg)) (number + 1) rfl
            rw [joinLines_line_space, maskGlyphs, maskGlyphs, maskGlyphs, maskOf_append,
              dropAfterLineMask_spaced (toString_toList_ne_nil number) (digits_toString number),
              ihs, maskOf_append]
          · have hmask := spacedLineMask?_maskOf_append htail hspace number (number + 1)
            rw [maskOf_append] at hmask
            rw [joinLines_segment fun _ => hspace, maskGlyphs, maskGlyphs, maskOf_append,
              dropAfterLineMask_cons hmask,
              dropAfterLineMask_append_of_notMem (notMem_digits (by decide) number),
              dropAfterLineMask_cons (spacedLineMask?_maskGlyphs htail _), ihtail, maskOf_append]
        · have hmask : lineMark ∉ maskOf mark number := by
            simp only [maskOf, List.cons_append, List.mem_cons, List.mem_append, List.not_mem_nil,
              or_false, not_or]
            exact ⟨Ne.symm hline, notMem_digits (by decide) number, Ne.symm hline⟩
          rw [joinLines_segment fun h => absurd h hline, maskGlyphs, maskGlyphs,
            dropAfterLineMask_append_of_notMem hmask, ihtail]

/-! ## Line ends -/

/-- Holds for a text that ends with white space. -/
def EndsBlank (cs : List Char) : Prop := cs.getLast?.any isBlank = true

/-- Holds for glyph ink in which a line comment with white space behind it ends with white space
itself. -/
def LinesEnd : List (Bool × Glyph) → Prop
  | [] => True
  | (_, .char _) :: strokes => LinesEnd strokes
  | (_, .segment mark text) :: strokes =>
    (mark = lineMark → strokes.head?.any Prod.fst = true → EndsBlank text) ∧ LinesEnd strokes

theorem after_ne_joined_of_endsBlank {cs : List Char} (h : EndsBlank cs) (j : Joint) :
    j.after cs ≠ .joined := by
  rw [EndsBlank] at h
  obtain ⟨c, hlast, hc⟩ := (Option.any_eq_true _ _).1 h
  obtain ⟨front, rfl⟩ := List.getLast?_eq_some_iff.1 hlast
  rw [Joint.after_append, Joint.after_cons_blank hc]
  exact Joint.blank_ne_joined _

/-- White space is free before a text whose glyph ink does not start with a parted glyph. -/
theorem ink_blank_textOf {gs : List Glyph} (h : (glyphInk .parted gs).head?.any Prod.fst = false)
    (j : Joint) : ink j.blank (textOf gs) = ink j (textOf gs) := by
  induction gs generalizing j with
  | nil => rfl
  | cons g gs ih =>
    rw [textOf_cons]
    cases g with
    | char c =>
      rw [Glyph.text, List.singleton_append]
      rw [glyphInk] at h
      by_cases hc : isBlank c = true
      · rw [ink_cons_blank hc, ink_cons_blank hc, Joint.blank_blank]
      · rw [if_neg hc] at h
        have hp : isPunctuation c = true := by simpa using h
        rw [ink_punctuation hp, ink_punctuation hp]
    | segment mark text => simp [glyphInk] at h

/-- Joining to line comments keeps the ink of the unmasked text. -/
theorem ink_textOf_joinLines {k : Joint} {gs : List Glyph} (h : LinesEnd (glyphInk k gs))
    (j : Joint) : ink j (textOf (joinLines gs)) = ink j (textOf gs) := by
  induction hn : gs.length using Nat.strongRecOn generalizing gs j k with
  | _ n ih =>
    cases gs with
    | nil => rfl
    | cons g gs =>
      have ihtail : ∀ {k}, LinesEnd (glyphInk k gs) → ∀ j,
          ink j (textOf (joinLines gs)) = ink j (textOf gs) :=
        fun h j => ih gs.length (by simp [← hn]) h j rfl
      cases g with
      | char c =>
        rw [joinLines_char, textOf_cons, textOf_cons, ink_append, ink_append]
        rw [glyphInk] at h
        by_cases hc : isBlank c = true
        · rw [if_pos hc] at h
          rw [ihtail h]
        · rw [if_neg hc] at h
          rw [ihtail h]
      | segment mark text =>
        obtain ⟨hline, hrest⟩ := h
        by_cases hspace : mark = lineMark ∧ gs.head? = some (char ' ')
        · obtain ⟨rfl, hhead⟩ := hspace
          obtain ⟨hs, rfl⟩ := List.head?_eq_some_iff.1 hhead
          have hblank : isBlank ' ' = true := by decide
          rw [glyphInk, if_pos hblank, Joint.blank] at hline hrest
          rw [joinLines_line_space, textOf_cons, textOf_cons, textOf_cons, ink_append, ink_append,
            ih hs.length (by simp only [← hn, List.length_cons]; omega) hrest _ rfl, Glyph.text,
            Glyph.text, List.singleton_append, ink_cons_blank hblank]
          congr 1
          -- the space dropped is free, or the comment ends with white space
          cases hparted : (glyphInk .parted hs).head?.any Prod.fst with
          | false => rw [ink_blank_textOf hparted]
          | true =>
            rw [Joint.blank_of_ne_joined (after_ne_joined_of_endsBlank (hline rfl hparted) j)]
        · rw [joinLines_segment fun hmark hhead => hspace ⟨hmark, hhead⟩, textOf_cons, textOf_cons,
            ink_append, ink_append, ihtail hrest]

end PgSchema.Layout
