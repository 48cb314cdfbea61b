/-
# Settled white space

The canonical form of a masked statement read off its strokes: a space stands between two
characters where white space stood, unless the first one is an opening parenthesis or the end
of a line mask, or the second one is a closing parenthesis, a comma or a semicolon.

* `tidy_eq_render` : the passes over single-spaced text as one pass over its strokes;
* `canonical_eq_render` : the canonical form as the text of settled strokes;
* `wellMasked_canonical` : a canonical form closes its line masks as the text does.
-/
import PgSchema.Proofs.Layout.Spread
import PgSchema.Proofs.Text.Span

namespace PgSchema.Layout

open Text Glyph

/-! ## Strokes of texts -/

/-- Whether white space stands right behind a text, where `b` tells this of the empty text. -/
def blankBehind (b : Bool) : List Char → Bool
  | [] => b
  | c :: cs => blankBehind (isBlank c) cs

theorem strokes_append (b : Bool) (cs ds : List Char) :
    strokes b (cs ++ ds) = strokes b cs ++ strokes (blankBehind b cs) ds := by
  induction cs generalizing b with
  | nil => rfl
  | cons c cs ih =>
    rw [List.cons_append, blankBehind]
    by_cases h : isBlank c = true
    · rw [strokes_cons_blank h, strokes_cons_blank h, ih, h]
    · rw [Bool.not_eq_true] at h
      rw [strokes_cons h, strokes_cons h, ih, h, List.cons_append]

theorem blankBehind_append (b : Bool) (cs ds : List Char) :
    blankBehind b (cs ++ ds) = blankBehind (blankBehind b cs) ds := by
  induction cs generalizing b with
  | nil => rfl
  | cons c cs ih => rw [List.cons_append, blankBehind, blankBehind, ih]

/-- A character is read before texts with equal strokes in the same way. -/
theorem strokes_cons_congr {cs ds : List Char} (h : ∀ b, strokes b cs = strokes b ds) (b : Bool)
    (c : Char) : strokes b (c :: cs) = strokes b (c :: ds) := by
  rw [strokes, strokes, h, h]

theorem isBlank_of_mem_strokes {b : Bool} {cs : List Char} {s : Bool × Char}
    (h : s ∈ strokes b cs) : isBlank s.2 = false := by
  induction cs generalizing b with
  | nil => simp [strokes] at h
  | cons c cs ih =>
    by_cases hc : isBlank c = true
    · rw [strokes_cons_blank hc] at h
      exact ih h
    · rw [Bool.not_eq_true] at hc
      rw [strokes_cons hc] at h
      obtain rfl | h := List.mem_cons.1 h
      · exact hc
      · exact ih h

/-! ## Texts of strokes -/

/-- The text of strokes: a single space where white space stood. -/
def render : List (Bool × Char) → List Char
  | [] => []
  | (b, c) :: S => (if b then [' ', c] else [c]) ++ render S

/-- Strokes with white space only where `keep` holds of the characters around it; `c` is the
character before. -/
def clear (keep : Char → Char → Bool) (c : Char) : List (Bool × Char) → List (Bool × Char)
  | [] => []
  | (b, d) :: S => (b && keep c d, d) :: clear keep d S

/-- Strokes without white space in front, and with white space between two characters only where
`keep` holds. -/
def settleWith (keep : Char → Char → Bool) : List (Bool × Char) → List (Bool × Char)
  | [] => []
  | (_, c) :: S => (false, c) :: clear keep c S

/-- Holds when white space between two characters stays in the canonical form. -/
def keeps (c d : Char) : Bool := c != '(' && c != lineMark && d != ')' && d != ',' && d != ';'

/-- Strokes with white space where the canonical form has it. -/
def settle (S : List (Bool × Char)) : List (Bool × Char) := settleWith keeps S

/-- Holds for strokes whose characters are no white space. -/
def IsSolid (S : List (Bool × Char)) : Prop := ∀ s ∈ S, isBlank s.2 = false

theorem isSolid_strokes (b : Bool) (cs : List Char) : IsSolid (strokes b cs) :=
  fun _ => isBlank_of_mem_strokes

theorem isSolid_cons {b : Bool} {c : Char} {S : List (Bool × Char)} :
    IsSolid ((b, c) :: S) ↔ isBlank c = false ∧ IsSolid S :=
  List.forall_mem_cons

theorem isSolid_clear {S : List (Bool × Char)} (h : IsSolid S) (keep : Char → Char → Bool)
    (c : Char) : IsSolid (clear keep c S) := by
  induction S generalizing c with
  | nil => exact h
  | cons s S ih =>
    obtain ⟨b, d⟩ := s
    rw [isSolid_cons] at h
    exact isSolid_cons.2 ⟨h.1, ih h.2 d⟩

/-- A space is no stroke. -/
theorem ne_space_of_isBlank_eq_false {c : Char} (h : isBlank c = false) : (c == ' ') = false := by
  rw [beq_eq_false_iff_ne]
  rintro rfl
  exact absurd h (by decide)

theorem clear_clear (keep keep' : Char → Char → Bool) (c : Char) (S : List (Bool × Char)) :
    clear keep c (clear keep' c S) = clear (fun c d => keep' c d && keep c d) c S := by
  induction S generalizing c with
  | nil => rfl
  | cons s S ih =>
    obtain ⟨b, d⟩ := s
    rw [clear, clear, clear, ih, Bool.and_assoc]

/-! ## The steps of the canonical form -/

/-- Words with a space before each are the text of the strokes, behind a word begun so far. -/
theorem flatMap_wordsFrom (word cs : List Char) :
    (wordsFrom word cs).flatMap (' ' :: ·) =
      if word.isEmpty then render (strokes true cs)
      else ' ' :: (word.reverse ++ render (strokes false cs)) := by
  induction cs generalizing word with
  | nil => cases word <;> simp [wordsFrom, strokes, render]
  | cons c cs ih =>
    by_cases hc : isBlank c = true
    · rw [wordsFrom, if_pos hc, strokes_cons_blank hc, strokes_cons_blank hc]
      have hrest : (wordsFrom [] cs).flatMap (' ' :: ·) = render (strokes true cs) := ih []
      cases word with
      | nil => exact hrest
      | cons w word => simp [hrest]
    · rw [Bool.not_eq_true] at hc
      have hrest := ih (c :: word)
      rw [List.isEmpty_cons, if_neg Bool.false_ne_true] at hrest
      rw [wordsFrom, if_neg (by simp [hc]), hrest, strokes_cons hc, strokes_cons hc]
      cases word with
      | nil => rfl
      | cons w word => simp [render]

theorem intercalate_cons_eq_append_flatMap (w : List Char) (ws : List (List Char)) :
    [' '].intercalate (w :: ws) = w ++ ws.flatMap (' ' :: ·) := by
  induction ws generalizing w with
  | nil => simp
  | cons v ws ih => rw [List.intercalate_cons_cons, ih, List.flatMap_cons, List.append_assoc]; rfl

/-- White space in front of a text does not count. -/
theorem settleWith_strokes (keep : Char → Char → Bool) (b b' : Bool) (cs : List Char) :
    settleWith keep (strokes b cs) = settleWith keep (strokes b' cs) := by
  cases cs with
  | nil => rfl
  | cons c cs =>
    rw [strokes, strokes]
    split <;> rfl

theorem clear_true (c : Char) (S : List (Bool × Char)) : clear (fun _ _ => true) c S = S := by
  induction S generalizing c with
  | nil => rfl
  | cons s S ih =>
    obtain ⟨b, d⟩ := s
    rw [clear, ih, Bool.and_true]

/-- A text behind white space starts with a stroke behind white space. -/
theorem render_strokes_true (cs : List Char) :
    render (settleWith (fun _ _ => true) (strokes true cs)) =
      (render (strokes true cs)).drop 1 := by
  induction cs with
  | nil => rfl
  | cons c cs ih =>
    by_cases hc : isBlank c = true
    · rw [strokes_cons_blank hc, ih]
    · rw [Bool.not_eq_true] at hc
      rw [strokes_cons hc, settleWith, clear_true]
      rfl

theorem singleSpaced_eq_render (cs : List Char) :
    singleSpaced cs = render (settleWith (fun _ _ => true) (strokes false cs)) := by
  have hwords : (words cs).flatMap (' ' :: ·) = render (strokes true cs) := flatMap_wordsFrom [] cs
  rw [settleWith_strokes _ false true, render_strokes_true, ← hwords, singleSpaced]
  cases words cs with
  | nil => rfl
  | cons w ws =>
    rw [intercalate_cons_eq_append_flatMap]
    rfl

/-- A text without the spaces right behind a character; `behind` tells whether it has just
ended. -/
def dropBehind (x : Char) (behind : Bool) : List Char → List Char
  | [] => []
  | c :: cs =>
    if behind && c == ' ' then dropBehind x false cs else c :: dropBehind x (c == x) cs

theorem dropBehind_render_clear (x : Char) {S : List (Bool × Char)} (h : IsSolid S) (c : Char) :
    dropBehind x (c == x) (render S) = render (clear (fun c _ => c != x) c S) := by
  induction S generalizing c with
  | nil => rfl
  | cons s S ih =>
    obtain ⟨b, d⟩ := s
    rw [isSolid_cons] at h
    have hd := ne_space_of_isBlank_eq_false h.1
    have hrest : ∀ behind, dropBehind x behind (d :: render S) =
        d :: render (clear (fun c _ => c != x) d S) := by
      intro behind
      rw [dropBehind, hd, Bool.and_false, if_neg Bool.false_ne_true, ih h.2]
    rw [clear, render, render]
    cases b with
    | false => exact hrest _
    | true =>
      rw [if_pos rfl, List.cons_append, List.singleton_append, dropBehind, hrest]
      cases hx : c == x with
      | true => simp [hx, bne]
      | false => simp [hx, bne, hrest]

/-- Dropping the spaces behind a character, read off the strokes. -/
theorem dropBehind_render (x : Char) {S : List (Bool × Char)} (h : IsSolid S)
    (keep : Char → Char → Bool) : dropBehind x false (render (settleWith keep S)) =
      render (settleWith (fun c d => keep c d && c != x) S) := by
  cases S with
  | nil => rfl
  | cons s S =>
    obtain ⟨b, c⟩ := s
    rw [isSolid_cons] at h
    have hrest := dropBehind_render_clear x (isSolid_clear h.2 keep c) c
    rw [clear_clear] at hrest
    exact congrArg (c :: ·) hrest

theorem dropAfterOpening_eq_dropBehind (cs : List Char) :
    dropAfterOpening cs = dropBehind '(' false cs := by
  fun_induction dropAfterOpening cs with
  | case1 => rfl
  | case2 c => rfl
  | case3 c d cs h ih =>
    simp only [Bool.and_eq_true, beq_iff_eq] at h
    obtain ⟨rfl, rfl⟩ := h
    rw [ih]
    rfl
  | case4 c d cs h ih =>
    have hrest : dropBehind '(' (c == '(') (d :: cs) = dropBehind '(' false (d :: cs) := by
      rw [dropBehind, if_neg h]
      rfl
    rw [ih, ← hrest]
    rfl

theorem dropBefore_render_clear (p : Char → Bool) {S : List (Bool × Char)} (h : IsSolid S)
    (c : Char) : dropBefore p (render S) = render (clear (fun _ d => !p d) c S) := by
  induction S generalizing c with
  | nil => rfl
  | cons s S ih =>
    obtain ⟨b, d⟩ := s
    rw [isSolid_cons] at h
    have hd := ne_space_of_isBlank_eq_false h.1
    have hrest : dropBefore p (d :: render S) = d :: render (clear (fun _ d => !p d) d S) := by
      rw [dropBefore, hd, Bool.false_and, if_neg Bool.false_ne_true, ih h.2 d]
    rw [clear, render, render]
    cases b with
    | false => exact hrest
    | true =>
      rw [if_pos rfl, List.cons_append, List.singleton_append, dropBefore]
      cases hp : p d with
      | true => simp [hp, hrest]
      | false => simp [hp, hrest]

/-- Dropping the spaces before characters, read off the strokes. -/
theorem dropBefore_render (p : Char → Bool) {S : List (Bool × Char)} (h : IsSolid S)
    (keep : Char → Char → Bool) : dropBefore p (render (settleWith keep S)) =
      render (settleWith (fun c d => keep c d && !p d) S) := by
  cases S with
  | nil => rfl
  | cons s S =>
    obtain ⟨b, c⟩ := s
    rw [isSolid_cons] at h
    have hrest := dropBefore_render_clear p (isSolid_clear h.2 keep c) c
    have hc := ne_space_of_isBlank_eq_false h.1
    rw [clear_clear] at hrest
    rw [settleWith, settleWith, render, render, if_neg Bool.false_ne_true, List.singleton_append,
      List.singleton_append, dropBefore, hc, Bool.false_and, if_neg Bool.false_ne_true, hrest]

/-- The steps before the last one, read off the strokes. -/
theorem tidy_eq_render (cs : List Char) : tidy cs =
    render (settleWith (fun c d => c != '(' && d != ')' && !(d == ',' || d == ';'))
      (strokes false cs)) := by
  have hsolid := isSolid_strokes false cs
  rw [tidy, singleSpaced_eq_render, dropAfterOpening_eq_dropBehind, dropBehind_render _ hsolid,
    dropBefore_render _ hsolid, dropBefore_render _ hsolid]
  simp only [Bool.true_and]
  rfl

/-! ## Well-masked texts -/

/-- Holds for the masked texts of glyphs: every mark in them belongs to a mask. -/
def WellMasked (cs : List Char) : Prop :=
  ∃ number gs, (∀ g ∈ gs, g.IsProper) ∧ cs = maskGlyphs number gs

theorem WellMasked.of_ink_eq {cs ds : List Char} (h : WellMasked ds)
    (hink : ink .free cs = ink .free ds) : WellMasked cs := by
  obtain ⟨number, gs, hgs, rfl⟩ := h
  rw [ink_maskGlyphs hgs] at hink
  obtain ⟨hs, hhs, -, hproper⟩ := exists_maskGlyphs_of_ink_eq
    (fun s hs => hgs s.2 (mem_of_mem_glyphInk hs)) hink
  exact ⟨number, hs, hproper, hhs⟩

/-- Characters other than spaces are copied. -/
theorem dropBehind_append {x : Char} {w : List Char} (hw : ' ' ∉ w) (hne : w ≠ []) (behind : Bool)
    (cs : List Char) :
    dropBehind x behind (w ++ cs) = w ++ dropBehind x (w.getLast hne == x) cs := by
  induction w generalizing behind with
  | nil => exact absurd rfl hne
  | cons c w ih =>
    rw [List.mem_cons, not_or] at hw
    have hc : (c == ' ') = false := beq_eq_false_iff_ne.2 (Ne.symm hw.1)
    rw [List.cons_append, dropBehind, hc, Bool.and_false, if_neg Bool.false_ne_true]
    cases w with
    | nil => rfl
    | cons d w =>
      rw [ih hw.2 (by simp), List.cons_append]
      simp

theorem notMem_maskOf {mark : Char} (hmark : isMark mark = true) (number : Nat) :
    ' ' ∉ maskOf mark number := by
  intro h
  exact absurd (isBlank_of_isMaskChar (isMaskChar_of_mem_maskOf hmark h)) (by decide)

theorem dropBehind_maskGlyphs {gs : List Glyph} (hgs : ∀ g ∈ gs, g.IsProper) (number : Nat)
    (behind : Bool) : dropBehind lineMark behind (maskGlyphs number gs) =
      maskGlyphs number (joinLinesFrom behind gs) := by
  induction gs generalizing number behind with
  | nil => rfl
  | cons g gs ih =>
    obtain ⟨hg, htail⟩ := List.forall_mem_cons.1 hgs
    cases g with
    | char c =>
      have hc : (c == lineMark) = false := by
        rw [beq_eq_false_iff_ne]
        intro hline
        rw [IsProper, hline] at hg
        exact absurd hg (by decide)
      rw [maskGlyphs, dropBehind, joinLinesFrom, hc, ih htail]
      split <;> rfl
    | segment mark text =>
      have hne : maskOf mark number ≠ [] := by simp [maskOf]
      have hlast : (maskOf mark number).getLast hne = mark := List.getLast_concat
      rw [maskGlyphs, dropBehind_append (notMem_maskOf hg number) hne, hlast, ih htail]
      rfl

/-- In well-masked text every space behind a line mark is behind a mask. -/
theorem dropAfterLineMask_eq_dropBehind {cs : List Char} (h : WellMasked cs) :
    dropAfterLineMask cs = dropBehind lineMark false cs := by
  obtain ⟨number, gs, hgs, rfl⟩ := h
  rw [dropAfterLineMask_maskGlyphs hgs, dropBehind_maskGlyphs hgs]
  rfl

theorem wellMasked_tidy {cs : List Char} (h : WellMasked cs) : WellMasked (tidy cs) :=
  h.of_ink_eq (ink_tidy (by decide) cs)

/-- The canonical form is the text of the settled strokes. -/
theorem canonical_eq_render {cs : List Char} (h : WellMasked cs) :
    canonical cs = render (settle (strokes false cs)) := by
  rw [canonical_eq, dropAfterLineMask_eq_dropBehind (wellMasked_tidy h), tidy_eq_render,
    dropBehind_render _ (isSolid_strokes false cs), settle]
  congr 2
  funext c d
  simp only [keeps, bne, Bool.not_or]
  ac_rfl

/-! ## Parts of well-masked texts -/

/-- A character of a masked text that is in no mask is one of its glyphs. -/
theorem exists_append_of_maskGlyphs {c : Char} (hc : isMaskChar c = false) {gs : List Glyph}
    (hgs : ∀ g ∈ gs, g.IsProper) {number : Nat} {cs ds : List Char}
    (h : maskGlyphs number gs = cs ++ c :: ds) :
    ∃ hs is m, gs = hs ++ char c :: is ∧ cs ++ [c] = maskGlyphs number (hs ++ [char c]) ∧
      ds = maskGlyphs m is := by
  induction gs generalizing number cs with
  | nil => simp [maskGlyphs] at h
  | cons g gs ih =>
    obtain ⟨hg, htail⟩ := List.forall_mem_cons.1 hgs
    cases g with
    | char d =>
      rw [maskGlyphs] at h
      cases cs with
      | nil =>
        obtain ⟨rfl, rfl⟩ := List.cons.inj h
        exact ⟨[], gs, number, rfl, rfl, rfl⟩
      | cons e cs =>
        obtain ⟨rfl, hrest⟩ := List.cons.inj h
        obtain ⟨hs, is, m, rfl, hcs, hds⟩ := ih htail hrest
        exact ⟨char d :: hs, is, m, rfl, congrArg (d :: ·) hcs, hds⟩
    | segment mark text =>
      have hnot : c ∉ maskOf mark number := by
        intro hmem
        rw [isMaskChar_of_mem_maskOf hg hmem] at hc
        exact absurd hc (by decide)
      rw [maskGlyphs] at h
      -- the mask ends before the character, which is not in it
      obtain ⟨rest, rfl, hrest⟩ := exists_append_of_append_cons hnot h
      obtain ⟨hs, is, m, rfl, hcs, hds⟩ := ih htail hrest
      refine ⟨segment mark text :: hs, is, m, rfl, ?_, hds⟩
      rw [List.append_assoc, hcs]
      rfl

/-- The parts of a masked text on the two sides of punctuation are masked texts. -/
theorem wellMasked_of_append {c : Char} (hc : isMaskChar c = false) {cs ds : List Char}
    (h : WellMasked (cs ++ c :: ds)) : WellMasked (cs ++ [c]) ∧ WellMasked ds := by
  obtain ⟨number, gs, hgs, heq⟩ := h
  obtain ⟨hs, is, m, rfl, hcs, hds⟩ := exists_append_of_maskGlyphs hc hgs heq.symm
  refine ⟨⟨number, hs ++ [char c], fun g hg => hgs g ?_, hcs⟩, m, is, fun g hg => hgs g ?_, hds⟩
  · rw [← List.singleton_append, ← List.append_assoc]
    exact List.mem_append_left _ hg
  · exact List.mem_append_right _ (List.mem_cons_of_mem _ hg)

theorem wellMasked_canonical {cs : List Char} (h : WellMasked cs) : WellMasked (canonical cs) := by
  obtain ⟨number, gs, hgs, htidy⟩ := wellMasked_tidy h
  rw [canonical_eq, htidy, dropAfterLineMask_maskGlyphs hgs]
  exact ⟨number, _, isProper_joinLines hgs, rfl⟩

end PgSchema.Layout
