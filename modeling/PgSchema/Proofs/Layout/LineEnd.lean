/-
# Line comments that keep their ends

White space behind a line comment is no part of it only if the comment has a line feed of its own.
`LinesStand` says this of masked text.

* `linesStand_iff` : line comments keep their ends in a masked text exactly when the comments in its
  glyphs take no white space.
-/
import PgSchema.Proofs.Layout.Absorb
import PgSchema.Proofs.Layout.Settled

namespace PgSchema.Layout

open Text Glyph

/-- Holds when each line comment of a masked text that has white space right behind it ends with a
line feed; `kept` are the segments of the text. -/
def LinesStand (kept : List (List Char)) (masked : List Char) : Prop :=
  ∀ front number c rest, masked = front ++ maskOf lineMark number ++ c :: rest →
    isBlank c = true → ∃ body, kept[number]? = some (body ++ ['\n'])

/-! ## Glyphs -/

/-- Holds for glyphs in which no white space stands right behind an open line comment. -/
def LinesTight : List Glyph → Prop
  | [] => True
  | .char _ :: gs => LinesTight gs
  | .segment mark text :: gs => (isOpen mark text = true → feed gs = []) ∧ LinesTight gs

theorem linesTight_of_append {gs hs : List Glyph} (h : LinesTight (gs ++ hs)) : LinesTight hs := by
  induction gs with
  | nil => exact h
  | cons g gs ih =>
    cases g with
    | char c => exact ih h
    | segment mark text => exact ih h.2

/-- Line comments take no white space exactly when none stands behind an open one. -/
theorem absorb_eq_iff {gs : List Glyph} : absorb gs = gs ↔ LinesTight gs := by
  induction gs with
  | nil => simp [absorb, absorbFrom, LinesTight]
  | cons g gs ih =>
    cases g with
    | char c => rw [absorb_char, List.cons_inj_right, ih, LinesTight]
    | segment mark text =>
      rw [LinesTight, ← ih]
      cases hopen : isOpen mark text with
      | false => simp [absorb_segment hopen]
      | true =>
        rw [absorb_open hopen]
        constructor
        · intro h
          obtain ⟨hhead, htail⟩ := List.cons.inj h
          have hnil : feed gs = [] := List.append_right_eq_self.1 (Glyph.segment.inj hhead).2
          rw [hnil, List.length_nil, List.drop_zero] at htail
          exact ⟨fun _ => hnil, htail⟩
        · rintro ⟨hnil, htail⟩
          rw [hnil rfl, List.append_nil, List.length_nil, List.drop_zero, htail]

/-- An open line comment takes the white space behind it. -/
theorem feed_ne_nil {c : Char} (h : isBlank c = true) (gs : List Glyph) :
    feed (char c :: gs) ≠ [] := by
  rw [feed]
  split
  · exact List.cons_ne_nil _ _
  · exact List.cons_ne_nil _ _

/-! ## Masked texts -/

theorem maskGlyphs_append (number : Nat) (gs hs : List Glyph) : maskGlyphs number (gs ++ hs) =
    maskGlyphs number gs ++ maskGlyphs (number + (segmentsOf gs).length) hs := by
  induction gs generalizing number with
  | nil => rfl
  | cons g gs ih =>
    cases g with
    | char c => exact congrArg (c :: ·) (ih number)
    | segment mark text =>
      have hsegments : segmentsOf (segment mark text :: gs) = text :: segmentsOf gs := rfl
      have hnumber : number + 1 + (segmentsOf gs).length =
          number + (segmentsOf (segment mark text :: gs)).length := by
        rw [hsegments, List.length_cons]
        omega
      rw [List.cons_append, maskGlyphs, maskGlyphs, ih, hnumber, List.append_assoc]

theorem toString_toList_inj {m n : Nat} (h : (toString m).toList = (toString n).toList) :
    m = n := by
  rw [Nat.toString_eq_repr, Nat.toString_eq_repr, Nat.toList_repr, Nat.toList_repr] at h
  rw [← Nat.ofDigitChars_ten_toDigits (n := m), h, Nat.ofDigitChars_ten_toDigits]

/-- Texts that end with masks end with the same mask if they are equal. -/
theorem maskOf_inj {mark mark' : Char} (h' : isMark mark' = true)
    {m n : Nat} {cs ds : List Char} (heq : cs ++ maskOf mark m = ds ++ maskOf mark' n) :
    mark = mark' ∧ m = n := by
  have hsplit : ∀ (cs : List Char) (mark : Char) (n : Nat),
      cs ++ maskOf mark n = (cs ++ mark :: (toString n).toList) ++ [mark] := by
    intro cs mark n
    rw [List.append_assoc]
    rfl
  rw [hsplit, hsplit] at heq
  obtain ⟨hfront, hlast⟩ := List.append_inj' heq rfl
  obtain rfl : mark = mark' := (List.cons.inj hlast).1
  -- between the marks stand digits only
  have hreverse := congrArg List.reverse hfront
  rw [List.reverse_append, List.reverse_append, List.reverse_cons, List.reverse_cons,
    List.append_assoc, List.append_assoc] at hreverse
  have hnot : ∀ k : Nat, mark ∉ (toString k).toList.reverse := by
    intro k hmem
    exact notMem_digits h' k (List.mem_reverse.1 hmem)
  have hdigits := (append_cons_inj hreverse (hnot m) (hnot n)).1
  exact ⟨rfl, toString_toList_inj (List.reverse_inj.1 hdigits)⟩

/-- Glyphs whose masked text ends with a mask end with its segment. -/
theorem exists_segment_of_maskGlyphs {gs : List Glyph} (hgs : ∀ g ∈ gs, g.IsProper) {start : Nat}
    {mark : Char} (hmark : isMark mark = true) {number : Nat} {cs : List Char}
    (h : maskGlyphs start gs = cs ++ maskOf mark number) :
    ∃ hs text, gs = hs ++ [segment mark text] ∧ number = start + (segmentsOf hs).length := by
  have hne : gs ≠ [] := by
    rintro rfl
    simp [maskGlyphs, maskOf] at h
  obtain ⟨hs, g, rfl⟩ : ∃ hs g, gs = hs ++ [g] :=
    ⟨gs.dropLast, gs.getLast hne, (List.dropLast_concat_getLast hne).symm⟩
  rw [maskGlyphs_append] at h
  cases g with
  | char c =>
    have hc : isMark c = false := hgs (char c) (by simp)
    rw [maskOf, ← List.append_assoc] at h
    obtain ⟨-, hlast⟩ := List.append_inj' h rfl
    obtain rfl : c = mark := (List.cons.inj hlast).1
    rw [hc] at hmark
    exact absurd hmark (by decide)
  | segment mark' text =>
    rw [maskGlyphs, maskGlyphs, List.append_nil] at h
    obtain ⟨rfl, hnumber⟩ := maskOf_inj hmark h
    exact ⟨hs, text, rfl, hnumber.symm⟩

theorem getElem?_segmentsOf (gs hs : List Glyph) (mark : Char) (text : List Char) :
    (segmentsOf (gs ++ segment mark text :: hs))[(segmentsOf gs).length]? = some text := by
  have hsegments : segmentsOf (segment mark text :: hs) = text :: segmentsOf hs := rfl
  rw [segmentsOf_append, hsegments, List.getElem?_append_right (Nat.le_refl _), Nat.sub_self]
  rfl

/-- Where line comments keep their ends, no white space stands behind an open one. -/
theorem linesTight_of_linesStand {gs : List Glyph}
    (h : LinesStand (segmentsOf gs) (maskGlyphs 0 gs)) : LinesTight gs := by
  -- by induction on the glyphs that are left, with those before them in `front`
  have hall : ∀ hs front, gs = front ++ hs → LinesTight hs := by
    intro hs
    induction hs with
    | nil => intros; trivial
    | cons g hs ih =>
      rintro front rfl
      have htail := ih (front ++ [g]) (by simp)
      cases g with
      | char c => exact htail
      | segment mark text =>
        refine ⟨fun hopen => ?_, htail⟩
        rw [isOpen, Bool.and_eq_true, beq_iff_eq, bne_iff_ne] at hopen
        obtain ⟨rfl, hlast⟩ := hopen
        cases hs with
        | nil => rfl
        | cons g' hs =>
          cases g' with
          | segment mark' text' => rfl
          | char c =>
            by_cases hc : isBlank c = true
            · -- an open comment with white space behind it: `h` finds the line feed that it lacks
              exfalso
              rw [maskGlyphs_append, Nat.zero_add, maskGlyphs, maskGlyphs,
                ← List.append_assoc] at h
              obtain ⟨body, hbody⟩ := h _ _ c _ rfl hc
              rw [getElem?_segmentsOf, Option.some.injEq] at hbody
              rw [hbody, List.getLast?_concat] at hlast
              exact hlast rfl
            · have hfeed : ¬ (c == '\n') = true := by
                rw [beq_iff_eq]
                rintro rfl
                exact hc (by decide)
              rw [feed, if_neg hfeed, if_neg hc]
  exact hall gs [] rfl

theorem linesStand_of_linesTight {gs : List Glyph} (hgs : ∀ g ∈ gs, g.IsProper)
    (h : LinesTight gs) : LinesStand (segmentsOf gs) (maskGlyphs 0 gs) := by
  intro front number c rest heq hc
  -- the mask in the text is that of a segment, the last one before the white space
  obtain ⟨hs, is, m, rfl, hfront, -⟩ :=
    exists_append_of_maskGlyphs (isMaskChar_of_isBlank hc) hgs heq
  rw [maskGlyphs_append] at hfront
  obtain ⟨hmasked, -⟩ := List.append_inj' hfront rfl
  have hhs : ∀ g ∈ hs, g.IsProper := fun g hg => hgs g (List.mem_append_left _ hg)
  obtain ⟨hs, text, rfl, hnumber⟩ :=
    exists_segment_of_maskGlyphs hhs (by decide) hmasked.symm
  rw [List.append_assoc, List.singleton_append] at h ⊢
  rw [hnumber, Nat.zero_add, getElem?_segmentsOf]
  have hclosed : ¬ isOpen lineMark text = true :=
    fun hopen => feed_ne_nil hc is ((linesTight_of_append h).1 hopen)
  have hlast : text.getLast? = some '\n' := by simpa [isOpen] using hclosed
  obtain ⟨body, rfl⟩ := List.getLast?_eq_some_iff.1 hlast
  exact ⟨body, rfl⟩

/-- Line comments keep their ends in a masked text exactly when no white space stands behind an
open one in its glyphs. -/
theorem linesStand_iff {gs : List Glyph} (hgs : ∀ g ∈ gs, g.IsProper) :
    LinesStand (segmentsOf gs) (maskGlyphs 0 gs) ↔ LinesTight gs :=
  ⟨linesTight_of_linesStand, linesStand_of_linesTight hgs⟩

end PgSchema.Layout
