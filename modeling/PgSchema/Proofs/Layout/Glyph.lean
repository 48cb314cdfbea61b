/-
# Masked text as glyphs

A masked text is read as a list of glyphs: characters of loose text, and segments that stand
behind their masks.  The glyphs other than blanks, each with whether white space parts it from
the one before, are the glyph ink of the text.

* `ink_maskGlyphs` : the ink of a masked text is the glyph ink with the masks spelled out;
* `exists_maskGlyphs_of_ink_eq` : a text with the ink of glyphs is a masked text of glyphs with
  that glyph ink;
* `unmask_maskGlyphs` : unmasking puts every segment in the place of its mask.
-/
import PgSchema.Proofs.Layout.Lookup
import PgSchema.Proofs.Number.Numeral

namespace PgSchema.Layout

open Text

/-- A character of loose text, or a segment with the mark of its kind. -/
inductive Glyph
  | char (c : Char)
  | segment (mark : Char) (text : List Char)
deriving DecidableEq, Repr

namespace Glyph

/-- The text of a glyph. -/
def text : Glyph → List Char
  | char c => [c]
  | segment _ text => text

/-- The text that a glyph keeps as it is, if it is a segment. -/
def kept? : Glyph → Option (List Char)
  | char _ => none
  | segment _ text => some text

/-- Holds when the marks of segments are marks and no other character is. -/
def IsProper : Glyph → Prop
  | char c => isMark c = false
  | segment mark _ => isMark mark = true

/-- The glyphs of a piece. -/
def ofPiece : Piece → List Glyph
  | .loose text => text.map char
  | .quoted text => [segment quotedMark text]
  | .lineComment text => [segment lineMark text]
  | .blockComment text => [segment blockMark text]

/-- The glyphs of pieces. -/
def ofPieces (ps : List Piece) : List Glyph := ps.flatMap ofPiece

/-- The text of glyphs. -/
def textOf (gs : List Glyph) : List Char := gs.flatMap text

/-- The segments among glyphs. -/
def segmentsOf (gs : List Glyph) : List (List Char) := gs.filterMap kept?

end Glyph

open Glyph

/-- The masked text of glyphs whose first segment has the given number. -/
def maskGlyphs (number : Nat) : List Glyph → List Char
  | [] => []
  | .char c :: gs => c :: maskGlyphs number gs
  | .segment mark _ :: gs => maskOf mark number ++ maskGlyphs (number + 1) gs

/-! ## Pieces as glyphs -/

theorem maskGlyphs_chars_append (number : Nat) (cs : List Char) (gs : List Glyph) :
    maskGlyphs number (cs.map char ++ gs) = cs ++ maskGlyphs number gs := by
  induction cs with
  | nil => rfl
  | cons c cs ih => rw [List.map_cons, List.cons_append, maskGlyphs, ih, List.cons_append]

theorem maskGlyphs_chars (number : Nat) (cs : List Char) :
    maskGlyphs number (cs.map char) = cs := by
  have happend := maskGlyphs_chars_append number cs []
  rw [List.append_nil] at happend
  rw [happend]
  exact List.append_nil cs

/-- The masked text of pieces is that of their glyphs. -/
theorem maskFrom_eq_maskGlyphs (number : Nat) (ps : List Piece) :
    maskFrom number ps = maskGlyphs number (Glyph.ofPieces ps) := by
  induction ps generalizing number with
  | nil => rfl
  | cons p ps ih =>
    have hcons : Glyph.ofPieces (p :: ps) = ofPiece p ++ Glyph.ofPieces ps := rfl
    rw [hcons]
    cases p with
    | loose text => rw [maskFrom, ofPiece, maskGlyphs_chars_append, ih]
    | quoted text => rw [maskFrom, ih]; rfl
    | lineComment text => rw [maskFrom, ih]; rfl
    | blockComment text => rw [maskFrom, ih]; rfl

@[simp] theorem textOf_chars (cs : List Char) : textOf (cs.map char) = cs := by
  induction cs with
  | nil => rfl
  | cons c cs ih => exact congrArg (c :: ·) ih

@[simp] theorem segmentsOf_chars (cs : List Char) : segmentsOf (cs.map char) = [] := by
  induction cs with
  | nil => rfl
  | cons c cs ih => exact ih

theorem textOf_append (gs hs : List Glyph) : textOf (gs ++ hs) = textOf gs ++ textOf hs :=
  List.flatMap_append

theorem segmentsOf_append (gs hs : List Glyph) :
    segmentsOf (gs ++ hs) = segmentsOf gs ++ segmentsOf hs :=
  List.filterMap_append

/-- The text of pieces is that of their glyphs. -/
theorem textOf_ofPieces (ps : List Piece) : textOf (Glyph.ofPieces ps) = ps.flatMap Piece.text := by
  induction ps with
  | nil => rfl
  | cons p ps ih =>
    have hcons : Glyph.ofPieces (p :: ps) = ofPiece p ++ Glyph.ofPieces ps := rfl
    rw [hcons, textOf_append, ih, List.flatMap_cons]
    cases p <;> simp [ofPiece, Piece.text, textOf, Glyph.text, List.flatMap_map]

/-- The segments of pieces are those of their glyphs. -/
theorem segments_eq_segmentsOf (ps : List Piece) :
    segments ps = segmentsOf (Glyph.ofPieces ps) := by
  induction ps with
  | nil => rfl
  | cons p ps ih =>
    have hcons : Glyph.ofPieces (p :: ps) = ofPiece p ++ Glyph.ofPieces ps := rfl
    rw [hcons, segmentsOf_append, ← ih, segments, segments]
    cases p with
    | loose text => rw [ofPiece, segmentsOf_chars]; rfl
    | quoted text => rfl
    | lineComment text => rfl
    | blockComment text => rfl

/-! ## Glyph ink -/

/-- The ink of glyphs that start at a joint: a segment counts as one character. -/
def glyphInk (j : Joint) : List Glyph → List (Bool × Glyph)
  | [] => []
  | .char c :: gs =>
    if isBlank c then glyphInk j.blank gs
    else (j == .parted && !isPunctuation c, .char c) :: glyphInk (.behind c) gs
  | .segment mark text :: gs => (j == .parted, .segment mark text) :: glyphInk .joined gs

/-- The strokes of glyph ink are glyphs. -/
theorem mem_of_mem_glyphInk {j : Joint} {gs : List Glyph} {s : Bool × Glyph}
    (h : s ∈ glyphInk j gs) : s.2 ∈ gs := by
  induction gs generalizing j with
  | nil => simp [glyphInk] at h
  | cons g gs ih =>
    cases g with
    | char c =>
      rw [glyphInk] at h
      split at h
      · exact List.mem_cons_of_mem _ (ih h)
      · obtain rfl | h := List.mem_cons.1 h
        · exact List.mem_cons_self
        · exact List.mem_cons_of_mem _ (ih h)
    | segment mark text =>
      obtain rfl | h := List.mem_cons.1 h
      · exact List.mem_cons_self
      · exact List.mem_cons_of_mem _ (ih h)

/-- The digits of a number and a mark behind them, none of them parted. -/
def maskRest (mark : Char) (number : Nat) : List (Bool × Char) :=
  ((toString number).toList ++ [mark]).map fun c => (false, c)

/-- Glyph ink with the masks of segments spelled out, the first of which has the given number. -/
def spellMasks (number : Nat) : List (Bool × Glyph) → List (Bool × Char)
  | [] => []
  | (b, .char c) :: strokes => (b, c) :: spellMasks number strokes
  | (b, .segment mark _) :: strokes =>
    (b, mark) :: (maskRest mark number ++ spellMasks (number + 1) strokes)

theorem isDecimalDigit_of_mem_toString {n : Nat} {c : Char} (h : c ∈ (toString n).toList) :
    isDecimalDigit c = true := by
  rw [Nat.toString_eq_repr, Nat.toList_repr] at h
  rw [isDecimalDigit, Number.digitValue?_of_isDigit
    (Nat.isDigit_of_mem_toDigits (by decide) (by decide) h)]
  rfl

theorem toString_toList_ne_nil (n : Nat) : (toString n).toList ≠ [] := by
  rw [Nat.toString_eq_repr, Nat.toList_repr]
  exact Nat.toDigits_ne_nil

theorem isBlank_of_isMaskChar {c : Char} (h : isMaskChar c = true) : isBlank c = false := by
  rw [← Bool.not_eq_true]
  intro hc
  simp [isMaskChar_of_isBlank hc] at h

theorem isPunctuation_of_isMaskChar {c : Char} (h : isMaskChar c = true) :
    isPunctuation c = false := by
  rw [← Bool.not_eq_true]
  intro hc
  simp [isMaskChar_of_isPunctuation hc] at h

/-- The characters of a mask. -/
theorem isMaskChar_of_mem_maskOf {m c : Char} {n : Nat} (hm : isMark m = true)
    (hc : c ∈ maskOf m n) : isMaskChar c = true := by
  simp only [maskOf, List.cons_append, List.mem_cons, List.mem_append, List.not_mem_nil,
    or_false] at hc
  rcases hc with rfl | hc | rfl
  · simp [isMaskChar, hm]
  · simp [isMaskChar, isDecimalDigit_of_mem_toString hc]
  · simp [isMaskChar, hm]

/-- Characters of masks that follow each other are joined. -/
theorem ink_maskChars_append {w : List Char} (hw : ∀ c ∈ w, isMaskChar c = true)
    (cs : List Char) :
    ink .joined (w ++ cs) = (w.map fun c => (false, c)) ++ ink .joined cs := by
  induction w with
  | nil => rfl
  | cons c w ih =>
    have hc := hw c (by simp)
    have hp := isPunctuation_of_isMaskChar hc
    rw [List.cons_append, ink_cons (isBlank_of_isMaskChar hc), Joint.behind, hp,
      if_neg Bool.false_ne_true, ih fun d hd => hw d (by simp [hd])]
    rfl

/-- The ink of a masked text is the glyph ink with the masks spelled out. -/
theorem ink_maskGlyphs {gs : List Glyph} (hgs : ∀ g ∈ gs, g.IsProper) (number : Nat)
    (j : Joint) : ink j (maskGlyphs number gs) = spellMasks number (glyphInk j gs) := by
  induction gs generalizing number j with
  | nil => rfl
  | cons g gs ih =>
    have ih := ih fun h hh => hgs h (by simp [hh])
    cases g with
    | char c =>
      rw [maskGlyphs, glyphInk]
      by_cases hc : isBlank c = true
      · rw [if_pos hc, ink_cons_blank hc, ih]
      · rw [if_neg hc, spellMasks, ink_cons (by simpa using hc), ih]
    | segment mark text =>
      have hmark : isMark mark = true := hgs _ List.mem_cons_self
      have hchar : isMaskChar mark = true := by simp [isMaskChar, hmark]
      have hp := isPunctuation_of_isMaskChar hchar
      rw [maskGlyphs, glyphInk, spellMasks, ← ih, maskOf, List.cons_append, List.cons_append,
        ink_cons (isBlank_of_isMaskChar hchar), hp, Joint.behind, hp, if_neg Bool.false_ne_true,
        ink_maskChars_append, maskRest, Bool.not_false, Bool.and_true]
      intro c hc
      exact isMaskChar_of_mem_maskOf hmark (List.mem_cons_of_mem _ hc)

/-! ## Texts with the ink of glyphs -/

/-- Ink that is not empty starts behind white space only. -/
theorem of_ink_eq_cons {j : Joint} {cs : List Char} {b : Bool} {c : Char}
    {strokes : List (Bool × Char)} (h : ink j cs = (b, c) :: strokes) :
    ∃ bs ds, bs.all isBlank = true ∧ isBlank c = false ∧ cs = bs ++ c :: ds ∧
      (j.after bs == .parted && !isPunctuation c) = b ∧ ink (.behind c) ds = strokes := by
  induction cs generalizing j with
  | nil => simp at h
  | cons d cs ih =>
    by_cases hd : isBlank d = true
    · rw [ink_cons_blank hd] at h
      obtain ⟨bs, ds, hbs, hc, rfl, hb, hink⟩ := ih h
      refine ⟨d :: bs, ds, by simp [hd, hbs], hc, rfl, ?_, hink⟩
      rw [Joint.after_cons_blank hd, hb]
    · rw [Bool.not_eq_true] at hd
      rw [ink_cons hd] at h
      simp only [List.cons.injEq, Prod.mk.injEq] at h
      obtain ⟨⟨hb, rfl⟩, hink⟩ := h
      exact ⟨[], cs, rfl, hd, rfl, hb, hink⟩

/-- Characters of masks that are joined in the ink stand together in the text. -/
theorem of_ink_eq_maskChars_append {w : List Char} (hw : ∀ c ∈ w, isMaskChar c = true)
    {cs : List Char} {strokes : List (Bool × Char)}
    (h : ink .joined cs = (w.map fun c => (false, c)) ++ strokes) :
    ∃ ds, cs = w ++ ds ∧ ink .joined ds = strokes := by
  induction w generalizing cs with
  | nil => exact ⟨cs, rfl, h⟩
  | cons c w ih =>
    obtain ⟨bs, ds, hbs, hc, rfl, hb, hink⟩ := of_ink_eq_cons h
    have hp := isPunctuation_of_isMaskChar (hw c (by simp))
    -- white space in front would mark the character as parted
    have hnil : bs = [] := by
      rw [Joint.after_of_all_blank hbs] at hb
      cases bs with
      | nil => rfl
      | cons d bs => simp [hp, Joint.blank] at hb
    subst hnil
    rw [Joint.behind, hp, if_neg Bool.false_ne_true] at hink
    obtain ⟨es, rfl, hes⟩ := ih (fun d hd => hw d (by simp [hd])) hink
    exact ⟨es, rfl, hes⟩

theorem glyphInk_blanks_append {bs : List Char} (hbs : bs.all isBlank = true) (j : Joint)
    (gs : List Glyph) : glyphInk j (bs.map char ++ gs) = glyphInk (j.after bs) gs := by
  induction bs generalizing j with
  | nil => rfl
  | cons b bs ih =>
    rw [List.all_cons, Bool.and_eq_true] at hbs
    rw [List.map_cons, List.cons_append, glyphInk, if_pos hbs.1, ih hbs.2,
      Joint.after_cons_blank hbs.1]

theorem isProper_of_isBlank {c : Char} (h : isBlank c = true) : (char c).IsProper := by
  have hmask := isMaskChar_of_isBlank h
  rw [isMaskChar, Bool.or_eq_false_iff] at hmask
  exact hmask.1

theorem isProper_of_mem_blanks_append {bs : List Char} (hbs : bs.all isBlank = true)
    {gs : List Glyph} (hgs : ∀ g ∈ gs, g.IsProper) : ∀ g ∈ bs.map char ++ gs, g.IsProper := by
  intro g hg
  rcases List.mem_append.1 hg with hg | hg
  · obtain ⟨c, hc, rfl⟩ := List.mem_map.1 hg
    exact isProper_of_isBlank (List.all_eq_true.1 hbs c hc)
  · exact hgs g hg

/-- A text with the ink of glyphs is a masked text of glyphs with that glyph ink. -/
theorem exists_maskGlyphs_of_ink_eq {strokes : List (Bool × Glyph)}
    (hstrokes : ∀ s ∈ strokes, s.2.IsProper) {number : Nat} {j : Joint} {cs : List Char}
    (h : ink j cs = spellMasks number strokes) :
    ∃ gs, cs = maskGlyphs number gs ∧ glyphInk j gs = strokes ∧ ∀ g ∈ gs, g.IsProper := by
  induction strokes generalizing number j cs with
  | nil =>
    have hblank := all_blank_of_ink_eq_nil h
    refine ⟨cs.map char ++ [], ?_, ?_, isProper_of_mem_blanks_append hblank (by simp)⟩
    · rw [maskGlyphs_chars_append, maskGlyphs, List.append_nil]
    · rw [glyphInk_blanks_append hblank, glyphInk]
  | cons s strokes ih =>
    obtain ⟨b, g⟩ := s
    have hg : g.IsProper := hstrokes (b, g) List.mem_cons_self
    have ih := @ih fun s hs => hstrokes s (List.mem_cons_of_mem _ hs)
    cases g with
    | char c =>
      obtain ⟨bs, ds, hbs, hc, rfl, hb, hink⟩ := of_ink_eq_cons h
      obtain ⟨gs, rfl, hgs, hproper⟩ := ih hink
      refine ⟨bs.map char ++ char c :: gs, ?_, ?_, isProper_of_mem_blanks_append hbs
        (List.forall_mem_cons.2 ⟨hg, hproper⟩)⟩
      · rw [maskGlyphs_chars_append, maskGlyphs]
      · rw [glyphInk_blanks_append hbs, glyphInk, if_neg (by simp [hc]), hb, hgs]
    | segment mark text =>
      obtain ⟨bs, ds, hbs, hc, rfl, hb, hink⟩ := of_ink_eq_cons h
      have hp : isPunctuation mark = false := isPunctuation_of_isMark hg
      rw [Joint.behind, hp, if_neg Bool.false_ne_true] at hink
      -- the mask is found as it stands, for no white space is in its ink
      obtain ⟨es, rfl, hes⟩ := of_ink_eq_maskChars_append
        (fun c hc => isMaskChar_of_mem_maskOf hg (List.mem_cons_of_mem mark hc)) hink
      obtain ⟨gs, rfl, hgs, hproper⟩ := ih hes
      refine ⟨bs.map char ++ segment mark text :: gs, ?_, ?_, isProper_of_mem_blanks_append hbs
        (List.forall_mem_cons.2 ⟨hg, hproper⟩)⟩
      · rw [maskGlyphs_chars_append, maskGlyphs, maskOf]
        simp
      · rw [glyphInk_blanks_append hbs, glyphInk, hgs, ← hb, hp, Bool.not_false, Bool.and_true]

/-! ## Unmasking glyphs -/

theorem maskDigits?_of_not_isMark {c : Char} (h : isMark c = false) (cs : List Char) :
    maskDigits? (c :: cs) = none := by
  simp [maskDigits?, h]

/-- The number of a mask names its segment, if the number can be read. -/
theorem segmentOf_toString {segments : List (List Char)} {n : Nat} {segment : List Char}
    (hn : n < 10 ^ Number.maxDigits) (h : segments[n]? = some segment) :
    segmentOf segments (toString n).toList = .ok segment := by
  rw [segmentOf, Nat.toString_eq_repr, Nat.toList_repr, Number.readInteger_toDigits, if_pos hn]
  simp [h]

/-- A number with too many digits cannot be read. -/
theorem segmentOf_toString_of_le {segments : List (List Char)} {n : Nat}
    (hn : 10 ^ Number.maxDigits ≤ n) (segment : List Char) :
    segmentOf segments (toString n).toList ≠ .ok segment := by
  rw [segmentOf, Nat.toString_eq_repr, Nat.toList_repr, Number.readInteger_toDigits,
    if_neg (Nat.not_lt.2 hn)]
  simp

theorem maskOf_append (mark : Char) (n : Nat) (cs : List Char) :
    maskOf mark n ++ cs = mark :: ((toString n).toList ++ mark :: cs) := by
  simp [maskOf]

theorem digits_toString (n : Nat) : (toString n).toList.all isDecimalDigit = true :=
  List.all_eq_true.2 fun _ hc => isDecimalDigit_of_mem_toString hc

/-- The numbers looked up in a masked text are those of its segments, in order. -/
theorem lookups_maskGlyphs {gs : List Glyph} (hgs : ∀ g ∈ gs, g.IsProper) (number : Nat) :
    lookups (maskGlyphs number gs) =
      (List.range' number (segmentsOf gs).length).map fun n => (toString n).toList := by
  induction gs generalizing number with
  | nil => rfl
  | cons g gs ih =>
    obtain ⟨hg, htail⟩ := List.forall_mem_cons.1 hgs
    cases g with
    | char c =>
      rw [maskGlyphs, lookups_of_maskDigits?_eq_none (maskDigits?_of_not_isMark hg _), ih htail]
      rfl
    | segment mark text =>
      rw [maskGlyphs, maskOf_append, lookups_mask_append hg hg (toString_toList_ne_nil number)
        (digits_toString number), ih htail]
      rfl

/-- Unmasking puts every segment in the place of its mask. -/
theorem unmask_maskGlyphs {gs : List Glyph} (hgs : ∀ g ∈ gs, g.IsProper)
    {front : List (List Char)}
    (hnumber : (front ++ segmentsOf gs).length ≤ 10 ^ Number.maxDigits) :
    unmask (front ++ segmentsOf gs) (maskGlyphs front.length gs) = .ok (textOf gs) := by
  -- `front` are the segments before these glyphs, so its length is the number of the next mask
  induction gs generalizing front with
  | nil => rfl
  | cons g gs ih =>
    obtain ⟨hg, htail⟩ := List.forall_mem_cons.1 hgs
    cases g with
    | char c =>
      rw [maskGlyphs, unmask_cons_of_eq_none _ (maskDigits?_of_not_isMark hg _)]
      have hrest : unmask (front ++ segmentsOf (char c :: gs)) (maskGlyphs front.length gs) =
          .ok (textOf gs) := ih htail hnumber
      rw [hrest]
      rfl
    | segment mark text =>
      have hsplit : front ++ segmentsOf (segment mark text :: gs) =
          (front ++ [text]) ++ segmentsOf gs := by
        simp [segmentsOf, kept?]
      rw [hsplit] at hnumber ⊢
      have hrest := ih htail hnumber
      rw [List.length_append, List.length_singleton] at hrest
      have hget : ((front ++ [text]) ++ segmentsOf gs)[front.length]? = some text := by simp
      simp only [List.length_append, List.length_singleton] at hnumber
      rw [maskGlyphs, maskOf_append, unmask_mask_append _ hg hg
        (toString_toList_ne_nil front.length) (digits_toString front.length), hrest,
        segmentOf_toString (by omega) hget]
      rfl

end PgSchema.Layout
