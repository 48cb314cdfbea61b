/-
# Glyphs other than white space

The layout moves white space only, so the glyphs other than white space are the same before and
behind it, and glyphs are found again by their ink.

* `exists_chars_append` : the characters of a token are found at the start of glyphs;
* `exists_segment_of_ink_eq` : so is a segment.
-/
import PgSchema.Proofs.Layout.Spread
import PgSchema.Proofs.Sql.Token

namespace PgSchema.Layout

open Sql Text Glyph Lexeme

/-! ## Solid glyphs -/

/-- The glyphs other than white space. -/
def solids (gs : List Glyph) : List Glyph :=
  gs.filter fun
    | .char c => !isBlank c
    | .segment _ _ => true

/-- Holds for glyphs that do not end with white space. -/
def EndsSolid (gs : List Glyph) : Prop := ∀ c, gs.getLast? = some (char c) → isBlank c = false

theorem solids_append (gs hs : List Glyph) : solids (gs ++ hs) = solids gs ++ solids hs :=
  List.filter_append ..

theorem solids_char_blank {c : Char} (h : isBlank c = true) (gs : List Glyph) :
    solids (char c :: gs) = solids gs :=
  List.filter_cons_of_neg (by simp [h])

theorem solids_char {c : Char} (h : isBlank c = false) (gs : List Glyph) :
    solids (char c :: gs) = char c :: solids gs :=
  List.filter_cons_of_pos (by simp [h])

theorem solids_segment (mark : Char) (text : List Char) (gs : List Glyph) :
    solids (segment mark text :: gs) = segment mark text :: solids gs :=
  List.filter_cons_of_pos rfl

/-- The glyphs other than white space are those of the glyph ink. -/
theorem map_snd_glyphInk (j : Joint) (gs : List Glyph) :
    (glyphInk j gs).map Prod.snd = solids gs := by
  induction gs generalizing j with
  | nil => rfl
  | cons g gs ih =>
    cases g with
    | char c =>
      rw [glyphInk]
      by_cases hc : isBlank c = true
      · rw [if_pos hc, ih, solids_char_blank hc]
      · rw [if_neg hc, List.map_cons, ih, solids_char (by simpa using hc)]
    | segment mark text => rw [glyphInk, List.map_cons, ih, solids_segment]

/-- Joining to line comments takes away white space only. -/
theorem solids_joinLinesFrom (behind : Bool) (gs : List Glyph) :
    solids (joinLinesFrom behind gs) = solids gs := by
  induction gs generalizing behind with
  | nil => rfl
  | cons g gs ih =>
    cases g with
    | char c =>
      rw [joinLinesFrom]
      split
      · next h =>
        rw [Bool.and_eq_true, beq_iff_eq] at h
        rw [ih, h.2, solids_char_blank (by decide)]
      · by_cases hc : isBlank c = true
        · rw [solids_char_blank hc, solids_char_blank hc, ih]
        · rw [solids_char (by simpa using hc), solids_char (by simpa using hc), ih]
    | segment mark text => rw [joinLinesFrom, solids_segment, solids_segment, ih]

theorem exists_of_solids_eq_cons {gs rest : List Glyph} {g : Glyph} (h : solids gs = g :: rest) :
    ∃ (bs : List Char) (hs : List Glyph), bs.all isBlank = true ∧ gs = bs.map char ++ g :: hs ∧
      solids hs = rest := by
  induction gs with
  | nil => simp [solids] at h
  | cons f gs ih =>
    have hsolid : solids (f :: gs) = f :: solids gs →
        ∃ (bs : List Char) (hs : List Glyph), bs.all isBlank = true ∧
          f :: gs = bs.map char ++ g :: hs ∧ solids hs = rest := by
      intro heq
      obtain ⟨rfl, hrest⟩ := List.cons.inj (heq.symm.trans h)
      exact ⟨[], gs, rfl, rfl, hrest⟩
    cases f with
    | char c =>
      by_cases hc : isBlank c = true
      · rw [solids_char_blank hc] at h
        obtain ⟨bs, hs, hbs, rfl, hrest⟩ := ih h
        exact ⟨c :: bs, hs, by rw [List.all_cons, hc, hbs, Bool.and_self], rfl, hrest⟩
      · exact hsolid (solids_char (by simpa using hc) gs)
    | segment mark text => exact hsolid (solids_segment mark text gs)

theorem exists_of_solids_eq_nil {gs : List Glyph} (h : solids gs = []) :
    ∃ bs : List Char, bs.all isBlank = true ∧ gs = bs.map char := by
  induction gs with
  | nil => exact ⟨[], rfl, rfl⟩
  | cons g gs ih =>
    cases g with
    | char c =>
      by_cases hc : isBlank c = true
      · rw [solids_char_blank hc] at h
        obtain ⟨bs, hbs, rfl⟩ := ih h
        exact ⟨c :: bs, by rw [List.all_cons, hc, hbs, Bool.and_self], rfl⟩
      · rw [solids_char (by simpa using hc)] at h
        simp at h
    | segment mark text =>
      rw [solids_segment] at h
      simp at h

theorem endsSolid_of_append {gs hs : List Glyph} (h : EndsSolid (gs ++ hs)) : EndsSolid hs := by
  intro c hc
  apply h
  rw [List.getLast?_append, hc]
  rfl

/-- Glyphs of white space end with white space, unless there are none. -/
theorem eq_nil_of_endsSolid {bs : List Char} (hbs : bs.all isBlank = true)
    (h : EndsSolid (bs.map char)) : bs = [] := by
  cases hlast : bs.getLast? with
  | none => exact List.getLast?_eq_none_iff.1 hlast
  | some c =>
    have hc := h c (by rw [List.getLast?_map, hlast]; rfl)
    rw [List.all_eq_true] at hbs
    rw [hbs c (List.mem_of_getLast? hlast)] at hc
    exact absurd hc (by decide)

/-! ## Ink at the start of texts -/

/-- A text has one first occurrence of a character. -/
theorem append_cons_inj {α : Type} {x : α} {xs xs' ys ys' : List α}
    (h : xs ++ x :: ys = xs' ++ x :: ys') (hx : x ∉ xs) (hx' : x ∉ xs') : xs = xs' ∧ ys = ys' := by
  induction xs generalizing xs' with
  | nil =>
    cases xs' with
    | nil => exact ⟨rfl, (List.cons.inj h).2⟩
    | cons z xs' => exact absurd ((List.cons.inj h).1 ▸ List.mem_cons_self) hx'
  | cons z xs ih =>
    rw [List.mem_cons, not_or] at hx
    cases xs' with
    | nil => exact absurd (List.cons.inj h).1.symm hx.1
    | cons z' xs' =>
      rw [List.mem_cons, not_or] at hx'
      obtain ⟨rfl, htail⟩ := List.cons.inj h
      obtain ⟨rfl, rfl⟩ := ih htail hx.2 hx'.2
      exact ⟨rfl, rfl⟩

theorem length_ink (j k : Joint) (cs : List Char) : (ink j cs).length = (ink k cs).length := by
  rw [← List.length_map (f := Prod.snd), ← @List.length_map _ _ (ink k cs) Prod.snd,
    map_snd_ink j false, map_snd_ink k false]

/-- Behind starts with the same ink the rests of two texts with equal ink have equal ink. -/
theorem ink_cancel {j k : Joint} {t t' cs ds : List Char} (h : ink j (t ++ cs) = ink k (t' ++ ds))
    (hlength : (ink j t).length = (ink k t').length) :
    ink (j.after t) cs = ink (k.after t') ds := by
  rw [ink_append, ink_append] at h
  exact (List.append_inj h hlength).2

theorem solids_chars (cs : List Char) :
    solids (cs.map char) = (cs.filter fun c => !isBlank c).map char := by
  rw [solids, List.filter_map]
  rfl

theorem solids_blanks_append {bs : List Char} (hbs : bs.all isBlank = true) (gs : List Glyph) :
    solids (bs.map char ++ gs) = solids gs := by
  rw [solids_append, solids_chars, List.filter_eq_nil_iff.2, List.map_nil, List.nil_append]
  intro c hc
  simp [List.all_eq_true.1 hbs c hc]

theorem solids_chars_congr {t t' : List Char} {j : Joint} (h : ink j t = ink j t') :
    solids (t.map char) = solids (t'.map char) := by
  rw [solids_chars, solids_chars, ← map_snd_ink_eq_filter j, ← map_snd_ink_eq_filter j, h]

/-- Glyphs whose text starts with a token, and whose glyphs other than white space start with
those of the token, start with the glyphs of the token. -/
theorem exists_chars_append {hs S : List Glyph} {t r : List Char} (htail : IsTail t)
    (htext : textOf hs = t ++ r) (hsolids : solids hs = solids (t.map char) ++ S) :
    ∃ rest, hs = t.map char ++ rest ∧ textOf rest = r ∧ solids rest = S := by
  induction t generalizing hs with
  | nil => exact ⟨hs, rfl, htext, hsolids⟩
  | cons d t ih =>
    have hend : EndsInRun (d :: t) := by
      obtain h | h := htail
      · simp at h
      · exact h
    -- a token ends with a character other than white space, so a character comes first
    obtain ⟨e, rest, hfirst⟩ : ∃ e rest, solids ((d :: t).map char) = char e :: rest := by
      obtain ⟨front, c, hfront, hc⟩ := hend
      rw [solids_chars, hfront, List.filter_append, List.filter_cons_of_pos
        (by simp [isBlank_of_isRunChar hc])]
      cases front.filter fun c => !isBlank c with
      | nil => exact ⟨c, _, rfl⟩
      | cons e es => exact ⟨e, _, rfl⟩
    cases hs with
    | nil => simp [textOf] at htext
    | cons g hs =>
      cases g with
      | segment mark text =>
        rw [hfirst, solids_segment] at hsolids
        simp at hsolids
      | char c =>
        obtain ⟨rfl, htext'⟩ := List.cons.inj htext
        have hsolids' : solids hs = solids (t.map char) ++ S := by
          rw [List.map_cons] at hsolids
          by_cases hc : isBlank c = true
          · rwa [solids_char_blank hc, solids_char_blank hc] at hsolids
          · rw [Bool.not_eq_true] at hc
            rw [solids_char hc, solids_char hc] at hsolids
            exact (List.cons.inj hsolids).2
        obtain ⟨rest, rfl, hrest, hS⟩ := ih (isTail_of_endsInRun_cons hend) htext' hsolids'
        exact ⟨rest, rfl, hrest, hS⟩

theorem textOf_segment (mark : Char) (text : List Char) (gs : List Glyph) :
    textOf (segment mark text :: gs) = text ++ textOf gs :=
  textOf_cons ..

theorem textOf_chars_append (cs : List Char) (gs : List Glyph) :
    textOf (cs.map char ++ gs) = cs ++ textOf gs := by
  rw [textOf_append, textOf_chars]

/-- Glyphs with the ink of a segment and glyphs behind it start with white space and the segment,
and what is behind it has the ink of these glyphs. -/
theorem exists_segment_of_ink_eq {gs hs : List Glyph} {mark : Char} {t : List Char} {j k : Joint}
    (hink : ink j (textOf (segment mark t :: gs)) = ink k (textOf hs))
    (hsolids : solids (segment mark t :: gs) = solids hs) (hend : EndsSolid hs) :
    ∃ (bs : List Char) (rest : List Glyph), bs.all isBlank = true ∧
      hs = bs.map char ++ segment mark t :: rest ∧ solids gs = solids rest ∧ EndsSolid rest ∧
      ink (j.after t) (textOf gs) = ink ((k.after bs).after t) (textOf rest) := by
  obtain ⟨bs, rest, hbs, rfl, hrest⟩ :=
    exists_of_solids_eq_cons (hsolids.symm.trans (solids_segment ..))
  refine ⟨bs, rest, hbs, rfl, hrest.symm, ?_, ?_⟩
  · rw [← List.singleton_append, ← List.append_assoc] at hend
    exact endsSolid_of_append hend
  · rw [textOf_chars_append, textOf_segment, textOf_segment, ink_append k, ink_of_all_blank hbs,
      List.nil_append] at hink
    exact ink_cancel hink (length_ink ..)

end PgSchema.Layout
