/-
# Legible glyphs

Glyphs are legible when their text is cut into the same glyphs again.  `Legible` says so step by
step: white space, comments, quoted text and tokens of loose text, each of them found in the text
from where it starts.  Respaced glyphs are legible once their open line comments have taken the
white space behind them.

* `legible_absorb` : respaced glyphs are legible but for the white space behind open line comments;
* `exists_scan_of_legible` : the text of legible glyphs is cut into these glyphs.
-/
import PgSchema.Proofs.Layout.Absorb
import PgSchema.Proofs.Layout.Gap

namespace PgSchema.Layout

open Sql Text Glyph Lexeme

/-! ## Legible glyphs -/

/-- Whether a command may start behind a token of loose text. -/
def freshBehind (kind : LexemeKind) : Bool := kind == .semicolon || kind == .opening

/-- Holds for glyphs that start with a token or a quoted text, or that are none. -/
def StartsPiece : List Glyph → Prop
  | [] => True
  | .char c :: _ => isBlank c = false
  | .segment mark _ :: _ => mark = quotedMark

/-- Holds for glyphs at the end of a statement. -/
def EndsStatement (gs : List Glyph) : Prop := gs = [] ∨ ∃ rest, gs = char ';' :: rest

/-- Holds for the glyphs behind the word of a command whose body is a quoted text, with white space
and comments before it. -/
def IsQuotedBody : List Glyph → Prop
  | [] => False
  | .char c :: gs => isBlank c = true ∧ IsQuotedBody gs
  | .segment mark _ :: gs => if mark = quotedMark then EndsStatement gs else IsQuotedBody gs

/-- Holds for glyphs in which no white space stands between quoted text and the semicolon behind
it. -/
def QuotesTight (gs : List Glyph) : Prop :=
  ∀ (front : List Glyph) (t bs : List Char) (rest : List Glyph),
    gs = front ++ segment quotedMark t :: (bs.map char ++ char ';' :: rest) →
      bs.all isBlank = true → bs = []

/-- Holds for glyphs whose text is cut into the same glyphs, behind a parameter mark or not, and
where a command may start or not. -/
inductive Legible : Bool → Bool → List Glyph → Prop
  | nil {p fresh} : Legible p fresh []
  | blank {p fresh c gs} : isBlank c = true → Legible p fresh gs → Legible p fresh (char c :: gs)
  | closedLine {p fresh t gs} : IsClosedLine t → Legible p fresh gs →
      Legible p fresh (segment lineMark t :: gs)
  | openLine {p fresh t gs} : IsOpenLine t → StartsPiece gs → Legible p fresh gs →
      Legible p fresh (segment lineMark t :: gs)
  | lastLine {p fresh t} : IsLastLine t → Legible p fresh [segment lineMark t]
  | block {p fresh t gs} : IsSingleBlock t → Legible p fresh gs →
      Legible p fresh (segment blockMark t :: gs)
  | quoted {p fresh c t gs} : next p c (t ++ textOf gs) = .ok (.quoted, t.length) →
      Legible false false gs → Legible p fresh (segment quotedMark (c :: t) :: gs)
  | token {p fresh c t gs kind} : isBlank c = false → c ≠ '$' →
      next p c (t ++ textOf gs) = .ok (kind, t.length) → isLoose kind = true →
      (kind = .command → fresh = false ∨ IsQuotedBody gs) →
      Legible (LexemeKind.afterParameter p kind) (freshBehind kind) gs →
      Legible p fresh ((c :: t).map char ++ gs)

theorem legible_blanks_append {p fresh : Bool} {bs : List Char} (hbs : bs.all isBlank = true)
    {gs : List Glyph} (h : Legible p fresh gs) : Legible p fresh (bs.map char ++ gs) := by
  induction bs with
  | nil => exact h
  | cons b bs ih =>
    rw [List.all_cons, Bool.and_eq_true] at hbs
    exact .blank hbs.1 (ih hbs.2)

/-! ## Commands -/

theorem quotesTight_of_append {gs hs : List Glyph} (h : QuotesTight (gs ++ hs)) :
    QuotesTight hs := by
  rintro front t bs rest rfl hbs
  exact h (gs ++ front) t bs rest (List.append_assoc ..).symm hbs

theorem quotesTight_of_cons {g : Glyph} {gs : List Glyph} (h : QuotesTight (g :: gs)) :
    QuotesTight gs :=
  @quotesTight_of_append [g] gs h

theorem isQuotedBody_blanks_append {bs : List Char} (hbs : bs.all isBlank = true)
    {gs : List Glyph} : IsQuotedBody (bs.map char ++ gs) ↔ IsQuotedBody gs := by
  induction bs with
  | nil => rfl
  | cons b bs ih =>
    rw [List.all_cons, Bool.and_eq_true] at hbs
    rw [List.map_cons, List.cons_append, IsQuotedBody, ih hbs.2, and_iff_right hbs.1]

/-- A command with a quoted body has it wherever white space stands before it. -/
theorem isQuotedBody_of_solids_eq {gs hs : List Glyph} (h : IsQuotedBody gs)
    (hsolids : solids gs = solids hs) (htight : QuotesTight hs) (hend : EndsSolid hs) :
    IsQuotedBody hs := by
  -- white space may stand elsewhere in `hs`, but not behind the quoted text: at the end by `hend`,
  -- before the semicolon by `htight`
  induction gs generalizing hs with
  | nil => exact h.elim
  | cons g gs ih =>
    cases g with
    | char c =>
      rw [solids_char_blank h.1] at hsolids
      exact ih h.2 hsolids htight hend
    | segment mark t =>
      rw [solids_segment] at hsolids
      obtain ⟨bs, rest, hbs, rfl, hrest⟩ := exists_of_solids_eq_cons hsolids.symm
      have htight' := quotesTight_of_append htight
      rw [← List.singleton_append, ← List.append_assoc] at htight hend
      rw [isQuotedBody_blanks_append hbs]
      rw [IsQuotedBody] at h ⊢
      split at h
      · next hmark =>
        rw [if_pos hmark]
        obtain rfl | ⟨gs, rfl⟩ := h
        · obtain ⟨ds, hds, rfl⟩ := exists_of_solids_eq_nil hrest
          rw [eq_nil_of_endsSolid hds (endsSolid_of_append hend)]
          exact .inl rfl
        · rw [solids_char (by decide)] at hrest
          obtain ⟨ds, rest, hds, rfl, -⟩ := exists_of_solids_eq_cons hrest
          subst hmark
          rw [htight' [] t ds rest rfl hds]
          exact .inr ⟨rest, rfl⟩
      · next hmark =>
        rw [if_neg hmark]
        exact ih h hrest.symm (quotesTight_of_append htight) (endsSolid_of_append hend)

theorem isQuotedBody_absorb {gs : List Glyph} (h : IsQuotedBody gs) :
    IsQuotedBody (absorb gs) := by
  -- on the number of glyphs: an open line comment takes the white space behind it along
  induction hn : gs.length using Nat.strongRecOn generalizing gs with
  | _ n ih =>
    subst hn
    cases gs with
    | nil => exact h.elim
    | cons g gs =>
      cases g with
      | char c =>
        rw [absorb_char]
        exact ⟨h.1, ih _ (by simp) h.2 rfl⟩
      | segment mark t =>
        rw [IsQuotedBody] at h
        split at h
        · next hmark =>
          rw [absorb_segment (isOpen_of_ne (by rw [hmark]; decide) t), IsQuotedBody, if_pos hmark]
          obtain rfl | ⟨rest, rfl⟩ := h
          · exact .inl rfl
          · exact .inr ⟨absorb rest, absorb_char ..⟩
        · next hmark =>
          cases hopen : isOpen mark t with
          | false =>
            rw [absorb_segment hopen, IsQuotedBody, if_neg hmark]
            exact ih _ (by simp) h rfl
          | true =>
            rw [absorb_open hopen, IsQuotedBody, if_neg hmark]
            refine ih _ ?_ ?_ rfl
            · rw [List.length_drop, List.length_cons]
              omega
            · rwa [← feed_append_drop gs, isQuotedBody_blanks_append (all_isBlank_feed gs)] at h

/-! ## Respaced glyphs -/

theorem isOpen_closedLine {t : List Char} (h : IsClosedLine t) : isOpen lineMark t = false := by
  obtain ⟨v, rfl, -⟩ := h
  have hlast : ('-' :: '-' :: (v ++ ['\n'])).getLast? = some '\n' := by
    rw [← List.cons_append, ← List.cons_append, List.getLast?_concat]
  rw [isOpen, hlast]
  decide

theorem isOpen_openLine {t : List Char} (h : IsOpenLine t) : isOpen lineMark t = true := by
  obtain ⟨v, rfl, hfeed, -⟩ := h
  have hlast : ('-' :: '-' :: v).getLast? ≠ some '\n' := by
    intro hlast
    have hmem := List.mem_of_getLast? hlast
    simp only [List.mem_cons] at hmem
    obtain h | h | h := hmem
    · exact absurd h (by decide)
    · exact absurd h (by decide)
    · exact hfeed h
  rw [isOpen, Bool.and_eq_true, bne_iff_ne]
  exact ⟨rfl, hlast⟩

theorem absorb_segment_nil (mark : Char) (t : List Char) :
    absorb [segment mark t] = [segment mark t] := by
  cases h : isOpen mark t with
  | false => exact absorb_segment h []
  | true =>
    rw [absorb_open h, feed, List.append_nil]
    rfl

/-- An open line comment with white space behind it is open still, or closed by a line feed in
that white space. -/
theorem isOpenLine_append {t bs : List Char} (h : IsOpenLine t) (hbs : bs.all isBlank = true)
    (hfeed : '\n' ∉ bs) : IsOpenLine (t ++ bs) := by
  obtain ⟨v, rfl, hv, hreturn, hgap⟩ := h
  refine ⟨v ++ bs, rfl, ?_, List.mem_append_left bs hreturn, isGap_append hgap (isGap_blanks hbs)⟩
  rw [List.mem_append, not_or]
  exact ⟨hv, hfeed⟩

theorem isClosedLine_append {t bs : List Char} (h : IsOpenLine t) (hbs : bs.all isBlank = true)
    (hfeed : '\n' ∉ bs) : IsClosedLine (t ++ (bs ++ ['\n'])) := by
  obtain ⟨v, rfl, hv, hreturn, hgap⟩ := h
  have hblank : (bs ++ ['\n']).all isBlank = true := by
    rw [List.all_append, hbs]
    decide
  refine ⟨v ++ bs, by simp, ?_, isGap_append hgap (isGap_blanks hblank)⟩
  rw [List.mem_append, not_or]
  exact ⟨hv, hfeed⟩

/-- Glyphs other than white space that start with a piece start with it wherever white space
stands. -/
theorem startsPiece_of_solids_eq {gs hs : List Glyph} (h : StartsPiece gs)
    (hsolids : solids gs = solids hs) (hhead : ∀ c, hs.head? = some (char c) → isBlank c = false) :
    StartsPiece hs := by
  cases hs with
  | nil => trivial
  | cons g hs =>
    cases g with
    | char c => exact hhead c rfl
    | segment mark text =>
      cases gs with
      | nil =>
        rw [solids_segment] at hsolids
        simp [solids] at hsolids
      | cons f gs =>
        cases f with
        | char c =>
          rw [solids_char h, solids_segment] at hsolids
          simp at hsolids
        | segment mark' text' =>
          rw [solids_segment, solids_segment] at hsolids
          rw [StartsPiece, ← (Glyph.segment.inj (List.cons.inj hsolids).1).1]
          exact h

theorem startsPiece_absorb {gs : List Glyph} (h : StartsPiece gs) : StartsPiece (absorb gs) := by
  cases gs with
  | nil => trivial
  | cons g gs =>
    cases g with
    | char c => exact h
    | segment mark text =>
      obtain rfl : mark = quotedMark := h
      rw [absorb_segment (isOpen_of_ne (by decide) _)]
      rfl

/-- Behind an open line comment stands the white space that it takes, and then glyphs with the ink
of those that stood there. -/
theorem legible_absorb_openLine {p fresh : Bool} {t : List Char} (h : IsOpenLine t)
    {gs rest : List Glyph} (hpiece : StartsPiece gs) (hsolids : solids gs = solids rest)
    (hend : EndsSolid rest)
    (ih : ∀ (bs : List Char) rest', bs.all isBlank = true → rest = bs.map char ++ rest' →
      Legible p fresh (absorb rest')) :
    Legible p fresh (absorb (segment lineMark t :: rest)) := by
  obtain ⟨bs, rest', hbs, hfeed, ⟨rfl, heq⟩ | ⟨rfl, heq, hhead⟩⟩ := feed_cases rest
  · have hblank : (bs ++ ['\n']).all isBlank = true := by
      rw [List.all_append, hbs]
      decide
    have hsplit : bs.map char ++ char '\n' :: rest' = (bs ++ ['\n']).map char ++ rest' := by simp
    rw [absorb_open (isOpen_openLine h), heq, hsplit, List.drop_left' (by rw [List.length_map])]
    exact .closedLine (isClosedLine_append h hbs hfeed) (ih _ _ hblank hsplit)
  · rw [absorb_open (isOpen_openLine h), heq, List.drop_left' (by rw [List.length_map])]
    have hsolids' := hsolids.trans (solids_blanks_append hbs rest')
    exact .openLine (isOpenLine_append h hbs hfeed)
      (startsPiece_absorb (startsPiece_of_solids_eq hpiece hsolids' hhead)) (ih bs rest' hbs rfl)

/-- A token of loose text stands in respaced glyphs too, behind white space and with white space of
its own. -/
theorem exists_token_of_ink_eq {p : Bool} {c : Char} {t : List Char} {kind : LexemeKind}
    {gs hs : List Glyph} {j k : Joint} (hblank : isBlank c = false) (hdollar : c ≠ '$')
    (hnext : next p c (t ++ textOf gs) = .ok (kind, t.length)) (hloose : isLoose kind = true)
    (hink : ink j (textOf ((c :: t).map char ++ gs)) = ink k (textOf hs))
    (hsolids : solids ((c :: t).map char ++ gs) = solids hs) :
    ∃ (bs t' : List Char) (rest : List Glyph), bs.all isBlank = true ∧
      hs = bs.map char ++ ((c :: t').map char ++ rest) ∧
      next p c (t' ++ textOf rest) = .ok (kind, t'.length) ∧ solids gs = solids rest ∧
      ink ((Joint.behind c).after t) (textOf gs) =
        ink ((Joint.behind c).after t') (textOf rest) := by
  obtain ⟨bs, hs, hbs, rfl, hrest⟩ := exists_of_solids_eq_cons
    (hsolids.symm.trans (solids_char hblank (t.map char ++ gs)))
  rw [List.map_cons, List.cons_append, textOf_chars_append, textOf_cons, textOf_cons, ink_append k,
    ink_of_all_blank hbs, Glyph.text, List.singleton_append, List.singleton_append,
    List.nil_append, ink_cons hblank, ink_cons hblank, textOf_chars_append] at hink
  have hbehind := (List.cons.inj hink).2
  -- the token is `t` behind `c` on one side and `t'` on the other, with equal ink
  obtain ⟨m, hm, hhead⟩ := next_of_ink_eq hblank hdollar hbehind hnext hloose
  obtain ⟨t', r', htext, rfl⟩ : ∃ t' r', textOf hs = t' ++ r' ∧ m = t'.length :=
    ⟨_, _, (List.take_append_drop m _).symm, (List.length_take_of_le hhead.le_right).symm⟩
  rw [htext] at hhead hm hbehind
  have htail := hhead.tail_right
  have hinkTake := hhead.ink_eq
  rw [List.take_left] at htail
  rw [List.take_left, List.take_left] at hinkTake
  rw [solids_append, solids_chars_congr hinkTake] at hrest
  obtain ⟨rest, rfl, rfl, hsolids'⟩ := exists_chars_append htail htext hrest
  have hlength : (ink (.behind c) t).length = (ink (.behind c) t').length := by
    rw [length_ink _ .joined, hinkTake, length_ink]
  exact ⟨bs, t', rest, hbs, rfl, hm, hsolids'.symm, ink_cancel hbehind hlength⟩

/-- Glyphs with the ink of legible ones are legible once their open line comments have taken the
white space behind them.  They must not end with white space, which a comment at the end would
take, nor have any between a quoted text and a semicolon, which would end a command. -/
theorem legible_absorb {p fresh : Bool} {gs hs : List Glyph} (h : Legible p fresh gs)
    {j k : Joint} (hink : ink j (textOf gs) = ink k (textOf hs)) (hsolids : solids gs = solids hs)
    (hend : EndsSolid hs) (htight : QuotesTight hs) : Legible p fresh (absorb hs) := by
  induction h generalizing hs j k with
  | nil =>
    obtain ⟨bs, hbs, rfl⟩ := exists_of_solids_eq_nil hsolids.symm
    rw [← List.append_nil (bs.map char), absorb_chars_append]
    exact legible_blanks_append hbs .nil
  | blank hc _ ih =>
    rw [solids_char_blank hc] at hsolids
    rw [textOf_cons, Glyph.text, List.singleton_append, ink_cons_blank hc] at hink
    exact ih hink hsolids hend htight
  | closedLine hline _ ih =>
    obtain ⟨bs, rest, hbs, rfl, hsolids', hend', hink'⟩ :=
      exists_segment_of_ink_eq hink hsolids hend
    have htight' := quotesTight_of_cons (quotesTight_of_append htight)
    rw [absorb_chars_append, absorb_segment (isOpen_closedLine hline)]
    exact legible_blanks_append hbs (.closedLine hline (ih hink' hsolids' hend' htight'))
  | openLine hline hpiece _ ih =>
    obtain ⟨bs, rest, hbs, rfl, hsolids', hend', hink'⟩ :=
      exists_segment_of_ink_eq hink hsolids hend
    rw [absorb_chars_append]
    refine legible_blanks_append hbs (legible_absorb_openLine hline hpiece hsolids' hend' ?_)
    rintro ds rest' hds rfl
    rw [textOf_chars_append, ink_append, ink_of_all_blank hds, List.nil_append] at hink'
    exact ih hink' (hsolids'.trans (solids_blanks_append hds rest')) (endsSolid_of_append hend')
      (quotesTight_of_append (quotesTight_of_cons (quotesTight_of_append htight)))
  | lastLine hline =>
    obtain ⟨bs, rest, hbs, rfl, hsolids', hend', -⟩ := exists_segment_of_ink_eq hink hsolids hend
    obtain ⟨bs', hbs', rfl⟩ := exists_of_solids_eq_nil hsolids'.symm
    obtain rfl := eq_nil_of_endsSolid hbs' hend'
    rw [absorb_chars_append, List.map_nil, absorb_segment_nil]
    exact legible_blanks_append hbs (.lastLine hline)
  | block hblock _ ih =>
    obtain ⟨bs, rest, hbs, rfl, hsolids', hend', hink'⟩ :=
      exists_segment_of_ink_eq hink hsolids hend
    have htight' := quotesTight_of_cons (quotesTight_of_append htight)
    rw [absorb_chars_append, absorb_segment (isOpen_of_ne (by decide) _)]
    exact legible_blanks_append hbs (.block hblock (ih hink' hsolids' hend' htight'))
  | quoted hnext _ ih =>
    obtain ⟨bs, rest, hbs, rfl, hsolids', hend', hink'⟩ :=
      exists_segment_of_ink_eq hink hsolids hend
    -- the rests start behind a character of a run
    have hrun := (next_quoted_append rfl hnext).2
    rw [after_of_endsInRun hrun, after_of_endsInRun hrun] at hink'
    have htight' := quotesTight_of_cons (quotesTight_of_append htight)
    rw [absorb_chars_append, absorb_segment (isOpen_of_ne (by decide) _)]
    refine legible_blanks_append hbs (.quoted ?_ (ih hink' hsolids' hend' htight'))
    rw [textOf_absorb]
    exact (next_quoted_append (firstRun_eq_of_ink_eq hink') hnext).1
  | token hblank hdollar hnext hloose hcommand _ ih =>
    obtain ⟨bs, t', rest, hbs, rfl, hnext', hsolids', hink'⟩ :=
      exists_token_of_ink_eq hblank hdollar hnext hloose hink hsolids
    have hend' : EndsSolid rest := endsSolid_of_append (endsSolid_of_append hend)
    have htight' : QuotesTight rest := quotesTight_of_append (quotesTight_of_append htight)
    rw [absorb_chars_append, absorb_chars_append]
    refine legible_blanks_append hbs (.token hblank hdollar ?_ hloose (fun hkind => ?_)
      (ih hink' hsolids' hend' htight'))
    · rw [textOf_absorb]
      exact hnext'
    · exact (hcommand hkind).imp_right fun hbody =>
        isQuotedBody_absorb (isQuotedBody_of_solids_eq hbody hsolids' htight' hend')

/-! ## The text of legible glyphs -/

/-- Holds for the lexemes of the text of glyphs if the text is cut into these glyphs, behind a gap
that is read by itself or that ends before the first of them. -/
structure CutInto (p fresh : Bool) (gs : List Glyph) (ℓs : List Lexeme) : Prop where
  scan : scanFrom p 0 (textOf gs) = .ok ℓs
  ends : EndsStatement gs → endsStatement ℓs = true
  quotedBody : IsQuotedBody gs → isQuotedBody ℓs = true
  pieces : ∀ gap, IsWhole gap ∨ StartsPiece gs →
    Glyph.ofPieces (Piece.ofLexemesFrom (.between gap fresh) ℓs) =
      Glyph.ofPieces (Piece.ofGap gap) ++ gs

section CutInto

variable {p fresh : Bool} {gs : List Glyph} {ℓs : List Lexeme} {c : Char} {t : List Char}

theorem not_endsStatement_segment {mark : Char} : ¬ EndsStatement (segment mark t :: gs) := by
  rintro (h | ⟨rest, h⟩) <;> simp at h

theorem head_of_endsStatement (h : EndsStatement (char c :: gs)) : c = ';' := by
  obtain h | ⟨rest, h⟩ := h
  · simp at h
  · exact Glyph.char.inj (List.cons.inj h).1

theorem exists_cutInto_blank (hc : isBlank c = true) (h : CutInto p fresh gs ℓs) :
    ∃ ℓs, CutInto p fresh (char c :: gs) ℓs := by
  obtain ⟨ℓs', hscan, hsame, hplace⟩ := isGap_blank hc p _ ℓs h.scan
  refine ⟨ℓs', hscan, fun hends => ?_, fun hbody => hsame.trans (h.quotedBody hbody.2),
    fun gap hgap => ?_⟩
  · obtain rfl := head_of_endsStatement hends
    exact absurd hc (by decide)
  · have hgap : IsWhole gap := hgap.resolve_right (by simp [StartsPiece, hc])
    rw [hplace, h.pieces _ (.inl (isWhole_append hgap (isWhole_blank hc))), hgap, ofGap_blank hc,
      ofPieces_append, List.append_assoc]
    rfl

/-- A comment joins the gap before it and is cut off there. -/
theorem exists_cutInto_comment {mark : Char} (hmark : mark ≠ quotedMark) (ht : IsGap t)
    (h : CutInto p fresh gs ℓs)
    (hpieces : ∀ gap, IsWhole gap →
      Glyph.ofPieces (Piece.ofLexemesFrom (.between (gap ++ t) fresh) ℓs) =
        Glyph.ofPieces (Piece.ofGap gap) ++ segment mark t :: gs) :
    ∃ ℓs, CutInto p fresh (segment mark t :: gs) ℓs := by
  obtain ⟨ℓs', hscan, hsame, hplace⟩ := ht p _ ℓs h.scan
  refine ⟨ℓs', hscan, fun hends => absurd hends not_endsStatement_segment, fun hbody => ?_,
    fun gap hgap => ?_⟩
  · rw [IsQuotedBody, if_neg hmark] at hbody
    exact hsame.trans (h.quotedBody hbody)
  · rw [hplace, hpieces gap (hgap.resolve_right hmark)]

/-- A comment that is read by itself is cut off whatever stands behind it. -/
theorem exists_cutInto_wholeComment {mark : Char} (hmark : mark ≠ quotedMark) (ht : IsGap t)
    (hwhole : IsWhole t) (hpiece : Glyph.ofPieces (Piece.ofGap t) = [segment mark t])
    (h : CutInto p fresh gs ℓs) : ∃ ℓs, CutInto p fresh (segment mark t :: gs) ℓs := by
  refine exists_cutInto_comment hmark ht h fun gap hgap => ?_
  rw [h.pieces _ (.inl (isWhole_append hgap hwhole)), hgap, ofPieces_append, List.append_assoc,
    hpiece]
  rfl

theorem cutInto_quoted (hnext : next p c (t ++ textOf gs) = .ok (.quoted, t.length))
    (h : CutInto false false gs ℓs) :
    CutInto p fresh (segment quotedMark (c :: t) :: gs) (⟨.quoted, c :: t⟩ :: ℓs) := by
  refine ⟨?_, fun hends => absurd hends not_endsStatement_segment, h.ends, fun gap _ => ?_⟩
  · rw [textOf_segment, List.cons_append, scanFrom_cons_eq_ok_iff]
    exact ⟨_, _, ℓs, hnext, by rw [List.drop_left]; exact h.scan, by rw [List.take_left]⟩
  · rw [Piece.ofLexemesFrom, ofPieces_append, ofPieces_cons, h.pieces [] (.inl isWhole_nil)]
    rfl

/-- A token of loose text is a piece; behind a word that starts a command nothing is cut in another
way if the command has a quoted body. -/
theorem ofLexemesFrom_loose {kind : LexemeKind} (hloose : isLoose kind = true)
    (hcommand : kind = .command → fresh = false ∨ isQuotedBody ℓs = true)
    (hstarts : ∀ ℓ ∈ ℓs, StartsAsKind ℓ) (gap text : List Char) :
    Piece.ofLexemesFrom (.between gap fresh) (⟨kind, text⟩ :: ℓs) =
      Piece.ofGap gap ++ Piece.loose text ::
        Piece.ofLexemesFrom (.between [] (freshBehind kind)) ℓs := by
  rw [Piece.ofLexemesFrom]
  cases kind with
  | blank => exact absurd hloose (by decide)
  | lineBreak => exact absurd hloose (by decide)
  | comment => exact absurd hloose (by decide)
  | quoted => exact absurd hloose (by decide)
  | command =>
    cases fresh with
    | false => rfl
    | true =>
      obtain hfresh | hbody := hcommand rfl
      · exact absurd hfresh (by decide)
      · exact congrArg (Piece.ofGap gap ++ Piece.loose text :: ·)
          (ofLexemesFrom_of_isQuotedBody hbody hstarts [])
  | plain => rfl
  | parameter => rfl
  | semicolon => rfl
  | opening => rfl

theorem cutInto_token {kind : LexemeKind} (hblank : isBlank c = false)
    (hnext : next p c (t ++ textOf gs) = .ok (kind, t.length)) (hloose : isLoose kind = true)
    (hcommand : kind = .command → fresh = false ∨ IsQuotedBody gs)
    (h : CutInto (LexemeKind.afterParameter p kind) (freshBehind kind) gs ℓs) :
    CutInto p fresh ((c :: t).map char ++ gs) (⟨kind, c :: t⟩ :: ℓs) := by
  refine ⟨?_, fun hends => ?_, fun hbody => ?_, fun gap _ => ?_⟩
  · rw [textOf_chars_append, List.cons_append, scanFrom_cons_eq_ok_iff]
    exact ⟨kind, _, ℓs, hnext, by rw [List.drop_left]; exact h.scan, by rw [List.take_left]⟩
  · obtain rfl := head_of_endsStatement hends
    rw [next_punctuation (by decide)] at hnext
    rw [endsStatement, ← (Prod.mk.inj (Except.ok.inj hnext)).1]
    rfl
  · exact absurd hbody.1 (by simp [hblank])
  · rw [ofLexemesFrom_loose hloose (fun hkind => (hcommand hkind).imp_right h.quotedBody)
      (startsAsKind_of_mem_scanFrom h.scan), ofPieces_append, ofPieces_cons,
      h.pieces [] (.inl isWhole_nil)]
    rfl

/-- The text of legible glyphs is cut into these glyphs. -/
theorem exists_scan_of_legible (h : Legible p fresh gs) : ∃ ℓs, CutInto p fresh gs ℓs := by
  induction h with
  | nil => exact ⟨[], rfl, fun _ => rfl, False.elim, fun gap _ => (List.append_nil _).symm⟩
  | blank hc _ ih =>
    obtain ⟨ℓs, h⟩ := ih
    exact exists_cutInto_blank hc h
  | closedLine hline _ ih =>
    obtain ⟨ℓs, h⟩ := ih
    have hwhole := isWhole_closedLine hline
    obtain ⟨v, rfl, hfeed, ht⟩ := hline
    have hpiece := ofGap_closedLine hfeed []
    rw [List.append_nil] at hpiece
    exact exists_cutInto_wholeComment (by decide) ht hwhole (congrArg Glyph.ofPieces hpiece) h
  | openLine hline hpiece _ ih =>
    obtain ⟨ℓs, h⟩ := ih
    obtain ⟨v, rfl, hfeed, -, ht⟩ := hline
    refine exists_cutInto_comment (by decide) ht h fun gap hgap => ?_
    -- a gap that is not whole may stand before a piece
    rw [h.pieces _ (.inr hpiece), hgap, ofGap_openLine hfeed, ofPieces_append, List.append_assoc]
    rfl
  | @lastLine p fresh t hline =>
    obtain ⟨v, rfl, hfeed, ht⟩ := hline
    obtain ⟨ℓs, hscan, hplace⟩ := ht p
    refine ⟨ℓs, ?_, fun hends => absurd hends not_endsStatement_segment, False.elim,
      fun gap hgap => ?_⟩
    · rw [textOf_segment, textOf_nil, List.append_nil, hscan]
    -- no piece follows the last comment, so the gap before it is whole
    · have hwhole : IsWhole gap := hgap.resolve_right (by simp [StartsPiece, lineMark, quotedMark])
      rw [hplace, hwhole, ofGap_openLine hfeed, ofPieces_append]
      rfl
  | block hblock _ ih =>
    obtain ⟨ℓs, h⟩ := ih
    have hwhole := isWhole_singleBlock hblock
    obtain ⟨v, rfl, hlength, ht⟩ := hblock
    have hpiece := ofGap_singleBlock hlength []
    rw [List.append_nil] at hpiece
    exact exists_cutInto_wholeComment (by decide) ht hwhole (congrArg Glyph.ofPieces hpiece) h
  | quoted hnext _ ih =>
    obtain ⟨ℓs, h⟩ := ih
    exact ⟨_, cutInto_quoted hnext h⟩
  | token hblank _ hnext hloose hcommand _ ih =>
    obtain ⟨ℓs, h⟩ := ih
    exact ⟨_, cutInto_token hblank hnext hloose hcommand h⟩

end CutInto

end PgSchema.Layout
