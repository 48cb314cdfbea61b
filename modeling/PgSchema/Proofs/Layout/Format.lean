/-
# Layout changes white space only

A script without loose marks is masked to glyphs, and the layout keeps their ink; unmasking then
gives a text with the ink of the script.  Loose marks make unmasking look up numbers that no
segment has.

* `exists_ofPieces_eq_ok_iff` : pieces can be laid out exactly when every number that unmasking
  looks up is the number of a segment;
* `format_returns_iff` : the same for scripts, and what it means for a script without marks;
* `format_respaced` : a script without marks differs from its layout in white space only.
-/
import PgSchema.Proofs.Layout.Piece
import PgSchema.Proofs.Layout.Statements

namespace PgSchema.Layout

open Sql Text Glyph

variable {ps : List Piece}

/-! ## Numbers looked up -/

/-- Holds when every number looked up in the statements of a script is the number of one of its
segments. -/
def Restorable (ps : List Piece) : Prop :=
  ∀ statement ∈ statements (mask ps), ∀ digits ∈ lookups statement,
    ∃ segment, segmentOf (segments ps) digits = .ok segment

theorem ofPieces_eq_ok_iff {cs : List Char} :
    Layout.ofPieces ps = .ok cs ↔ ∃ arranged,
      (statements (mask ps)).mapM (arrange (segments ps)) = .ok arranged ∧
      unmask (segments ps) (['\n', '\n'].intercalate arranged) = .ok cs := by
  rw [Layout.ofPieces]
  cases h : (statements (mask ps)).mapM (arrange (segments ps)) with
  | error e => simp [bind, Except.bind]
  | ok arranged => simp [bind, Except.bind]

/-- The numbers looked up behind the layout are those of the statements. -/
theorem lookups_intercalate_arranged {arranged : List (List Char)}
    (h : (statements (mask ps)).mapM (arrange (segments ps)) = .ok arranged) :
    lookups (['\n', '\n'].intercalate arranged) = (statements (mask ps)).flatMap lookups := by
  rw [lookups_eq_of_ink_eq (ink_intercalate_arranged h), lookups_flatten_statements]

/-- Pieces can be laid out exactly when every number looked up is the number of a segment. -/
theorem exists_ofPieces_eq_ok_iff : (∃ cs, Layout.ofPieces ps = .ok cs) ↔ Restorable ps := by
  constructor
  · rintro ⟨cs, h⟩ statement hstatement digits hdigits
    obtain ⟨arranged, harranged, hcs⟩ := ofPieces_eq_ok_iff.1 h
    refine unmask_eq_ok_iff.1 ⟨cs, hcs⟩ digits ?_
    rw [lookups_intercalate_arranged harranged]
    exact List.mem_flatMap.2 ⟨statement, hstatement, hdigits⟩
  · intro h
    obtain ⟨arranged, harranged⟩ : ∃ arranged,
        (statements (mask ps)).mapM (arrange (segments ps)) = .ok arranged :=
      exists_mapM_eq_ok_iff.2 fun statement hstatement => exists_arrange_eq_ok (h _ hstatement)
    obtain ⟨cs, hcs⟩ : ∃ cs,
        unmask (segments ps) (['\n', '\n'].intercalate arranged) = .ok cs := by
      rw [unmask_eq_ok_iff, lookups_intercalate_arranged harranged]
      intro digits hdigits
      obtain ⟨statement, hstatement, hdigits⟩ := List.mem_flatMap.1 hdigits
      exact h statement hstatement digits hdigits
    exact ⟨cs, ofPieces_eq_ok_iff.2 ⟨arranged, harranged, hcs⟩⟩

/-! ## Scripts without loose marks -/

/-- The statements of a script, one behind the other, are a masked text: its glyphs are those of
the script but for white space, joined to line comments. -/
theorem exists_flatten_statements_eq (hproper : ∀ g ∈ Glyph.ofPieces ps, g.IsProper) :
    ∃ gs, (statements (mask ps)).flatten = maskGlyphs 0 (joinLines gs) ∧
      glyphInk .free gs = glyphInk .free (Glyph.ofPieces ps) ∧ ∀ g ∈ gs, g.IsProper := by
  have hmask : mask ps = maskGlyphs 0 (Glyph.ofPieces ps) := maskFrom_eq_maskGlyphs 0 ps
  have hink := ink_flatten_tidy (mask ps)
  rw [hmask, ink_maskGlyphs hproper, ← hmask] at hink
  obtain ⟨gs, hgs, hglyphs, hproper'⟩ := exists_maskGlyphs_of_ink_eq
    (fun s hs => hproper s.2 (mem_of_mem_glyphInk hs)) hink
  exact ⟨gs, by rw [flatten_statements, hgs, dropAfterLineMask_maskGlyphs hproper'], hglyphs,
    hproper'⟩

/-- Without loose marks the numbers looked up are those of the segments, in order. -/
theorem flatMap_lookups_statements (hproper : ∀ g ∈ Glyph.ofPieces ps, g.IsProper) :
    (statements (mask ps)).flatMap lookups =
      (List.range (segments ps).length).map fun n => (toString n).toList := by
  obtain ⟨gs, hgs, hglyphs, hproper'⟩ := exists_flatten_statements_eq hproper
  rw [← lookups_flatten_statements, hgs, lookups_maskGlyphs (isProper_joinLines hproper'),
    segmentsOf_joinLines, segmentsOf_congr hglyphs, ← segments_eq_segmentsOf,
    List.range_eq_range']

/-- Without loose marks a script can be laid out unless the numbers of its segments get too long
to be read. -/
theorem restorable_iff_of_isProper (hproper : ∀ g ∈ Glyph.ofPieces ps, g.IsProper) :
    Restorable ps ↔ (segments ps).length ≤ 10 ^ Number.maxDigits := by
  have hlookups : Restorable ps ↔ ∀ digits ∈ (statements (mask ps)).flatMap lookups,
      ∃ segment, segmentOf (segments ps) digits = .ok segment := by
    simp only [Restorable, List.mem_flatMap, forall_exists_index, and_imp]
    exact ⟨fun h digits st hst hd => h st hst digits hd,
      fun h st hst digits hd => h digits st hst hd⟩
  rw [hlookups, flatMap_lookups_statements hproper]
  constructor
  · intro h
    refine Nat.le_of_not_lt fun hlt => ?_
    obtain ⟨segment, hsegment⟩ :=
      h _ (List.mem_map.2 ⟨_, List.mem_range.2 hlt, rfl⟩)
    exact segmentOf_toString_of_le (Nat.le_refl _) segment hsegment
  · intro h digits hdigits
    obtain ⟨n, hn, rfl⟩ := List.mem_map.1 hdigits
    rw [List.mem_range] at hn
    exact ⟨(segments ps)[n], segmentOf_toString (Nat.lt_of_lt_of_le hn h)
      (List.getElem?_eq_getElem hn)⟩

/-- The arranged statements of a script without loose marks, joined by blank lines, are a masked
text: its segments are those of the script, and its glyph ink is that of the script joined to line
comments. -/
theorem exists_glyphs_of_arranged {arranged : List (List Char)}
    (h : (statements (mask ps)).mapM (arrange (segments ps)) = .ok arranged)
    (hproper : ∀ g ∈ Glyph.ofPieces ps, g.IsProper) :
    ∃ gs hs, ['\n', '\n'].intercalate arranged = maskGlyphs 0 hs ∧ (∀ g ∈ hs, g.IsProper) ∧
      segmentsOf hs = segments ps ∧ glyphInk .free hs = glyphInk .free (joinLines gs) ∧
      glyphInk .free gs = glyphInk .free (Glyph.ofPieces ps) := by
  obtain ⟨gs, hgs, hglyphs, hproper'⟩ := exists_flatten_statements_eq hproper
  have hjoined := isProper_joinLines hproper'
  have hink := ink_intercalate_arranged h
  rw [hgs, ink_maskGlyphs hjoined] at hink
  obtain ⟨hs, hhs, hglyphs', hproper''⟩ := exists_maskGlyphs_of_ink_eq
    (fun s hs => hjoined s.2 (mem_of_mem_glyphInk hs)) hink
  refine ⟨gs, hs, hhs, hproper'', ?_, hglyphs', hglyphs⟩
  rw [segmentsOf_congr hglyphs', segmentsOf_joinLines, segmentsOf_congr hglyphs,
    segments_eq_segmentsOf]

/-- The layout of a script without loose marks is the text of the glyphs of its arranged
statements. -/
theorem exists_textOf_of_ofPieces {cs : List Char} (h : Layout.ofPieces ps = .ok cs)
    (hproper : ∀ g ∈ Glyph.ofPieces ps, g.IsProper) :
    ∃ arranged gs hs, (statements (mask ps)).mapM (arrange (segments ps)) = .ok arranged ∧
      ['\n', '\n'].intercalate arranged = maskGlyphs 0 hs ∧ (∀ g ∈ hs, g.IsProper) ∧
      cs = textOf hs ∧ segmentsOf hs = segments ps ∧
      glyphInk .free hs = glyphInk .free (joinLines gs) ∧
      glyphInk .free gs = glyphInk .free (Glyph.ofPieces ps) := by
  have hlength := (restorable_iff_of_isProper hproper).1 (exists_ofPieces_eq_ok_iff.1 ⟨cs, h⟩)
  obtain ⟨arranged, harranged, hcs⟩ := ofPieces_eq_ok_iff.1 h
  obtain ⟨gs, hs, hmask, hproper', hsegments, hjoined, hglyphs⟩ :=
    exists_glyphs_of_arranged harranged hproper
  refine ⟨arranged, gs, hs, harranged, hmask, hproper', ?_, hsegments, hjoined, hglyphs⟩
  have htext : unmask (segmentsOf hs) (maskGlyphs 0 hs) = .ok (textOf hs) :=
    @unmask_maskGlyphs hs hproper' [] (by rw [List.nil_append, hsegments]; exact hlength)
  rw [hsegments, ← hmask, hcs] at htext
  exact Except.ok.inj htext

/-- The layout of a script whose line comments are closed keeps the ink of its text. -/
theorem ink_of_ofPieces {cs : List Char} (h : Layout.ofPieces ps = .ok cs)
    (hproper : ∀ g ∈ Glyph.ofPieces ps, g.IsProper)
    (hlines : LinesClosed (Glyph.ofPieces ps)) :
    ink .free cs = ink .free (ps.flatMap Piece.text) := by
  obtain ⟨-, gs, hs, -, -, -, rfl, -, hjoined, hglyphs⟩ := exists_textOf_of_ofPieces h hproper
  have hend : LinesEnd (glyphInk .free gs) := by
    rw [hglyphs]
    exact linesEnd_glyphInk hlines .free
  rw [ink_textOf_congr hjoined, ink_textOf_joinLines hend, ink_textOf_congr hglyphs,
    textOf_ofPieces]

/-! ## Scripts -/

variable {s : String} {ℓs : List Lexeme}

theorem format_of_scan_eq_ok (h : Lexeme.scan s.toList = .ok ℓs) :
    format s = (Layout.ofPieces (Piece.ofLexemes ℓs)).map String.ofList := by
  simp only [format, layOut, h]
  cases Layout.ofPieces (Piece.ofLexemes ℓs) <;> rfl

theorem format_of_scan_eq_error {why : LexError} (h : Lexeme.scan s.toList = .error why) :
    format s = .ok s := by
  simp only [format, layOut, h]
  rfl

theorem isProper_ofLexemes (hmarks : ∀ c ∈ s.toList, isMark c = false)
    (h : Lexeme.scan s.toList = .ok ℓs) :
    ∀ g ∈ Glyph.ofPieces (Piece.ofLexemes ℓs), g.IsProper := by
  apply isProper_ofPieces
  rw [flatMap_text_ofLexemes, Lexeme.flatMap_text_of_scanFrom h]
  exact hmarks

theorem exists_format_eq_ok_iff (h : Lexeme.scan s.toList = .ok ℓs) :
    (∃ out, format s = .ok out) ↔ Restorable (Piece.ofLexemes ℓs) := by
  rw [format_of_scan_eq_ok h, ← exists_ofPieces_eq_ok_iff]
  cases Layout.ofPieces (Piece.ofLexemes ℓs) <;> simp [Except.map]

/-- A script can be laid out exactly when every number looked up is the number of a segment.
Without marks in the script these are the numbers of its segments, in order. -/
theorem format_returns_iff (s : String) :
    ((∃ out, format s = .ok out) ↔
      ∀ ℓs, Lexeme.scan s.toList = .ok ℓs → Restorable (Piece.ofLexemes ℓs)) ∧
    ((∀ c ∈ s.toList, isMark c = false) → ∀ ℓs, Lexeme.scan s.toList = .ok ℓs →
      (statements (mask (Piece.ofLexemes ℓs))).flatMap lookups =
        (List.range (segments (Piece.ofLexemes ℓs)).length).map fun n => (toString n).toList) := by
  constructor
  · cases h : Lexeme.scan s.toList with
    | error why => simp [format_of_scan_eq_error h]
    | ok ℓs =>
      rw [exists_format_eq_ok_iff h]
      constructor
      · rintro hrestore _ ⟨⟩
        exact hrestore
      · exact fun hrestore => hrestore ℓs rfl
  · exact fun hmarks ℓs h => flatMap_lookups_statements (isProper_ofLexemes hmarks h)

/-- The literal and the comment of a script are looked up in their order. -/
theorem lookups_literal_and_comment : ∃ ℓs, Lexeme.scan "SELECT 'a  b' --c".toList = .ok ℓs ∧
    (statements (mask (Piece.ofLexemes ℓs))).flatMap lookups = [['0'], ['1']] :=
  ⟨_, rfl, ((format_returns_iff "SELECT 'a  b' --c").2 (isMark_eq_false_of_all (by decide))
    _ rfl).trans (by rfl)⟩

/-- A loose mask stands for no segment. -/
theorem format_loose_mask : ¬ ∃ out, format "\x005\x00" = .ok out := by
  rintro ⟨out, h⟩
  have herror : ∃ e, format "\x005\x00" = .error e := ⟨_, rfl⟩
  obtain ⟨e, he⟩ := herror
  simp [he] at h

/-- The layout changes white space only.  It exists unless the script has so many segments that
their numbers get too long to be read. -/
theorem format_respaced (hmarks : ∀ c ∈ s.toList, isMark c = false)
    (hscan : Lexeme.scan s.toList = .ok ℓs) :
    (∀ out, format s = .ok out → Respaced s.toList out.toList) ∧
    ((∃ out, format s = .ok out) ↔
      (segments (Piece.ofLexemes ℓs)).length ≤ 10 ^ Number.maxDigits) := by
  have hproper := isProper_ofLexemes hmarks hscan
  constructor
  · intro out hout
    rw [format_of_scan_eq_ok hscan] at hout
    cases hpieces : Layout.ofPieces (Piece.ofLexemes ℓs) with
    | error e => simp [hpieces, Except.map] at hout
    | ok cs =>
      rw [hpieces] at hout
      obtain rfl := Except.ok.inj hout
      have hlines := linesClosed_ofLexemes (Lexeme.startsAsKind_of_mem_scanFrom hscan)
      have hink := ink_of_ofPieces hpieces hproper hlines
      rw [flatMap_text_ofLexemes, Lexeme.flatMap_text_of_scanFrom hscan] at hink
      rw [String.toList_ofList]
      exact respaced_of_ink_eq hink.symm
  · rw [exists_format_eq_ok_iff hscan, restorable_iff_of_isProper hproper]

/-- Beside parentheses white space is free, behind a comment it stays. -/
theorem respaced_parentheses :
    Respaced "f ( 'a  b' )  --c".toList "f ('a  b') --c".toList ∧
    ∃ out, format "f ( 'a  b' )  --c" = .ok out := by
  have hmarks : ∀ c ∈ "f ( 'a  b' )  --c".toList, isMark c = false :=
    isMark_eq_false_of_all (by decide)
  obtain ⟨hspace, hreturns⟩ := format_respaced hmarks rfl
  have hfew : 2 ≤ 10 ^ Number.maxDigits :=
    Nat.le_trans (by decide : 2 ≤ 10 ^ 1) (Nat.pow_le_pow_right (by decide) (by decide))
  exact ⟨hspace "f ('a  b') --c" rfl, hreturns.2 hfew⟩

end PgSchema.Layout
