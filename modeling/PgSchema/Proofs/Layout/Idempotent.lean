/-
# Formatting twice

The layout of a regular script is legible, so it is cut into the glyphs it was made of, and its
statements are arranged as they are.

* `mapM_arrange_intercalate` : arranged statements are arranged as they are;
* `endsSolid_of_arranged`, `quotesTight_of_arranged` : where a layout has no white space;
* `format_format` : when the layout of a regular script is its own layout.
-/
import PgSchema.Proofs.Layout.Format
import PgSchema.Proofs.Layout.LineEnd
import PgSchema.Proofs.Layout.Regular
import PgSchema.Proofs.Layout.Reread
import PgSchema.Proofs.Layout.Semicolon

namespace PgSchema.Layout

open Sql Text Glyph

/-! ## Statements of masks -/

/-- The statements of a masked text are settled masked texts. -/
theorem settled_of_mem_statements {cs : List Char} (h : WellMasked cs) :
    ∀ statement ∈ statements cs, WellMasked statement ∧ Settled statement := by
  induction cs using statement_induction with
  | last cs hcs =>
    rw [statements_of_notMem hcs]
    split
    · simp
    · intro statement hmem
      rw [List.mem_singleton.1 hmem]
      exact ⟨wellMasked_canonical h, settled_canonical h⟩
  | next cs ds hcs ih =>
    obtain ⟨hfirst, hrest⟩ := wellMasked_of_append (by decide) h
    rw [statements_append hcs, List.forall_mem_cons]
    exact ⟨⟨wellMasked_canonical hfirst, settled_canonical hfirst⟩, ih hrest⟩

/-! ## Arranging twice -/

/-- An arranged statement is arranged as it is. -/
theorem arrange_canonical_of_arrange {segments : List (List Char)} {cs ds : List Char}
    (hmasked : WellMasked cs) (hsettled : Settled cs) (h : arrange segments cs = .ok ds) :
    arrange segments (canonical ds) = .ok ds := by
  obtain hsame | hagain := canonical_arranged hmasked hsettled h
  · rw [hsame, h]
  · exact hagain segments

theorem mapM_arrange_canonical {segments : List (List Char)} {css arranged : List (List Char)}
    (hcss : ∀ cs ∈ css, WellMasked cs ∧ Settled cs)
    (h : css.mapM (arrange segments) = .ok arranged) :
    (arranged.map canonical).mapM (arrange segments) = .ok arranged := by
  induction css generalizing arranged with
  | nil =>
    obtain rfl := Except.ok.inj h
    rfl
  | cons cs css ih =>
    obtain ⟨⟨hmasked, hsettled⟩, htail⟩ := List.forall_mem_cons.1 hcss
    obtain ⟨ds, rest, hds, hrest, rfl⟩ := mapM_cons_eq_ok_iff.1 h
    rw [List.map_cons, mapM_cons_eq_ok_iff]
    exact ⟨ds, rest, arrange_canonical_of_arrange hmasked hsettled hds, ih htail hrest, rfl⟩

/-- The arranged statements of a masked text, joined by blank lines, are arranged as they are. -/
theorem mapM_arrange_intercalate {segments : List (List Char)} {cs : List Char}
    {arranged : List (List Char)} (hmasked : WellMasked cs)
    (h : (statements cs).mapM (arrange segments) = .ok arranged) :
    (statements (['\n', '\n'].intercalate arranged)).mapM (arrange segments) = .ok arranged := by
  rw [statements_intercalate_arranged h]
  exact mapM_arrange_canonical (settled_of_mem_statements hmasked) h

/-! ## The end of a layout -/

/-- Holds for a text that ends with a character other than white space. -/
def EndsInInk (cs : List Char) : Prop := ∃ front c, cs = front ++ [c] ∧ isBlank c = false

theorem endsInInk_append {cs ds : List Char} (h : EndsInInk ds) : EndsInInk (cs ++ ds) := by
  obtain ⟨front, c, rfl, hc⟩ := h
  exact ⟨cs ++ front, c, by rw [List.append_assoc], hc⟩

theorem endsInInk_of_blankBehind {cs : List Char} (h : blankBehind false cs = false)
    (hne : cs ≠ []) : EndsInInk cs := by
  rw [← List.dropLast_concat_getLast hne, blankBehind_append] at h
  exact ⟨_, _, (List.dropLast_concat_getLast hne).symm, h⟩

theorem endsInInk_arrange {segments : List (List Char)} {cs ds : List Char} (hs : Settled cs)
    (hne : cs ≠ []) (h : arrange segments cs = .ok ds) : EndsInInk ds := by
  cases cs with
  | nil => exact absurd rfl hne
  | cons c cs =>
    have hend : blankBehind false (c :: cs) = false := by
      rw [blankBehind, hs.1]
      exact blankBehind_of_settledFrom hs.2
    apply endsInInk_of_blankBehind (blankBehind_arrange h hend)
    rintro rfl
    have hink := ink_of_arrange h .free
    rw [ink_cons hs.1, ink_nil] at hink
    simp at hink

theorem endsInInk_intercalate (sep : List Char) {css : List (List Char)}
    (h : ∀ cs ∈ css, EndsInInk cs) (hne : css ≠ []) : EndsInInk (sep.intercalate css) := by
  induction css with
  | nil => exact absurd rfl hne
  | cons cs css ih =>
    obtain ⟨hcs, htail⟩ := List.forall_mem_cons.1 h
    cases css with
    | nil =>
      have hone : sep.intercalate [cs] = cs := List.append_nil cs
      rwa [hone]
    | cons ds css =>
      rw [List.intercalate_cons_cons]
      exact endsInInk_append (ih htail (by simp))

theorem ne_nil_of_mem_statements {cs statement : List Char} (h : statement ∈ statements cs) :
    statement ≠ [] := by
  have hkept := (List.mem_filter.1 h).2
  simpa using hkept

/-- The glyphs of a layout do not end with white space. -/
theorem endsSolid_of_arranged {segments : List (List Char)} {cs : List Char}
    {arranged : List (List Char)} {hs : List Glyph} (hmasked : WellMasked cs)
    (h : (statements cs).mapM (arrange segments) = .ok arranged)
    (hglyphs : ['\n', '\n'].intercalate arranged = maskGlyphs 0 hs) : EndsSolid hs := by
  intro c hc
  obtain ⟨front, rfl⟩ := List.getLast?_eq_some_iff.1 hc
  rw [maskGlyphs_append] at hglyphs
  have hends : ∀ ds ∈ arranged, EndsInInk ds := by
    refine forall_of_mapM_eq_ok (q := EndsInInk) ?_ h
    intro statement hmem ds hds
    exact endsInInk_arrange (settled_of_mem_statements hmasked _ hmem).2
      (ne_nil_of_mem_statements hmem) hds
  have hne : arranged ≠ [] := by
    rintro rfl
    simp [maskGlyphs] at hglyphs
  obtain ⟨front', d, heq, hd⟩ := endsInInk_intercalate ['\n', '\n'] hends hne
  obtain ⟨-, hlast⟩ := List.append_inj' (hglyphs.symm.trans heq) rfl
  rw [(List.cons.inj hlast).1, hd]

/-- In the glyphs of a layout no white space stands between quoted text and a semicolon. -/
theorem quotesTight_of_arranged {segments : List (List Char)} {cs : List Char}
    {arranged : List (List Char)} {hs : List Glyph} (hmasked : WellMasked cs)
    (h : (statements cs).mapM (arrange segments) = .ok arranged)
    (hglyphs : ['\n', '\n'].intercalate arranged = maskGlyphs 0 hs) : QuotesTight hs := by
  rintro front t bs rest rfl hbs
  have htight := semicolonsTight_of_arranged hmasked h
  rw [hglyphs, maskGlyphs_append, maskGlyphs, maskGlyphs_chars_append, maskGlyphs, maskOf,
    List.append_assoc, ← List.append_assoc, List.singleton_append] at htight
  exact htight _ quotedMark bs _ rfl (by decide) (by decide) hbs

/-! ## Open line comments at the end -/

/-- Holds for glyphs in which nothing stands behind an open line comment. -/
def OpenLast : List Glyph → Prop
  | [] => True
  | .char _ :: gs => OpenLast gs
  | .segment mark text :: gs => (isOpen mark text = true → gs = []) ∧ OpenLast gs

theorem openLast_chars_append (cs : List Char) {gs : List Glyph} (h : OpenLast gs) :
    OpenLast (cs.map char ++ gs) := by
  induction cs with
  | nil => exact h
  | cons c cs ih => exact ih

/-- Without carriage returns only the last line comment of legible glyphs is open. -/
theorem openLast_of_legible {p fresh : Bool} {gs : List Glyph} (h : Legible p fresh gs)
    (hreturn : '\r' ∉ textOf gs) : OpenLast (solids gs) := by
  have htail : ∀ {g : Glyph} {gs}, '\r' ∉ textOf (g :: gs) → '\r' ∉ textOf gs := by
    intro g gs hnot hmem
    rw [textOf_cons, List.mem_append, not_or] at hnot
    exact hnot.2 hmem
  have hclosed : ∀ {mark : Char} {text : List Char} {gs : List Glyph}, mark ≠ lineMark →
      isOpen mark text = true → gs = [] := by
    intro mark text gs hmark hopen
    rw [isOpen_of_ne hmark] at hopen
    exact absurd hopen (by decide)
  induction h with
  | nil => trivial
  | blank hc _ ih =>
    rw [solids_char_blank hc]
    exact ih (htail hreturn)
  | closedLine hline _ ih =>
    rw [solids_segment]
    refine ⟨fun hopen => ?_, ih (htail hreturn)⟩
    rw [isOpen_closedLine hline] at hopen
    exact absurd hopen (by decide)
  -- an open line comment within the text holds a carriage return
  | openLine hline _ _ _ =>
    obtain ⟨v, rfl, -, hmem, -⟩ := hline
    rw [textOf_segment, List.mem_append, not_or] at hreturn
    exact absurd (List.mem_cons_of_mem _ (List.mem_cons_of_mem _ hmem)) hreturn.1
  | lastLine hline =>
    rw [solids_segment]
    exact ⟨fun _ => rfl, trivial⟩
  | block _ _ ih =>
    rw [solids_segment]
    exact ⟨hclosed (by decide), ih (htail hreturn)⟩
  | quoted _ _ ih =>
    rw [solids_segment]
    exact ⟨hclosed (by decide), ih (htail hreturn)⟩
  | token _ _ _ _ _ _ ih =>
    rw [solids_append, solids_chars]
    rw [textOf_chars_append, List.mem_append, not_or] at hreturn
    exact openLast_chars_append _ (ih hreturn.2)

/-- White space behind an open line comment that nothing else follows would end the glyphs. -/
theorem linesTight_of_openLast {gs : List Glyph} (h : OpenLast (solids gs)) (hend : EndsSolid gs) :
    LinesTight gs := by
  induction gs with
  | nil => trivial
  | cons g gs ih =>
    have hend' : EndsSolid gs := @endsSolid_of_append [g] gs hend
    cases g with
    | char c =>
      by_cases hc : isBlank c = true
      · rw [solids_char_blank hc] at h
        exact ih h hend'
      · rw [solids_char (by simpa using hc)] at h
        exact ih h hend'
    | segment mark text =>
      rw [solids_segment] at h
      refine ⟨fun hopen => ?_, ih h.2 hend'⟩
      obtain ⟨bs, hbs, rfl⟩ := exists_of_solids_eq_nil (h.1 hopen)
      rw [eq_nil_of_endsSolid hbs hend']
      rfl

/-! ## Formatting twice -/

/-- Holds for a script that cannot be cut into lexemes, or has no marks and is regular.  A dollar
sign is ruled out because the layout can drop white space beside it, and the next layout then finds
a dollar quote. -/
def isRegular (s : String) : Bool :=
  match Lexeme.scan s.toList with
  | .error _ => true
  | .ok ℓs => s.toList.all (!isMark ·) && isRegularFrom true false ℓs

/-- Holds for a script whose layout has white space behind line comments only where they end with a
line feed. -/
def KeepsLineEnds (s : String) : Prop :=
  ∀ ℓs arranged, Lexeme.scan s.toList = .ok ℓs →
    (statements (mask (Piece.ofLexemes ℓs))).mapM (arrange (segments (Piece.ofLexemes ℓs))) =
      .ok arranged →
    LinesStand (segments (Piece.ofLexemes ℓs)) (['\n', '\n'].intercalate arranged)

/-- The layout of legible glyphs is cut into the glyphs of the arranged statements, but for the
white space behind open line comments. -/
theorem exists_scan_of_ofPieces {gs : List Glyph} {ℓs : List Lexeme} {cs : List Char}
    (hlegible : Legible false true gs) (hscan : Lexeme.scan (textOf gs) = .ok ℓs)
    (hproper : ∀ g ∈ gs, g.IsProper) (hpieces : Glyph.ofPieces (Piece.ofLexemes ℓs) = gs)
    (h : Layout.ofPieces (Piece.ofLexemes ℓs) = .ok cs) :
    ∃ arranged hs ℓs',
      (statements (maskGlyphs 0 gs)).mapM (arrange (segmentsOf gs)) = .ok arranged ∧
      ['\n', '\n'].intercalate arranged = maskGlyphs 0 hs ∧ (∀ g ∈ hs, g.IsProper) ∧
      segmentsOf hs = segmentsOf gs ∧ solids gs = solids hs ∧ EndsSolid hs ∧ cs = textOf hs ∧
      Lexeme.scan cs = .ok ℓs' ∧ Glyph.ofPieces (Piece.ofLexemes ℓs') = absorb hs := by
  have hmask : mask (Piece.ofLexemes ℓs) = maskGlyphs 0 gs := by
    rw [mask, maskFrom_eq_maskGlyphs, hpieces]
  have hmasked : WellMasked (mask (Piece.ofLexemes ℓs)) := ⟨0, gs, hproper, hmask⟩
  rw [← hpieces] at hproper
  obtain ⟨arranged, gs', hs, harranged, hmask', hproper', rfl, hsegments, hjoined, hglyphs⟩ :=
    exists_textOf_of_ofPieces h hproper
  -- the glyphs of the layout are respaced glyphs of the script
  have hink : ink .free (textOf gs) = ink .free (textOf hs) := by
    have hlines := linesClosed_ofLexemes (Lexeme.startsAsKind_of_mem_scanFrom hscan)
    rw [ink_of_ofPieces h hproper hlines, flatMap_text_ofLexemes,
      Lexeme.flatMap_text_of_scanFrom hscan]
  have hsolids : solids gs = solids hs := by
    rw [← map_snd_glyphInk .free hs, hjoined, map_snd_glyphInk, joinLines, solids_joinLinesFrom,
      ← map_snd_glyphInk .free gs', hglyphs, map_snd_glyphInk, hpieces]
  have hend := endsSolid_of_arranged hmasked harranged hmask'
  have htight := quotesTight_of_arranged hmasked harranged hmask'
  obtain ⟨ℓs', hcut⟩ :=
    exists_scan_of_legible (legible_absorb hlegible hink hsolids hend htight)
  have hscan' := hcut.scan
  rw [textOf_absorb] at hscan'
  rw [segments_eq_segmentsOf, hpieces] at hsegments harranged
  rw [hmask] at harranged
  exact ⟨arranged, hs, ℓs', harranged, hmask', hproper', hsegments, hsolids, hend, rfl, hscan',
    hcut.pieces [] (.inl isWhole_nil)⟩

/-- A layout is its own layout exactly when no white space in it stands behind an open line
comment. -/
theorem ofPieces_eq_ok_iff_absorb {gs hs : List Glyph} {arranged : List (List Char)}
    {ℓs : List Lexeme} (hgs : ∀ g ∈ gs, g.IsProper) (hhs : ∀ g ∈ hs, g.IsProper)
    (h : (statements (maskGlyphs 0 gs)).mapM (arrange (segmentsOf gs)) = .ok arranged)
    (hmask : ['\n', '\n'].intercalate arranged = maskGlyphs 0 hs)
    (hsegments : segmentsOf hs = segmentsOf gs)
    (hpieces : Glyph.ofPieces (Piece.ofLexemes ℓs) = absorb hs)
    (htext : unmask (segmentsOf gs) (maskGlyphs 0 hs) = .ok (textOf hs)) :
    Layout.ofPieces (Piece.ofLexemes ℓs) = .ok (textOf hs) ↔ absorb hs = hs := by
  -- the old layout has the same statements, arranged in the same way
  have hagain : (statements (maskGlyphs 0 hs)).mapM (arrange (segmentsOf hs)) = .ok arranged := by
    rw [hsegments, ← hmask]
    exact mapM_arrange_intercalate ⟨0, gs, hgs, rfl⟩ h
  constructor
  · intro hsame
    have hproper : ∀ g ∈ Glyph.ofPieces (Piece.ofLexemes ℓs), g.IsProper := by
      rw [hpieces]
      exact isProper_absorb hhs
    obtain ⟨arranged', gs', hs', harranged', hmask', -, htext', hsegments', -, -⟩ :=
      exists_textOf_of_ofPieces hsame hproper
    rw [mask, maskFrom_eq_maskGlyphs, segments_eq_segmentsOf, hpieces] at harranged'
    rw [segments_eq_segmentsOf, hpieces] at hsegments'
    exact absorb_of_layout_eq hhs hagain hmask harranged' hmask' hsegments' htext'.symm
  · intro hsame
    rw [hsame] at hpieces
    refine ofPieces_eq_ok_iff.2 ⟨arranged, ?_, ?_⟩
    · rw [mask, maskFrom_eq_maskGlyphs, segments_eq_segmentsOf, hpieces, hagain]
    · rw [segments_eq_segmentsOf, hpieces, hsegments, hmask, htext]

/-- The layout of a regular script is its own layout exactly when it has white space behind line
comments only where they end with a line feed.  So it is if the script has no carriage return. -/
theorem format_format {s out : String} (hregular : isRegular s = true) (h : format s = .ok out) :
    (format out = .ok out ↔ KeepsLineEnds s) ∧ ('\r' ∉ s.toList → format out = .ok out) := by
  cases hscan : Lexeme.scan s.toList with
  | error why =>
    rw [format_of_scan_eq_error hscan] at h
    obtain rfl := Except.ok.inj h
    have hsame := format_of_scan_eq_error hscan
    refine ⟨iff_of_true hsame ?_, fun _ => hsame⟩
    intro ℓs arranged hok
    rw [hscan] at hok
    simp at hok
  | ok ℓs =>
    simp only [isRegular, hscan, Bool.and_eq_true, List.all_eq_true, Bool.not_eq_true'] at hregular
    obtain ⟨hmarks, hregular⟩ := hregular
    obtain ⟨gs, hlegible, htext, -, -, -⟩ := exists_legible_of_scan hscan hregular
    have hpieces : Glyph.ofPieces (Piece.ofLexemes ℓs) = gs := by
      obtain ⟨ℓs₀, hcut⟩ := exists_scan_of_legible hlegible
      have hscan₀ := hcut.scan
      rw [htext] at hscan₀
      obtain rfl := Except.ok.inj (hscan.symm.trans hscan₀)
      exact hcut.pieces [] (.inl isWhole_nil)
    have hproper : ∀ g ∈ gs, g.IsProper := by
      rw [← hpieces]
      exact isProper_ofLexemes hmarks hscan
    rw [format_of_scan_eq_ok hscan] at h
    cases hlayout : Layout.ofPieces (Piece.ofLexemes ℓs) with
    | error e => simp [hlayout, Except.map] at h
    | ok cs =>
      rw [hlayout] at h
      obtain rfl := Except.ok.inj h
      have hscanText := hscan
      rw [← htext] at hscanText
      obtain ⟨arranged, hs, ℓs', harranged, hmask, hproper', hsegments, hsolids, hend, rfl, hscan',
        hpieces'⟩ := exists_scan_of_ofPieces hlegible hscanText hproper hpieces hlayout
      -- the arranged statements that `KeepsLineEnds` speaks of are the ones at hand
      have hgiven : ∀ arranged', (statements (mask (Piece.ofLexemes ℓs))).mapM
          (arrange (segments (Piece.ofLexemes ℓs))) = .ok arranged' ↔ arranged' = arranged := by
        intro arranged'
        rw [mask, maskFrom_eq_maskGlyphs, segments_eq_segmentsOf, hpieces, harranged]
        exact ⟨fun heq => (Except.ok.inj heq).symm, fun heq => by rw [heq]⟩
      have htext' : unmask (segmentsOf gs) (maskGlyphs 0 hs) = .ok (textOf hs) := by
        obtain ⟨arranged', harranged', hunmask⟩ := ofPieces_eq_ok_iff.1 hlayout
        obtain rfl := (hgiven arranged').1 harranged'
        rwa [segments_eq_segmentsOf, hpieces, hmask] at hunmask
      -- the second layout is the first one if its glyphs lose no white space to line comments
      have hformat : format (String.ofList (textOf hs)) = .ok (String.ofList (textOf hs)) ↔
          LinesTight hs := by
        rw [← absorb_eq_iff, ← ofPieces_eq_ok_iff_absorb hproper hproper' harranged hmask hsegments
          hpieces' htext', format_of_scan_eq_ok (by rwa [String.toList_ofList])]
        cases Layout.ofPieces (Piece.ofLexemes ℓs') with
        | error e => simp [Except.map]
        | ok ds => simp [Except.map, String.ofList_inj]
      rw [hformat]
      constructor
      · rw [← linesStand_iff hproper', hsegments, ← hmask]
        constructor
        · intro hstand ℓs₀ arranged₀ hscan₀ harranged₀
          obtain rfl := Except.ok.inj (hscan.symm.trans hscan₀)
          obtain rfl := (hgiven arranged₀).1 harranged₀
          rwa [segments_eq_segmentsOf, hpieces]
        · intro hkeeps
          have hstand := hkeeps ℓs arranged hscan ((hgiven arranged).2 rfl)
          rwa [segments_eq_segmentsOf, hpieces] at hstand
      · intro hreturn
        rw [← htext] at hreturn
        have hlast := openLast_of_legible hlegible hreturn
        rw [hsolids] at hlast
        exact linesTight_of_openLast hlast hend

/-- The line feed that ends a comment in the body of a table is there again, and no other. -/
theorem format_format_comment_line :
    format "CREATE TABLE t (a int --c\n);" = .ok "CREATE TABLE t (\n  a int --c\n\n);" ∧
      format "CREATE TABLE t (\n  a int --c\n\n);" =
        .ok "CREATE TABLE t (\n  a int --c\n\n);" := by
  have hout : format "CREATE TABLE t (a int --c\n);" =
      .ok "CREATE TABLE t (\n  a int --c\n\n);" := rfl
  exact ⟨hout, (format_format rfl hout).2 (by decide)⟩

/-- A command is regular if its body is one quoted text. -/
example : isRegular "DO $$ x  y $$;" = true := by decide

/-- A carriage return leaves the line comment open for the layout, which puts a line feed behind
it; the next layout takes this for the end of the comment and puts another. -/
theorem format_carriage_return :
    format "CREATE TABLE t (a int --c\r);" = .ok "CREATE TABLE t (\n  a int --c\r\n);" ∧
      format "CREATE TABLE t (\n  a int --c\r\n);" ≠
        .ok "CREATE TABLE t (\n  a int --c\r\n);" := by
  have hagain : format "CREATE TABLE t (\n  a int --c\r\n);" =
      .ok "CREATE TABLE t (\n  a int --c\r\n\n);" := rfl
  refine ⟨rfl, ?_⟩
  rw [hagain]
  simp

end PgSchema.Layout
