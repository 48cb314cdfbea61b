/-
# Parts of a statement

A part of a statement is a text that leaves no quote, comment or command open, so that punctuation
behind it ends its last token.  Its tokens and its glyphs are then its own, whatever stands behind
that punctuation.

* `IsPart` : such texts;
* `IsPart.glyphs_append` : the glyphs of a part with a stop behind it;
* `format_of_glyphs` : the layout of a script, given by its glyphs.
-/
import PgSchema.Proofs.Layout.Join
import PgSchema.Proofs.Sql.Word

namespace PgSchema.Layout

open Sql Text Glyph Lexeme

/-! ## Glyphs of texts -/

/-- The glyphs of a text, at whose start a command may start if `fresh` holds. -/
def glyphsFrom (fresh : Bool) (cs : List Char) : Except LexError (List Glyph) :=
  (scan cs).map fun ℓs => Glyph.ofPieces (Piece.ofLexemesFrom (.between [] fresh) ℓs)

variable {cs s : List Char} {gs : List Glyph} {fresh : Bool}

theorem glyphsFrom_eq_ok_iff : glyphsFrom fresh cs = .ok gs ↔
    ∃ ℓs, scan cs = .ok ℓs ∧ Glyph.ofPieces (Piece.ofLexemesFrom (.between [] fresh) ℓs) = gs := by
  rw [glyphsFrom, map_eq_ok_iff]

/-- White space in front of a text stays in front of its glyphs. -/
theorem glyphsFrom_blanks (bs : List Char) (hbs : bs.all isBlank = true)
    (h : glyphsFrom fresh cs = .ok gs) :
    glyphsFrom fresh (bs ++ cs) = .ok (bs.map char ++ gs) := by
  obtain ⟨ℓs, hscan, rfl⟩ := glyphsFrom_eq_ok_iff.1 h
  obtain ⟨ms, hms, -, hplace⟩ := isGap_blanks hbs false cs ℓs hscan
  refine glyphsFrom_eq_ok_iff.2 ⟨ms, hms, ?_⟩
  have hblanks := ofPieces_ofLexemesFrom_blanks hbs [] fresh ℓs
  rw [List.append_nil] at hblanks
  rw [hplace, List.nil_append, hblanks]

/-- The kinds of the punctuation marks. -/
theorem markKind_cases {x : Char} (hx : isPunctuation x = true) :
    markKind x = .plain ∧ x ≠ ';' ∨ markKind x = .semicolon ∧ x = ';' := by
  simp only [isPunctuation, Bool.or_eq_true, beq_iff_eq] at hx
  rcases hx with ((rfl | rfl) | rfl) | rfl <;> decide

/-- Punctuation other than a semicolon stands in front of the glyphs behind it. -/
theorem glyphsFrom_punctuation (fresh : Bool) (x : Char) (hx : isPunctuation x = true)
    (hne : x ≠ ';') (h : glyphsFrom false cs = .ok gs) :
    glyphsFrom fresh (x :: cs) = .ok (char x :: gs) := by
  obtain ⟨ℓs, hscan, rfl⟩ := glyphsFrom_eq_ok_iff.1 h
  have hkind : markKind x = .plain := by
    obtain ⟨hkind, -⟩ | ⟨-, rfl⟩ := markKind_cases hx
    · exact hkind
    · exact absurd rfl hne
  refine glyphsFrom_eq_ok_iff.2 ⟨⟨.plain, [x]⟩ :: ℓs, ?_, rfl⟩
  rw [scan, scanFrom_punctuation hx, hkind, ← scan, hscan]
  rfl

/-- A word that starts neither a command nor a keyword of several words. -/
theorem glyphsFrom_word (fresh : Bool) {w : List Char} (hw : isAsciiWord w = true)
    (hdiffers : differsFrom firstWords (w ++ [' ']) = true) (hkind : wordKind false w = .plain)
    (h : glyphsFrom false (' ' :: cs) = .ok gs) :
    glyphsFrom fresh (w ++ ' ' :: cs) = .ok (w.map char ++ gs) := by
  obtain ⟨c, v, rfl, hdigit, hchars⟩ := of_isAsciiWord hw
  obtain ⟨ℓs, hscan, rfl⟩ := glyphsFrom_eq_ok_iff.1 h
  have hphrase := phrase?_append_eq_none hdiffers cs
  rw [List.append_assoc] at hphrase
  refine glyphsFrom_eq_ok_iff.2
    ⟨_, scanFrom_name hdigit hchars (.inl rfl) hphrase hscan, ?_⟩
  rw [hkind]
  rfl

/-! ## Parts -/

/-- The token of a comma. -/
def comma : Lexeme := ⟨.plain, [',']⟩

/-- The token of a line feed. -/
def lineFeed : Lexeme := ⟨.lineBreak, ['\n']⟩

/-- The tokens of a text that a comma ends. -/
def lexemesOf (cs : List Char) : List Lexeme :=
  match scan (cs ++ [',']) with
  | .ok ℓs => ℓs.dropLast
  | .error _ => []

/-- The pieces of a text that a comma ends. -/
def piecesOf (cs : List Char) : List Piece :=
  Piece.ofLexemesFrom (.between [] false) (lexemesOf cs)

/-- The glyphs of a text that a comma ends. -/
def partGlyphs (cs : List Char) : List Glyph := Glyph.ofPieces (piecesOf cs)

/-- Holds for a text that punctuation ends: it leaves no quote and no comment open, and no command
either. -/
structure IsPart (cs : List Char) : Prop where
  closed : scan (cs ++ [',']) = .ok (lexemesOf cs ++ [comma])
  beforeComma : Piece.ofLexemesFrom (.between [] false) (lexemesOf cs ++ [comma]) =
    piecesOf cs ++ [.loose [',']]
  beforeLineFeed : Piece.ofLexemesFrom (.between [] false) (lexemesOf cs ++ [lineFeed]) =
    piecesOf cs ++ [.loose ['\n']]

instance (cs : List Char) : Decidable (IsPart cs) :=
  decidable_of_iff (scan (cs ++ [',']) = .ok (lexemesOf cs ++ [comma]) ∧
    Piece.ofLexemesFrom (.between [] false) (lexemesOf cs ++ [comma]) =
      piecesOf cs ++ [.loose [',']] ∧
    Piece.ofLexemesFrom (.between [] false) (lexemesOf cs ++ [lineFeed]) =
      piecesOf cs ++ [.loose ['\n']])
    ⟨fun h => ⟨h.1, h.2.1, h.2.2⟩, fun h => ⟨h.closed, h.beforeComma, h.beforeLineFeed⟩⟩

/-- The lexemes of a text add pieces and lead to a place, whatever follows them. -/
theorem exists_ofLexemesFrom_place (place : Piece.Place) (ℓs : List Lexeme) : ∃ ps place', ∀ ms,
    Piece.ofLexemesFrom place (ℓs ++ ms) = ps ++ Piece.ofLexemesFrom place' ms := by
  induction ℓs generalizing place with
  | nil => exact ⟨[], place, fun ms => rfl⟩
  | cons ℓ ℓs ih =>
    obtain ⟨front, place', hfront⟩ := exists_ofLexemesFrom_cons place ℓ
    obtain ⟨ps, place'', hps⟩ := ih place'
    refine ⟨front ++ ps, place'', fun ms => ?_⟩
    rw [List.cons_append, hfront, hps, List.append_assoc]

/-- A comma in a command belongs to its last segment. -/
theorem ofLexemesFrom_command_comma (body : List Lexeme) :
    ∃ ps, Piece.ofLexemesFrom (.command body) [comma] = ps ++ [.quoted [',']] := by
  have htext : (((comma :: body).reverse.flatMap (·.text)).all isBlank) = false := by
    rw [List.reverse_cons, List.flatMap_append, List.all_append]
    exact Bool.and_false _
  refine ⟨Piece.ofGap (body.reverse.flatMap (·.text)), ?_⟩
  rw [Piece.ofLexemesFrom, if_neg (by decide), ofLexemesFrom_nil, Piece.Place.flush,
    Piece.ofCommand, htext, if_neg Bool.false_ne_true, if_neg (by decide)]
  exact List.append_nil _

namespace IsPart

theorem flatMap_text_lexemesOf (h : IsPart cs) : (lexemesOf cs).flatMap (·.text) = cs := by
  have htext := flatMap_text_of_scanFrom h.closed
  rw [List.flatMap_append] at htext
  exact List.append_cancel_right htext

theorem textOf_partGlyphs (h : IsPart cs) : textOf (partGlyphs cs) = cs := by
  rw [partGlyphs, textOf_ofPieces, piecesOf, flatMap_text_ofLexemesFrom, h.flatMap_text_lexemesOf]
  rfl

/-- Behind a part the cutting stands between tokens, with a gap that neither a comma nor a line
feed joins. -/
theorem exists_gap (h : IsPart cs) : ∃ ps gap fresh,
    (∀ ms, Piece.ofLexemesFrom (.between [] false) (lexemesOf cs ++ ms) =
      ps ++ Piece.ofLexemesFrom (.between gap fresh) ms) ∧
    ps ++ Piece.ofGap gap = piecesOf cs ∧
    Piece.ofGap (gap ++ ['\n']) = Piece.ofGap gap ++ [.loose ['\n']] := by
  obtain ⟨ps, place, hplace⟩ := exists_ofLexemesFrom_place (.between [] false) (lexemesOf cs)
  have hpieces : piecesOf cs = ps ++ Piece.ofLexemesFrom place [] := by
    rw [← hplace, List.append_nil]
    rfl
  have hcomma : Piece.ofLexemesFrom place [comma] =
      Piece.ofLexemesFrom place [] ++ [.loose [',']] := by
    have hcut := h.beforeComma
    rw [hplace, hpieces, List.append_assoc] at hcut
    exact List.append_cancel_left hcut
  have hfeed : Piece.ofLexemesFrom place [lineFeed] =
      Piece.ofLexemesFrom place [] ++ [.loose ['\n']] := by
    have hcut := h.beforeLineFeed
    rw [hplace, hpieces, List.append_assoc] at hcut
    exact List.append_cancel_left hcut
  cases place with
  | command body =>
    obtain ⟨qs, hqs⟩ := ofLexemesFrom_command_comma body
    rw [hqs] at hcomma
    cases (List.append_inj_right' hcomma rfl)
  | between gap fresh => exact ⟨ps, gap, fresh, hplace, hpieces.symm, hfeed⟩

/-- A stop behind a part is cut as if it stood alone. -/
theorem ofLexemesFrom_append (h : IsPart cs) (hs : IsStop s) {ms : List Lexeme}
    (hms : scan s = .ok ms) : Piece.ofLexemesFrom (.between [] false) (lexemesOf cs ++ ms) =
      piecesOf cs ++ Piece.ofLexemesFrom (.between [] false) ms := by
  obtain ⟨ps, gap, fresh, hplace, hpieces, hfeed⟩ := h.exists_gap
  have hmark {x : Char} (hx : isPunctuation x = true) (gap : List Char) (fresh : Bool)
      (ms : List Lexeme) : Piece.ofLexemesFrom (.between gap fresh) (⟨markKind x, [x]⟩ :: ms) =
        Piece.ofGap gap ++ Piece.ofLexemesFrom (.between [] false) (⟨markKind x, [x]⟩ :: ms) := by
    obtain ⟨hkind, -⟩ | ⟨hkind, -⟩ := markKind_cases hx <;>
    · rw [hkind]
      rfl
  obtain ⟨x, r, hx, rfl | rfl⟩ := hs
  · rw [scan, scanFrom_punctuation hx] at hms
    obtain ⟨ms, -, rfl⟩ := map_eq_ok_iff.1 hms
    rw [hplace, hmark hx, ← List.append_assoc, hpieces]
  · rw [scan, scanFrom_lineFeed, scanFrom_punctuation hx] at hms
    obtain ⟨ms', hms', rfl⟩ := map_eq_ok_iff.1 hms
    obtain ⟨ms, -, rfl⟩ := map_eq_ok_iff.1 hms'
    have hgap (gap : List Char) (fresh : Bool) :
        Piece.ofLexemesFrom (.between gap fresh) (lineFeed :: ⟨markKind x, [x]⟩ :: ms) =
          Piece.ofLexemesFrom (.between (gap ++ ['\n']) fresh) (⟨markKind x, [x]⟩ :: ms) := rfl
    rw [← lineFeed, hplace, hgap, hgap, hmark hx (gap ++ ['\n']), hmark hx ([] ++ ['\n']), hfeed,
      ← hpieces]
    simp only [List.append_assoc]
    rfl

/-- The glyphs of a part with a stop behind it: those of the part, and those of the stop. -/
theorem glyphs_append (h : IsPart cs) (hs : IsStop s) (hdollars : PartsDollars s)
    (hgs : glyphsFrom false s = .ok gs) :
    glyphsFrom false (cs ++ s) = .ok (partGlyphs cs ++ gs) := by
  obtain ⟨ms, hms, rfl⟩ := glyphsFrom_eq_ok_iff.1 hgs
  have hbase : KeepsDollars cs [','] := fun _ => partsDollars_singleton (by decide)
  have hscan : scan (cs ++ s) = .ok (lexemesOf cs ++ ms) := by
    rw [scan, scanFrom_append_stop (by decide) hs hbase (fun _ => hdollars) h.closed
      h.flatMap_text_lexemesOf.symm, ← scan, hms]
    rfl
  refine glyphsFrom_eq_ok_iff.2 ⟨_, hscan, ?_⟩
  rw [h.ofLexemesFrom_append hs hms, ofPieces_append]
  rfl

end IsPart

/-! ## Layouts -/

/-- The layout of a script, given by its glyphs. -/
theorem format_of_glyphs {t : String} {arranged : List (List Char)} {text : List Char}
    (h : glyphsFrom true t.toList = .ok gs)
    (harranged : (statements (maskGlyphs 0 gs)).mapM (arrange (segmentsOf gs)) = .ok arranged)
    (htext : unmask (segmentsOf gs) (['\n', '\n'].intercalate arranged) = .ok text) :
    format t = .ok (String.ofList text) := by
  obtain ⟨ℓs, hscan, rfl⟩ := glyphsFrom_eq_ok_iff.1 h
  rw [← maskFrom_eq_maskGlyphs, ← segments_eq_segmentsOf] at harranged
  rw [← segments_eq_segmentsOf] at htext
  have hpieces : Layout.ofPieces (Piece.ofLexemes ℓs) = .ok text :=
    ofPieces_eq_ok_iff.2 ⟨arranged, harranged, htext⟩
  rw [format_of_scan_eq_ok hscan, hpieces]
  rfl

end PgSchema.Layout
