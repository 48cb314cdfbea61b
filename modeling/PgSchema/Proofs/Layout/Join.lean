/-
# Scripts joined by blank lines

Behind the token of a semicolon a script is read as if it started there: the tokenizer, the cut
into pieces and the cut into statements all start again.  Only the numbers of the segments go on.
So the layout of scripts joined by blank lines is the join of their layouts.

* `scan_join`, `exists_ofPieces_join` : the tokens and the glyphs of a script in front of another
  one;
* `statements_join`, `segments_join` : its statements and its segments;
* `segmentCount_le_length` : how many segments a script can have;
* `format_intercalate` : the layout of scripts joined by blank lines.
-/
import PgSchema.Proofs.Layout.Format
import PgSchema.Proofs.Layout.Gap
import PgSchema.Proofs.Layout.LineEnd
import PgSchema.Proofs.Layout.Renumber
import PgSchema.Proofs.Layout.Semicolon
import PgSchema.Proofs.Sql.Restart

namespace PgSchema.Layout

open Sql Text Glyph Lexeme

/-! ## Lists -/

theorem intercalate_append {sep : List Char} {css dss : List (List Char)} (hcss : css ≠ [])
    (hdss : dss ≠ []) :
    sep.intercalate (css ++ dss) = sep.intercalate css ++ (sep ++ sep.intercalate dss) := by
  induction css with
  | nil => exact absurd rfl hcss
  | cons cs css ih =>
    cases css with
    | nil => rw [List.singleton_append, List.intercalate_cons_of_ne_nil hdss,
        List.intercalate_singleton, List.append_assoc]
    | cons cs' css =>
      rw [List.cons_append, List.cons_append, List.intercalate_cons_cons, ← List.cons_append,
        ih (List.cons_ne_nil _ _), List.intercalate_cons_cons, List.append_assoc _ _ (sep ++ _)]

/-! ## Pieces -/

/-- A lexeme adds pieces and leads to another place, whatever follows it. -/
theorem exists_ofLexemesFrom_cons (place : Piece.Place) (ℓ : Lexeme) : ∃ ps place', ∀ ℓs,
    Piece.ofLexemesFrom place (ℓ :: ℓs) = ps ++ Piece.ofLexemesFrom place' ℓs := by
  cases place with
  | command body =>
    by_cases hkind : ℓ.kind = .semicolon
    · refine ⟨(Piece.Place.command body).flush ++ [Piece.loose ℓ.text], .between [] true,
        fun ℓs => ?_⟩
      rw [Piece.ofLexemesFrom, if_pos hkind, List.append_assoc]
      rfl
    · exact ⟨[], .command (ℓ :: body), fun ℓs => by rw [Piece.ofLexemesFrom, if_neg hkind]; rfl⟩
  | between gap fresh =>
    simp only [Piece.ofLexemesFrom]
    cases hkind : ℓ.kind with
    | blank | lineBreak | comment => exact ⟨[], _, fun _ => rfl⟩
    | quoted | plain | parameter | semicolon | opening | command =>
      exact ⟨Piece.ofGap gap ++ [_], _, fun _ => (List.append_cons ..)⟩

theorem ofLexemesFrom_semicolon (place : Piece.Place) (ℓs : List Lexeme) :
    Piece.ofLexemesFrom place (semicolon :: ℓs) =
      place.flush ++ .loose [';'] :: Piece.ofLexemes ℓs := by
  cases place with
  | command body => rfl
  | between gap fresh => rfl

/-- Behind a semicolon the cutting starts again. -/
theorem exists_ofLexemesFrom_append (place : Piece.Place) (ℓs : List Lexeme) : ∃ ps, ∀ ms,
    Piece.ofLexemesFrom place (ℓs ++ semicolon :: ms) =
      ps ++ .loose [';'] :: Piece.ofLexemes ms := by
  induction ℓs generalizing place with
  | nil => exact ⟨place.flush, ofLexemesFrom_semicolon place⟩
  | cons ℓ ℓs ih =>
    obtain ⟨front, place', hfront⟩ := exists_ofLexemesFrom_cons place ℓ
    obtain ⟨ps, hps⟩ := ih place'
    refine ⟨front ++ ps, fun ms => ?_⟩
    rw [List.cons_append, hfront, hps, List.append_assoc]

theorem ofPieces_ofGap_blanks {bs : List Char} (h : bs.all isBlank = true) :
    Glyph.ofPieces (Piece.ofGap bs) = bs.map char := by
  induction bs with
  | nil => rfl
  | cons b bs ih =>
    rw [List.all_cons, Bool.and_eq_true] at h
    rw [ofGap_blank h.1, ofPieces_cons, ih h.2]
    rfl

/-- White space in front of a gap stays in front of the glyphs. -/
theorem ofPieces_ofLexemesFrom_blanks {bs : List Char} (hbs : bs.all isBlank = true)
    (gap : List Char) (fresh : Bool) (ℓs : List Lexeme) :
    Glyph.ofPieces (Piece.ofLexemesFrom (.between (bs ++ gap) fresh) ℓs) =
      bs.map char ++ Glyph.ofPieces (Piece.ofLexemesFrom (.between gap fresh) ℓs) := by
  have hgap (gap : List Char) : Glyph.ofPieces (Piece.ofGap (bs ++ gap)) =
      bs.map char ++ Glyph.ofPieces (Piece.ofGap gap) := by
    rw [isWhole_blanks hbs, ofPieces_append, ofPieces_ofGap_blanks hbs]
  induction ℓs generalizing gap with
  | nil => exact hgap gap
  | cons ℓ ℓs ih =>
    simp only [Piece.ofLexemesFrom]
    cases hkind : ℓ.kind with
    | blank | lineBreak | comment =>
      rw [← ih]
      simp
    | quoted | plain | parameter | semicolon | opening | command =>
      simp only [ofPieces_append, hgap, List.append_assoc]

/-! ## Joined scripts -/

/-- A blank line, as the tokens of its line feeds. -/
def blankLine : List Lexeme := [⟨.lineBreak, ['\n']⟩, ⟨.lineBreak, ['\n']⟩]

/-- The tokens of a script with another one behind it. -/
theorem scan_join {cs ds : List Char} {ℓs : List Lexeme}
    (h : scan cs = .ok (ℓs ++ [semicolon])) (hkeeps : KeepsDollars cs (';' :: '\n' :: '\n' :: ds)) :
    scan (cs ++ '\n' :: '\n' :: ds) =
      (scan ds).map (ℓs ++ semicolon :: blankLine ++ ·) := by
  rw [scan, scanFrom_append h hkeeps, scanFrom_lineFeed, scanFrom_lineFeed, scan]
  cases scanFrom false 0 ds with
  | error e => rfl
  | ok ms => simp [Except.map, blankLine]

/-- The glyphs of a script with another one behind it. -/
theorem exists_ofPieces_join (ℓs : List Lexeme) : ∃ gs,
    Glyph.ofPieces (Piece.ofLexemes (ℓs ++ [semicolon])) = gs ++ [char ';'] ∧
    ∀ ms, Glyph.ofPieces (Piece.ofLexemes (ℓs ++ semicolon :: blankLine ++ ms)) =
      gs ++ char ';' :: (['\n', '\n'].map char ++ Glyph.ofPieces (Piece.ofLexemes ms)) := by
  obtain ⟨ps, hps⟩ : ∃ ps, ∀ ms, Piece.ofLexemes (ℓs ++ semicolon :: ms) =
      ps ++ .loose [';'] :: Piece.ofLexemes ms := exists_ofLexemesFrom_append _ ℓs
  have hblank (ms : List Lexeme) : Glyph.ofPieces (Piece.ofLexemes (blankLine ++ ms)) =
      ['\n', '\n'].map char ++ Glyph.ofPieces (Piece.ofLexemes ms) :=
    @ofPieces_ofLexemesFrom_blanks ['\n', '\n'] (by decide) [] true ms
  refine ⟨Glyph.ofPieces ps, ?_, fun ms => ?_⟩
  · rw [hps, ofPieces_append]
    rfl
  · rw [List.append_assoc, List.cons_append, hps, ofPieces_append, ofPieces_cons, hblank]
    rfl

/-! ## Statements -/

theorem statements_append_semicolon (cs ds : List Char) :
    statements (cs ++ ';' :: ds) = statements (cs ++ [';']) ++ statements ds := by
  induction cs using statement_induction with
  | last cs h =>
    rw [statements_append h, statements_append h, List.cons_append]
    rfl
  | next cs es h ih =>
    rw [List.append_assoc, List.append_assoc, List.cons_append, List.cons_append,
      statements_append h, statements_append h, ih, List.cons_append]

/-- The statements of a script with another one behind it: the numbers of the second script go on
behind those of the first one. -/
theorem statements_join (ℓs ms : List Lexeme) :
    statements (mask (Piece.ofLexemes (ℓs ++ semicolon :: blankLine ++ ms))) =
      statements (mask (Piece.ofLexemes (ℓs ++ [semicolon]))) ++
        statements (maskGlyphs (segments (Piece.ofLexemes (ℓs ++ [semicolon]))).length
          (Glyph.ofPieces (Piece.ofLexemes ms))) := by
  obtain ⟨gs, hfirst, hjoin⟩ := exists_ofPieces_join ℓs
  have hcount : (segments (Piece.ofLexemes (ℓs ++ [semicolon]))).length =
      (segmentsOf gs).length := by
    rw [segments_eq_segmentsOf, hfirst, segmentsOf_append]
    exact congrArg List.length (List.append_nil _)
  have hmask : mask (Piece.ofLexemes (ℓs ++ [semicolon])) = maskGlyphs 0 gs ++ [';'] := by
    rw [mask, maskFrom_eq_maskGlyphs, hfirst, maskGlyphs_append]
    rfl
  have hmask' : mask (Piece.ofLexemes (ℓs ++ semicolon :: blankLine ++ ms)) =
      maskGlyphs 0 gs ++ ';' :: (['\n', '\n'] ++ maskGlyphs (segmentsOf gs).length
        (Glyph.ofPieces (Piece.ofLexemes ms))) := by
    rw [mask, maskFrom_eq_maskGlyphs, hjoin, maskGlyphs_append, Nat.zero_add, maskGlyphs,
      maskGlyphs_chars_append]
  have hblank (cs : List Char) : statements (['\n', '\n'] ++ cs) = statements cs :=
    statements_blank_append (by decide) cs
  rw [hcount, hmask, hmask', statements_append_semicolon, hblank]

theorem segments_join (ℓs ms : List Lexeme) :
    segments (Piece.ofLexemes (ℓs ++ semicolon :: blankLine ++ ms)) =
      segments (Piece.ofLexemes (ℓs ++ [semicolon])) ++ segments (Piece.ofLexemes ms) := by
  obtain ⟨gs, hfirst, hjoin⟩ := exists_ofPieces_join ℓs
  rw [segments_eq_segmentsOf, segments_eq_segmentsOf, segments_eq_segmentsOf, hfirst, hjoin,
    segmentsOf_append, segmentsOf_append, List.append_assoc]
  rfl

/-- A script with something in it has a statement. -/
theorem statements_ne_nil {cs : List Char} (h : cs.all isBlank = false) : statements cs ≠ [] := by
  induction cs using statement_induction with
  | last cs hlast =>
    obtain ⟨-, hblank⟩ | ⟨c, ds, hcanonical, -⟩ := canonical_cases cs
    · rw [hblank] at h
      cases h
    · rw [statements_of_notMem hlast, hcanonical]
      exact List.cons_ne_nil _ _
  | next cs ds hfirst _ =>
    rw [statements_append hfirst]
    exact List.cons_ne_nil _ _

theorem statements_semicolon_ne_nil (number : Nat) (ℓs : List Lexeme) :
    statements (maskGlyphs number
      (Glyph.ofPieces (Piece.ofLexemes (ℓs ++ [semicolon])))) ≠ [] := by
  obtain ⟨gs, hgs, -⟩ := exists_ofPieces_join ℓs
  rw [hgs, maskGlyphs_append]
  refine statements_ne_nil ?_
  rw [List.all_append]
  exact Bool.and_false _

/-! ## Layouts -/

/-- Text without marks is not changed by unmasking. -/
theorem unmask_append_of_unmarked {cs : List Char} (hcs : ∀ c ∈ cs, isMark c = false)
    (kept : List (List Char)) (ds : List Char) :
    unmask kept (cs ++ ds) = (unmask kept ds).map (cs ++ ·) := by
  induction cs with
  | nil =>
    rw [List.nil_append]
    cases unmask kept ds <;> rfl
  | cons c cs ih =>
    obtain ⟨hc, htail⟩ := List.forall_mem_cons.1 hcs
    rw [List.cons_append, unmask_cons_of_eq_none _ (maskDigits?_of_not_isMark hc _), ih htail]
    cases unmask kept ds <;> rfl

/-- The statements of a masked script are arranged in the same way when other segments stand
before and behind its own, and its segments are put back. -/
theorem exists_arranged_of_ofPieces {ps : List Piece} {text : List Char}
    {front back : List (List Char)} (hproper : ∀ g ∈ Glyph.ofPieces ps, g.IsProper)
    (hcount : (front ++ segments ps ++ back).length ≤ 10 ^ Number.maxDigits)
    (h : Layout.ofPieces ps = .ok text) :
    ∃ arranged, (statements (maskGlyphs front.length (Glyph.ofPieces ps))).mapM
        (arrange (front ++ segments ps ++ back)) = .ok arranged ∧
      ∀ es, unmask (front ++ segments ps ++ back) (['\n', '\n'].intercalate arranged ++ es) =
        (unmask (front ++ segments ps ++ back) es).map (text ++ ·) := by
  obtain ⟨arranged, harranged, htext⟩ := ofPieces_eq_ok_iff.1 h
  have hkept := Renumbered.holds_append hcount
  have hmask := Renumbered.maskGlyphs hproper 0 front.length
  rw [Nat.zero_add, ← maskFrom_eq_maskGlyphs, ← mask] at hmask
  have hstatements := hmask.statements ⟨0, _, hproper, maskFrom_eq_maskGlyphs 0 ps⟩
    ⟨front.length, _, hproper, rfl⟩
  obtain ⟨arranged', harranged', hrenumbered⟩ := Renumbered.arrangeAll hkept hstatements harranged
  have hjoined : Renumbered front.length (['\n', '\n'].intercalate arranged)
      (['\n', '\n'].intercalate arranged') :=
    Renumbered.intercalate (isMark_eq_false_of_all (by decide)) hrenumbered
  exact ⟨arranged', harranged', hjoined.unmask_append hkept htext⟩

/-- The layout of a script with another one behind it. -/
theorem ofPieces_join {ℓs ms : List Lexeme} {a b : List Char}
    (hfirst : ∀ g ∈ Glyph.ofPieces (Piece.ofLexemes (ℓs ++ [semicolon])), g.IsProper)
    (hsecond : ∀ g ∈ Glyph.ofPieces (Piece.ofLexemes (ms ++ [semicolon])), g.IsProper)
    (hcount : (segments (Piece.ofLexemes
      (ℓs ++ semicolon :: blankLine ++ (ms ++ [semicolon])))).length ≤ 10 ^ Number.maxDigits)
    (ha : Layout.ofPieces (Piece.ofLexemes (ℓs ++ [semicolon])) = .ok a)
    (hb : Layout.ofPieces (Piece.ofLexemes (ms ++ [semicolon])) = .ok b) :
    Layout.ofPieces (Piece.ofLexemes (ℓs ++ semicolon :: blankLine ++ (ms ++ [semicolon]))) =
      .ok (a ++ '\n' :: '\n' :: b) := by
  have hsegments := segments_join ℓs (ms ++ [semicolon])
  rw [hsegments] at hcount
  obtain ⟨as, has, hfront⟩ := @exists_arranged_of_ofPieces _ _ []
    (segments (Piece.ofLexemes (ms ++ [semicolon]))) hfirst hcount ha
  obtain ⟨bs, hbs, hback⟩ := @exists_arranged_of_ofPieces _ _
    (segments (Piece.ofLexemes (ℓs ++ [semicolon]))) [] hsecond (by rwa [List.append_nil]) hb
  rw [List.nil_append, ← hsegments] at has hfront
  rw [List.append_nil, ← hsegments] at hbs hback
  refine ofPieces_eq_ok_iff.2 ⟨as ++ bs, ?_, ?_⟩
  · rw [statements_join, List.mapM_append, mask, maskFrom_eq_maskGlyphs]
    exact bind_eq_ok_iff.2 ⟨as, has, bind_eq_ok_iff.2 ⟨bs, hbs, rfl⟩⟩
  · have hne := ne_nil_of_mapM_eq_ok has (statements_semicolon_ne_nil _ ℓs)
    have hne' := ne_nil_of_mapM_eq_ok hbs (statements_semicolon_ne_nil _ ms)
    have hend := hback []
    rw [List.append_nil] at hend
    rw [intercalate_append hne hne', hfront,
      unmask_append_of_unmarked (isMark_eq_false_of_all (by decide)), hend]
    simp [Except.map]

/-! ## Texts -/

/-- Holds for scripts without marks that end with the token of a semicolon. -/
structure IsTerminated (s : String) : Prop where
  unmarked : ∀ c ∈ s.toList, isMark c = false
  ends : ∃ ℓs, scan s.toList = .ok (ℓs ++ [semicolon])

/-- The number of the segments of a script. -/
def segmentCount (s : String) : Nat :=
  match scan s.toList with
  | .ok ℓs => (segments (Piece.ofLexemes ℓs)).length
  | .error _ => 0

variable {s t : String}

theorem segmentCount_of_scan_eq_ok {ℓs : List Lexeme} (h : scan s.toList = .ok ℓs) :
    segmentCount s = (segments (Piece.ofLexemes ℓs)).length := by
  rw [segmentCount, h]

/-- A script has no more segments than characters. -/
theorem segmentCount_le_length (s : String) : segmentCount s ≤ s.length := by
  cases hscan : scan s.toList with
  | error why =>
    rw [segmentCount, hscan]
    exact Nat.zero_le _
  | ok ℓs =>
    have hlength := length_segments_ofLexemes_le (startsAsKind_of_mem_scanFrom hscan)
    rwa [flatMap_text_of_scanFrom hscan, String.length_toList,
      ← segmentCount_of_scan_eq_ok hscan] at hlength

theorem toList_append_blankLine (s t : String) :
    (s ++ "\n\n" ++ t).toList = s.toList ++ '\n' :: '\n' :: t.toList := by
  rw [String.toList_append, String.toList_append, List.append_assoc]
  rfl

/-- No dollar sign of a script reaches into a terminated one behind it. -/
theorem IsTerminated.keepsDollars (ht : IsTerminated t) (cs : List Char) :
    KeepsDollars cs (';' :: '\n' :: '\n' :: t.toList) := by
  obtain ⟨ms, hms⟩ := ht.ends
  obtain ⟨u, hu, -⟩ := exists_append_of_scanFrom_semicolon hms
  rw [hu]
  exact fun _ => partsDollars_append (w := [';']) (by decide) (by decide) ('\n' :: u) (by decide)

/-- The tokens of a terminated script with another one behind it. -/
theorem IsTerminated.scan_append (ht : IsTerminated t) {ℓs ms : List Lexeme}
    (hs : scan s.toList = .ok (ℓs ++ [semicolon])) (hms : scan t.toList = .ok ms) :
    scan (s ++ "\n\n" ++ t).toList = .ok (ℓs ++ semicolon :: blankLine ++ ms) := by
  rw [toList_append_blankLine, scan_join hs (ht.keepsDollars _), hms]
  rfl

/-- Terminated scripts with a blank line between them are a terminated script. -/
theorem IsTerminated.append (hs : IsTerminated s) (ht : IsTerminated t) :
    IsTerminated (s ++ "\n\n" ++ t) := by
  obtain ⟨ℓs, hℓs⟩ := hs.ends
  obtain ⟨ms, hms⟩ := ht.ends
  refine ⟨?_, ℓs ++ semicolon :: blankLine ++ ms, ?_⟩
  · rw [toList_append_blankLine]
    intro c hc
    rcases List.mem_append.1 hc with hc | hc
    · exact hs.unmarked c hc
    · simp only [List.mem_cons] at hc
      rcases hc with rfl | rfl | hc
      · decide
      · decide
      · exact ht.unmarked c hc
  · rw [ht.scan_append hℓs hms, ← List.append_assoc]

theorem segmentCount_append (hs : IsTerminated s) (ht : IsTerminated t) :
    segmentCount (s ++ "\n\n" ++ t) = segmentCount s + segmentCount t := by
  obtain ⟨ℓs, hℓs⟩ := hs.ends
  obtain ⟨ms, hms⟩ := ht.ends
  rw [segmentCount_of_scan_eq_ok hℓs, segmentCount_of_scan_eq_ok hms,
    segmentCount_of_scan_eq_ok (ht.scan_append hℓs hms), segments_join, List.length_append]

theorem IsTerminated.exists_format_eq_ok_iff (hs : IsTerminated s) :
    (∃ out, format s = .ok out) ↔ segmentCount s ≤ 10 ^ Number.maxDigits := by
  obtain ⟨ℓs, hℓs⟩ := hs.ends
  rw [Layout.exists_format_eq_ok_iff hℓs,
    restorable_iff_of_isProper (isProper_ofLexemes hs.unmarked hℓs),
    segmentCount_of_scan_eq_ok hℓs]

/-- The layout of two terminated scripts with a blank line between them. -/
theorem format_append (hs : IsTerminated s) (ht : IsTerminated t)
    (hcount : segmentCount s + segmentCount t ≤ 10 ^ Number.maxDigits) {a b : String}
    (ha : format s = .ok a) (hb : format t = .ok b) :
    format (s ++ "\n\n" ++ t) = .ok (a ++ "\n\n" ++ b) := by
  obtain ⟨ℓs, hℓs⟩ := hs.ends
  obtain ⟨ms, hms⟩ := ht.ends
  have hscan := ht.scan_append hℓs hms
  rw [← segmentCount_append hs ht, segmentCount_of_scan_eq_ok hscan] at hcount
  rw [format_of_scan_eq_ok hℓs] at ha
  rw [format_of_scan_eq_ok hms] at hb
  obtain ⟨as, has, rfl⟩ := map_eq_ok_iff.1 ha
  obtain ⟨bs, hbs, rfl⟩ := map_eq_ok_iff.1 hb
  rw [format_of_scan_eq_ok hscan, ofPieces_join (isProper_ofLexemes hs.unmarked hℓs)
    (isProper_ofLexemes ht.unmarked hms) hcount has hbs]
  refine congrArg Except.ok (String.toList_inj.1 ?_)
  simp

/-! ## Lists of texts -/

variable {texts : List String}

theorem isTerminated_intercalate (hne : texts ≠ []) (h : ∀ s ∈ texts, IsTerminated s) :
    IsTerminated ("\n\n".intercalate texts) := by
  induction texts with
  | nil => exact absurd rfl hne
  | cons s texts ih =>
    obtain ⟨hs, htail⟩ := List.forall_mem_cons.1 h
    by_cases hnil : texts = []
    · rw [hnil, String.intercalate_singleton]
      exact hs
    · rw [String.intercalate_cons_of_ne_nil hnil]
      exact hs.append (ih hnil htail)

theorem segmentCount_intercalate (h : ∀ s ∈ texts, IsTerminated s) :
    segmentCount ("\n\n".intercalate texts) = (texts.map segmentCount).sum := by
  induction texts with
  | nil => rfl
  | cons s texts ih =>
    obtain ⟨hs, htail⟩ := List.forall_mem_cons.1 h
    by_cases hnil : texts = []
    · rw [hnil, String.intercalate_singleton]
      rfl
    · rw [String.intercalate_cons_of_ne_nil hnil,
        segmentCount_append hs (isTerminated_intercalate hnil htail), ih htail]
      rfl

/-- Scripts with few enough segments are laid out one by one. -/
theorem exists_format_intercalate (h : ∀ s ∈ texts, IsTerminated s)
    (hcount : (texts.map segmentCount).sum ≤ 10 ^ Number.maxDigits) :
    ∃ outs, texts.mapM format = .ok outs ∧
      format ("\n\n".intercalate texts) = .ok ("\n\n".intercalate outs) := by
  induction texts with
  | nil => exact ⟨[], rfl, rfl⟩
  | cons s texts ih =>
    obtain ⟨hs, htail⟩ := List.forall_mem_cons.1 h
    rw [List.map_cons, List.sum_cons] at hcount
    obtain ⟨a, ha⟩ := hs.exists_format_eq_ok_iff.2 (Nat.le_trans (Nat.le_add_right _ _) hcount)
    obtain ⟨outs, houts, hjoin⟩ := ih htail (Nat.le_trans (Nat.le_add_left _ _) hcount)
    refine ⟨a :: outs, mapM_cons_eq_ok_iff.2 ⟨a, outs, ha, houts, rfl⟩, ?_⟩
    by_cases hnil : texts = []
    · subst hnil
      obtain rfl : [] = outs := Except.ok.inj houts
      rw [String.intercalate_singleton, String.intercalate_singleton, ha]
    · rw [String.intercalate_cons_of_ne_nil hnil,
        String.intercalate_cons_of_ne_nil (ne_nil_of_mapM_eq_ok houts hnil)]
      refine format_append hs (isTerminated_intercalate hnil htail) ?_ ha hjoin
      rwa [segmentCount_intercalate htail]

/-- The layout of terminated scripts joined by blank lines is the join of their layouts.  It exists
unless they have so many segments that their numbers get too long to be read. -/
theorem format_intercalate (h : ∀ s ∈ texts, IsTerminated s) :
    (∀ out, format ("\n\n".intercalate texts) = .ok out →
      ∃ outs, texts.mapM format = .ok outs ∧ out = "\n\n".intercalate outs) ∧
    ((∃ out, format ("\n\n".intercalate texts) = .ok out) ↔
      (texts.map segmentCount).sum ≤ 10 ^ Number.maxDigits) := by
  have hreturns : (∃ out, format ("\n\n".intercalate texts) = .ok out) ↔
      (texts.map segmentCount).sum ≤ 10 ^ Number.maxDigits := by
    rw [← segmentCount_intercalate h]
    by_cases hnil : texts = []
    · subst hnil
      exact iff_of_true ⟨"", rfl⟩ (Nat.zero_le _)
    · exact (isTerminated_intercalate hnil h).exists_format_eq_ok_iff
  refine ⟨fun out hout => ?_, hreturns⟩
  obtain ⟨outs, houts, hjoin⟩ := exists_format_intercalate h (hreturns.1 ⟨out, hout⟩)
  rw [hjoin] at hout
  exact ⟨outs, houts, (Except.ok.inj hout).symm⟩

theorem exists_of_getLast? {cs : List Char} {ms : List Lexeme} (h : scan cs = .ok ms)
    (hlast : ms.getLast? = some semicolon) : ∃ ℓs, scan cs = .ok (ℓs ++ [semicolon]) := by
  obtain ⟨ℓs, rfl⟩ := List.getLast?_eq_some_iff.1 hlast
  exact ⟨ℓs, h⟩

/-- A literal with a comment behind it, and a command with a comment before it. -/
theorem format_intercalate_literal_and_command :
    ∃ outs, ["f  'a  b' --c\n;", "--d\nDO  $$;$$;"].mapM format = .ok outs ∧
      "f 'a  b' --c\n;\n\n--d\nDO $$;$$;" = "\n\n".intercalate outs := by
  have hterminated : ∀ s ∈ ["f  'a  b' --c\n;", "--d\nDO  $$;$$;"], IsTerminated s := by
    simp only [List.forall_mem_cons]
    exact ⟨⟨isMark_eq_false_of_all (by decide), exists_of_getLast? rfl rfl⟩,
      ⟨isMark_eq_false_of_all (by decide), exists_of_getLast? rfl rfl⟩,
      fun _ hs => absurd hs List.not_mem_nil⟩
  exact (format_intercalate hterminated).1 _ rfl

end PgSchema.Layout
