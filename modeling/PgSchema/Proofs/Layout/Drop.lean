/-
# A statement in front of a script

A statement without quoted text and comments that is laid out as it stands may be put in front of
any script: it changes nothing in the layout of the script, and nothing in whether the script can
be read.  Such is the statement that drops a table with a plain name.

* `format_append_of_standsAlone` : the layout of a script behind such a statement;
* `standsAlone_dropText` : the statement that drops a table.
-/
import PgSchema.Proofs.Layout.Join
import PgSchema.Proofs.Sql.Word

namespace PgSchema.Layout

open Sql Text Glyph Lexeme

/-! ## Statements that stand alone -/

/-- Holds for a statement that is laid out as it stands and leaves the script behind it alone. -/
structure StandsAlone (cs : List Char) : Prop where
  scanned : ∃ ℓs, scan cs = .ok (ℓs ++ [semicolon]) ∧
    Glyph.ofPieces (Piece.ofLexemes (ℓs ++ [semicolon])) = cs.map char
  noDollar : '$' ∉ cs
  unmarked : ∀ c ∈ cs, isMark c = false
  settled : statements cs = [cs]
  arranged : ∀ kept, arrange kept cs = .ok cs

theorem wrapFrom_nil (depth : Int) (cs : List Char) : wrapFrom depth [] cs = cs := by
  induction cs generalizing depth with
  | nil => rfl
  | cons c cs ih => simp [wrapFrom, ih]

theorem isBlank_text_of_mask {ps : List Piece} {number : Nat}
    (h : (maskFrom number ps).all isBlank = true) :
    (ps.flatMap Piece.text).all isBlank = true := by
  induction ps generalizing number with
  | nil => rfl
  | cons p ps ih =>
    cases p with
    | loose text =>
      rw [maskFrom, List.all_append, Bool.and_eq_true] at h
      rw [List.flatMap_cons, List.all_append, Piece.text, h.1, ih h.2, Bool.and_self]
    | quoted text | lineComment text | blockComment text =>
      rw [maskFrom, maskOf_append, List.all_cons, Bool.and_eq_true] at h
      cases h.1

/-- The layout of a script behind a statement that stands alone. -/
theorem ofPieces_append_of_standsAlone {cs : List Char} (hcs : StandsAlone cs) {ℓs ms : List Lexeme}
    (hglyphs : Glyph.ofPieces (Piece.ofLexemes (ℓs ++ [semicolon])) = cs.map char)
    (hms : (ms.flatMap (·.text)).all isBlank = false) :
    Layout.ofPieces (Piece.ofLexemes (ℓs ++ semicolon :: blankLine ++ ms)) =
      (Layout.ofPieces (Piece.ofLexemes ms)).map (cs ++ '\n' :: '\n' :: ·) := by
  -- the statement has no segments, so those of the script keep their numbers
  have hnone : segments (Piece.ofLexemes (ℓs ++ [semicolon])) = [] := by
    rw [segments_eq_segmentsOf, hglyphs, segmentsOf_chars]
  have hmask : mask (Piece.ofLexemes (ℓs ++ [semicolon])) = cs := by
    rw [mask, maskFrom_eq_maskGlyphs, hglyphs, maskGlyphs_chars]
  have hstatements : statements (mask (Piece.ofLexemes (ℓs ++ semicolon :: blankLine ++ ms))) =
      cs :: statements (mask (Piece.ofLexemes ms)) := by
    rw [statements_join, hmask, hcs.settled, hnone, mask, maskFrom_eq_maskGlyphs]
    rfl
  have hne : statements (mask (Piece.ofLexemes ms)) ≠ [] := by
    refine statements_ne_nil (Bool.eq_false_iff.2 fun hblank => ?_)
    have htext := isBlank_text_of_mask hblank
    rw [flatMap_text_ofLexemes, hms] at htext
    cases htext
  rw [Layout.ofPieces, Layout.ofPieces, segments_join, hnone, List.nil_append, hstatements,
    List.mapM_cons, hcs.arranged]
  cases harranged : (statements (mask (Piece.ofLexemes ms))).mapM
      (arrange (segments (Piece.ofLexemes ms))) with
  | error e => rfl
  | ok arranged =>
    have hjoin : ['\n', '\n'].intercalate (cs :: arranged) =
        (cs ++ ['\n', '\n']) ++ ['\n', '\n'].intercalate arranged := by
      rw [List.intercalate_cons_of_ne_nil (ne_nil_of_mapM_eq_ok harranged hne)]
    have hunmarked : ∀ c ∈ cs ++ ['\n', '\n'], isMark c = false := by
      intro c hc
      rcases List.mem_append.1 hc with hc | hc
      · exact hcs.unmarked c hc
      · rcases List.mem_cons.1 hc with rfl | hc
        · decide
        · obtain rfl := List.mem_singleton.1 hc
          decide
    simp only [bind, Except.bind, pure, Except.pure]
    rw [hjoin, unmask_append_of_unmarked hunmarked]
    simp

/-- The layout of a script behind a statement that stands alone; a script that cannot be read
cannot be read behind it either. -/
theorem format_append_of_standsAlone {s t : String} (hs : StandsAlone s.toList)
    (ht : t.toList.all isBlank = false) :
    format (s ++ "\n\n" ++ t) = (format t).map (s ++ "\n\n" ++ ·) := by
  obtain ⟨ℓs, hscan, hglyphs⟩ := hs.scanned
  have hkeeps : KeepsDollars s.toList (';' :: '\n' :: '\n' :: t.toList) := fun hmem =>
    absurd hmem hs.noDollar
  have hjoin := scan_join hscan hkeeps
  rw [← toList_append_blankLine] at hjoin
  cases hms : scan t.toList with
  | error why =>
    rw [hms] at hjoin
    rw [format_of_scan_eq_error hjoin, format_of_scan_eq_error hms]
    rfl
  | ok ms =>
    rw [hms] at hjoin
    rw [← flatMap_text_of_scanFrom hms] at ht
    rw [format_of_scan_eq_ok hjoin, format_of_scan_eq_ok hms,
      ofPieces_append_of_standsAlone hs hglyphs ht]
    cases Layout.ofPieces (Piece.ofLexemes ms) with
    | error e => rfl
    | ok cs =>
      refine congrArg Except.ok (String.toList_inj.1 ?_)
      simp

/-! ## Dropping a table -/

/-- The words in front of the name. -/
def dropWords : List (List Char) :=
  [['D', 'R', 'O', 'P'], ['T', 'A', 'B', 'L', 'E'], ['I', 'F'], ['E', 'X', 'I', 'S', 'T', 'S']]

/-- The word behind the name. -/
def cascade : List Char := ['C', 'A', 'S', 'C', 'A', 'D', 'E']

/-- The statement that drops a table, without its semicolon. -/
def dropBody (name : List Char) : List Char :=
  dropWords.flatMap (· ++ [' ']) ++ (name ++ ' ' :: cascade)

/-- The statement that drops a table. -/
def dropText (name : List Char) : List Char := dropBody name ++ [';']

/-- The tokens in front of the semicolon. -/
def dropLexemes (name : List Char) : List Lexeme :=
  wordLexemes dropWords ++ wordLexemes [name] ++ [⟨.plain, cascade⟩]

variable {name : List Char}

theorem scan_dropText (h : isAsciiWord name = true) :
    scan (dropText name) = .ok (dropLexemes name ++ [semicolon]) := by
  obtain ⟨c, cs, rfl, hdigit, hchars⟩ := of_isAsciiWord h
  have hwords : ∀ w ∈ dropWords,
      isAsciiWord w = true ∧ differsFrom firstWords (w ++ [' ']) = true := by
    decide
  have hend : scanFrom false 0 (' ' :: (cascade ++ [';'])) =
      .ok [⟨.blank, [' ']⟩, ⟨.plain, cascade⟩, semicolon] := by decide
  have hphrase : phrase? (c :: (cs ++ ' ' :: (cascade ++ [';']))) = none :=
    @phrase?_name_eq_none (c :: cs) hchars 'C' (by decide) (by decide) _
  have hhead : ∀ e, (c :: (cs ++ ' ' :: (cascade ++ [';']))).head? = some e →
      isBlank e = false := by
    intro e he
    obtain rfl := Option.some.inj he
    exact isBlank_of_isNameChar (hchars _ List.mem_cons_self)
  have hscan := scanFrom_words hwords hhead (scanFrom_name hdigit hchars (.inl rfl) hphrase hend)
  simpa [scan, dropText, dropBody, dropLexemes, wordLexemes] using hscan

theorem ofPieces_space (fresh : Bool) (ℓs : List Lexeme) :
    Glyph.ofPieces (Piece.ofLexemesFrom (.between [] fresh) (⟨.blank, [' ']⟩ :: ℓs)) =
      char ' ' :: Glyph.ofPieces (Piece.ofLexemesFrom (.between [] fresh) ℓs) :=
  @ofPieces_ofLexemesFrom_blanks [' '] (by decide) [] fresh ℓs

theorem ofPieces_plain (fresh : Bool) (w : List Char) (ℓs : List Lexeme) :
    Glyph.ofPieces (Piece.ofLexemesFrom (.between [] fresh) (⟨.plain, w⟩ :: ℓs)) =
      w.map char ++ Glyph.ofPieces (Piece.ofLexemesFrom (.between [] false) ℓs) := by
  rfl

/-- A word that is not the first one of a statement is loose text, whatever its kind. -/
theorem ofPieces_word (w : List Char) : ∃ fresh, ∀ ℓs,
    Glyph.ofPieces (Piece.ofLexemesFrom (.between [] false) (⟨wordKind false w, w⟩ :: ℓs)) =
      w.map char ++ Glyph.ofPieces (Piece.ofLexemesFrom (.between [] fresh) ℓs) := by
  rcases wordKind_cases w with hkind | hkind | hkind
  · exact ⟨false, fun ℓs => by rw [hkind]; rfl⟩
  · exact ⟨true, fun ℓs => by rw [hkind]; rfl⟩
  · exact ⟨false, fun ℓs => by rw [hkind]; rfl⟩

/-- The statement has no segments, not even behind a name that is the word of a command. -/
theorem ofPieces_dropText (name : List Char) :
    Glyph.ofPieces (Piece.ofLexemes (dropLexemes name ++ [semicolon])) =
      (dropText name).map char := by
  have hplain : ∀ w ∈ dropWords, wordKind false w = .plain := by decide
  simp only [dropWords, List.forall_mem_cons] at hplain
  obtain ⟨hdrop, htable, hif, hexists, -⟩ := hplain
  obtain ⟨fresh, hname⟩ := ofPieces_word name
  simp only [Piece.ofLexemes, dropLexemes, dropText, dropBody, wordLexemes, dropWords,
    List.flatMap_cons, List.flatMap_nil, List.append_nil, List.append_assoc, List.cons_append,
    List.nil_append, List.map_append, List.map_cons, List.map_nil, hdrop, htable, hif, hexists,
    ofPieces_space, ofPieces_plain, hname]
  rfl

theorem of_mem_dropBody (h : isAsciiWord name = true) {c : Char} (hc : c ∈ dropBody name) :
    isNameChar c = true ∨ c = ' ' := by
  obtain ⟨d, ds, rfl, -, hchars⟩ := of_isAsciiWord h
  rw [dropBody, List.mem_append, List.mem_append] at hc
  have hfixed {cs : List Char} (hcs : (cs.all fun c => isNameChar c || c == ' ') = true)
      (hc : c ∈ cs) : isNameChar c = true ∨ c = ' ' := by
    simpa using List.all_eq_true.1 hcs c hc
  rcases hc with hc | hc | hc
  · exact hfixed (by decide) hc
  · exact .inl (hchars c hc)
  · exact hfixed (by decide) hc

/-- What holds of the characters of names, of the space and of the semicolon holds of all. -/
theorem forall_mem_dropText (h : isAsciiWord name = true) {p : Char → Bool}
    (hp : (List.range 128).all (fun n => !isNameChar (Char.ofNat n) || p (Char.ofNat n)) = true)
    (hspace : p ' ' = true) (hsemicolon : p ';' = true) : ∀ c ∈ dropText name, p c = true := by
  intro c hc
  rcases List.mem_append.1 hc with hc | hc
  · rcases of_mem_dropBody h hc with hname | rfl
    · exact of_isNameChar hp hname
    · exact hspace
  · rw [List.mem_singleton.1 hc]
    exact hsemicolon

/-! ## The layout of the statement -/

/-- Text behind a character of a name that keeps its white space. -/
theorem settledFrom_name {w rest : List Char} (hw : ∀ c ∈ w, isNameChar c = true)
    (hrest : ∀ d, isNameChar d = true → SettledFrom d rest) :
    ∀ d, isNameChar d = true → SettledFrom d (w ++ rest) := by
  induction w with
  | nil => exact hrest
  | cons c w ih =>
    obtain ⟨hc, htail⟩ := List.forall_mem_cons.1 hw
    exact fun d _ => (settledFrom_cons (isBlank_of_isNameChar hc)).2 (ih htail c hc)

/-- Words with single spaces in front of them are settled behind a character of a name. -/
theorem settledFrom_words {ws : List (List Char)} (hws : ∀ w ∈ ws, isAsciiWord w = true)
    {rest : List Char} (hrest : ∀ d, isNameChar d = true → SettledFrom d rest) :
    ∀ d, isNameChar d = true → SettledFrom d (ws.flatMap (' ' :: ·) ++ rest) := by
  induction ws with
  | nil => exact hrest
  | cons w ws ih =>
    intro d hd
    obtain ⟨hw, htail⟩ := List.forall_mem_cons.1 hws
    obtain ⟨c, cs, rfl, -, hchars⟩ := of_isAsciiWord hw
    have hc := hchars c List.mem_cons_self
    have hblank := isBlank_of_isNameChar hc
    have hkeeps : keeps d c = true := by
      have hleft := @of_isNameChar (fun d => d != '(' && d != lineMark) (by decide) d hd
      have hright := @of_isNameChar (fun c => c != ')' && c != ',' && c != ';')
        (by decide) c hc
      simp only [Bool.and_eq_true] at hleft hright
      simp only [keeps, hleft, hright, Bool.and_self]
    rw [List.flatMap_cons, List.append_assoc]
    exact (settledFrom_cons_blank (by decide)).2
      ⟨rfl, ⟨c, rfl, hblank, hkeeps⟩, settledFrom_name hchars (ih htail) d hd⟩

theorem settled_dropText (h : isAsciiWord name = true) : Settled (dropText name) := by
  have hwords : ∀ w ∈ [['T', 'A', 'B', 'L', 'E'], ['I', 'F'], ['E', 'X', 'I', 'S', 'T', 'S'], name,
      cascade], isAsciiWord w = true := by
    simp only [List.forall_mem_cons, h]
    decide
  have hend (d : Char) (hd : isNameChar d = true) : SettledFrom d [';'] :=
    (settledFrom_cons (by decide)).2 trivial
  have hdrop := settledFrom_name (w := ['R', 'O', 'P']) (List.all_eq_true.1 (by decide))
    (settledFrom_words hwords hend) 'D' (by decide)
  refine ⟨by decide, ?_⟩
  simpa [dropText, dropBody, dropWords] using hdrop

theorem wellMasked_of_unmarked {cs : List Char} (h : ∀ c ∈ cs, isMark c = false) :
    WellMasked cs := by
  refine ⟨0, cs.map char, fun g hg => ?_, (maskGlyphs_chars 0 cs).symm⟩
  obtain ⟨c, hc, rfl⟩ := List.mem_map.1 hg
  exact h c hc

/-- A settled statement without marks and inner semicolons is the only one of its text. -/
theorem statements_of_settled {cs : List Char} (hfree : ';' ∉ cs)
    (hunmarked : ∀ c ∈ cs ++ [';'], isMark c = false) (h : Settled (cs ++ [';'])) :
    statements (cs ++ [';']) = [cs ++ [';']] := by
  rw [statements_append hfree, canonical_of_settled (wellMasked_of_unmarked hunmarked) h]
  rfl

/-- A statement without marks stays on its line if nothing asks for it to be broken. -/
theorem arrange_of_unmarked {c : Char} {cs : List Char} (h : ∀ d ∈ c :: cs, isMark d = false)
    (htable : "CREATE TABLE ".toList.isPrefixOf (c :: cs) = false)
    (hclauses : clausesOf (c :: cs) = []) (kept : List (List Char)) :
    arrange kept (c :: cs) = .ok (c :: cs) := by
  have hleading : leadingMask? (c :: cs) = none := by
    refine Renumbered.leadingMask?_of_no_comment (fun hc => ?_) cs
    have hmark := h c List.mem_cons_self
    rcases hc with rfl | rfl <;> cases hmark
  have hunmask : unmask kept (c :: cs) = .ok (c :: cs) := by
    have happend := unmask_append_of_unmarked h kept []
    rw [List.append_nil] at happend
    rw [happend]
    exact congrArg Except.ok (List.append_nil _)
  refine arrange_eq_ok_iff.2 ⟨c :: cs, ?_, ?_⟩
  · rw [withoutLeading_of_eq_none hleading, arrangeBare, htable, hunmask, hclauses]
    simp only [Bool.false_eq_true, if_false, bind, Except.bind, List.map_nil, wrapFrom_nil,
      ite_self]
    rfl
  · rw [leadingOf_of_eq_none hleading]
    rfl

/-- The statement that drops a table with a plain name may stand in front of any script. -/
theorem standsAlone_dropText (h : isAsciiWord name = true) : StandsAlone (dropText name) := by
  have hunmarked : ∀ c ∈ dropText name, isMark c = false := by
    have hmark := forall_mem_dropText (p := (!isMark ·)) h (by decide) rfl rfl
    simpa using hmark
  have hfree : ';' ∉ dropBody name := fun hmem => by
    rcases of_mem_dropBody h hmem with hname | heq
    · exact absurd hname (by decide)
    · exact absurd heq (by decide)
  have hdollar : ∀ c ∈ dropText name, (c != '$') = true :=
    forall_mem_dropText h (by decide) rfl rfl
  exact {
    scanned := ⟨_, scan_dropText h, ofPieces_dropText name⟩
    noDollar := fun hmem => absurd (hdollar '$' hmem) (by decide)
    unmarked := hunmarked
    settled := statements_of_settled hfree hunmarked (settled_dropText h)
    arranged := arrange_of_unmarked hunmarked rfl rfl }

end PgSchema.Layout
