/-
# Table statements and the texts of their parts

A table statement is written from the text of a name, the texts of its elements and that of a
clause.  If each of these ends the quotes and comments that it starts, the tokens of the statement
are those of its parts, and each part comes out on the lines that it has alone.

* `oneLine`, `elementLines` : a text on one line, and the lines of an element;
* `elementLines_eq_singleton_iff` : which elements come out as a whole;
* `format_tableScript` : the layout of a table statement, given by the texts of its parts.
-/
import PgSchema.Proofs.Layout.TableLines

namespace PgSchema.Layout

open Sql Text Glyph Lexeme

/-! ## Table statements given by texts -/

/-- The text of a table statement: a name, elements on lines of their own, and a clause. -/
def tableScript (name : List Char) (elements : List (List Char)) (clause : Option (List Char)) :
    List Char :=
  tableText (createTable ++ name) elements (clause.elim [] (' ' :: ·) ++ [';'])

/-- The glyphs of elements on lines of their own, with a stop behind them. -/
theorem glyphsFrom_elements {s : List Char} {gs : List Glyph} (hs : IsStop s)
    (hdollars : PartsDollars s) (hgs : glyphsFrom false s = .ok gs) {elements : List (List Char)}
    (hne : elements ≠ []) (helements : ∀ e ∈ elements, IsPart e) :
    glyphsFrom false ([',', '\n'].intercalate (elements.map (indent ++ ·)) ++ s) =
      .ok ([char ',', char '\n'].intercalate
        ((elements.map partGlyphs).map (indent.map char ++ ·)) ++ gs) := by
  induction elements with
  | nil => exact absurd rfl hne
  | cons e elements ih =>
    obtain ⟨he, hrest⟩ := List.forall_mem_cons.1 helements
    cases elements with
    | nil =>
      have hone := glyphsFrom_blanks indent (by decide) (he.glyphs_append hs hdollars hgs)
      simpa only [List.map_cons, List.map_nil, List.intercalate_singleton, List.append_assoc]
        using hone
    | cons e' elements =>
      obtain ⟨front, d, rfl, hd⟩ := hdollars.ends
      have hlines := ih (by simp) hrest
      simp only [List.map_cons, List.intercalate_cons_cons, List.append_assoc] at hlines ⊢
      generalize [',', '\n'].intercalate ((indent ++ e') :: elements.map (indent ++ ·)) = rest
        at hlines ⊢
      -- the comma behind the first element stops it
      have hcomma := glyphsFrom_punctuation false ',' (by decide) (by decide)
        (glyphsFrom_blanks ['\n'] (by decide) hlines)
      have hdollars' : PartsDollars ([','] ++ '\n' :: ((rest ++ front) ++ [d])) :=
        partsDollars_append (by decide) (by decide) _ hd
      rw [List.append_assoc] at hdollars'
      exact glyphsFrom_blanks indent (by decide)
        (he.glyphs_append (isStop_punctuation (by decide) _) hdollars' hcomma)

/-- The glyphs of a clause behind the closing parenthesis, and of the semicolon. -/
theorem glyphsFrom_clause {clause : Option (List Char)} (hclause : ∀ c ∈ clause, IsPart c) :
    glyphsFrom false (clause.elim [] (' ' :: ·) ++ [';']) =
      .ok ((clause.map partGlyphs).elim [] (char ' ' :: ·) ++ [';'].map char) := by
  have hend : glyphsFrom false [';'] = .ok ([';'].map char) := rfl
  cases clause with
  | none => exact hend
  | some c =>
    exact glyphsFrom_blanks [' '] (by decide) ((hclause c rfl).glyphs_append
      (isStop_punctuation (by decide) _) (partsDollars_singleton (by decide)) hend)

/-- The glyphs of a table statement are those of its parts. -/
theorem glyphsFrom_tableScript {name : List Char} {elements : List (List Char)}
    {clause : Option (List Char)} (hname : IsPart name) (hne : elements ≠ [])
    (helements : ∀ e ∈ elements, IsPart e) (hclause : ∀ c ∈ clause, IsPart c) :
    glyphsFrom true (tableScript name elements clause) =
      .ok (tableGlyphs (partGlyphs name) (elements.map partGlyphs) (clause.map partGlyphs)) := by
  have hclose := glyphsFrom_blanks ['\n'] (by decide)
    (glyphsFrom_punctuation false ')' (by decide) (by decide)
      (glyphsFrom_clause hclause))
  have hcloseDollars : PartsDollars
      ([] ++ '\n' :: ((')' :: clause.elim [] (' ' :: ·)) ++ [';'])) :=
    partsDollars_append (by decide) (by decide) _ (by decide)
  have hbody := glyphsFrom_elements (isStop_lineFeed (by decide) _) hcloseDollars hclose hne
    helements
  have hopen := glyphsFrom_punctuation false '(' (by decide) (by decide)
    (glyphsFrom_blanks ['\n'] (by decide) hbody)
  have hopenDollars (body : List Char) : PartsDollars (['('] ++ '\n' :: ((body ++
      '\n' :: ')' :: clause.elim [] (' ' :: ·)) ++ [';'])) :=
    partsDollars_append (by decide) (by decide) _ (by decide)
  have hstatement := hname.glyphs_append (isStop_punctuation (by decide) _)
    (by simpa using hopenDollars _) hopen
  have htable := glyphsFrom_word false (by decide : isAsciiWord "TABLE".toList = true) (by decide)
    (by decide) (glyphsFrom_blanks [' '] (by decide) hstatement)
  have hcreate := glyphsFrom_word true (by decide : isAsciiWord "CREATE".toList = true) (by decide)
    (by decide) (glyphsFrom_blanks [' '] (by decide) htable)
  rw [tableScript, tableText, List.append_assoc]
  exact hcreate

/-! ## Lines of the parts -/

/-- The characters of a text outside its quoted text and comments. -/
def loose (s : String) : List Char := looseOf (partGlyphs s.toList)

/-- Holds for a text without commas outside round parentheses, quoted text and comments. -/
def IsUncut (s : String) : Prop := elementDepth 0 (loose s) = some 0

instance (s : String) : Decidable (IsUncut s) :=
  inferInstanceAs (Decidable (elementDepth 0 (loose s) = some 0))

/-- A text on one line: its white space outside quoted text and comments is in canonical form. -/
def oneLine (s : String) : Except MaskError String :=
  (lineOf (partGlyphs s.toList)).map String.ofList

/-- The lines of an element. -/
def elementLines (s : String) : Except MaskError (List String) :=
  (linesOf (partGlyphs s.toList)).map (·.map String.ofList)

theorem oneLine_eq_ok {s : String} {line : List Char}
    (h : lineOf (partGlyphs s.toList) = .ok line) :
    oneLine s = .ok (String.ofList line) :=
  map_eq_ok_iff.2 ⟨line, h, rfl⟩

theorem mapM_oneLine_eq_ok {clause : Option String} {line : Option (List Char)}
    (h : ((clause.map String.toList).map partGlyphs).mapM lineOf = .ok line) :
    clause.mapM oneLine = .ok (line.map String.ofList) := by
  cases clause with
  | none =>
    obtain rfl := Except.ok.inj h
    rfl
  | some c =>
    rw [Option.map_some, Option.map_some, Option.mapM_some] at h
    rw [Option.mapM_some, oneLine]
    generalize lineOf (partGlyphs c.toList) = line at h ⊢
    obtain ⟨text, rfl, rfl⟩ := map_eq_ok_iff.1 h
    rfl

theorem mapM_elementLines_eq_ok {elements : List String} {lines : List (List (List Char))}
    (h : ((elements.map String.toList).map partGlyphs).mapM linesOf = .ok lines) :
    elements.mapM elementLines = .ok (lines.map (·.map String.ofList)) := by
  have hlines : elementLines = fun e =>
      (linesOf (partGlyphs e.toList)).map (·.map String.ofList) := rfl
  simp only [List.mapM_map, Function.comp_def] at h
  rw [hlines]
  exact mapM_map_eq_ok _ h

/-- Holds for the text of a name. -/
structure IsNameText (s : String) : Prop where
  isPart : IsPart s.toList
  isName : IsName (partGlyphs s.toList)

/-- Holds for the text of an element. -/
structure IsElementText (s : String) : Prop where
  isPart : IsPart s.toList
  isElement : IsElement (partGlyphs s.toList)

/-- Holds for the text of a clause behind the elements. -/
structure IsClauseText (s : String) : Prop where
  isPart : IsPart s.toList
  isClause : IsClause (partGlyphs s.toList)

theorem isNameText_iff {s : String} : IsNameText s ↔
    IsPart s.toList ∧ (∀ g ∈ partGlyphs s.toList, g.IsProper) ∧
      ((loose s).all fun c => !isPunctuation c) = true ∧
      (textOf (partGlyphs s.toList)).all isBlank = false := by
  simp only [List.all_eq_true, Bool.not_eq_true']
  exact ⟨fun h => ⟨h.isPart, h.isName.isProper, h.isName.unpunctuated, h.isName.solid⟩,
    fun h => ⟨h.1, h.2.1, h.2.2.1, h.2.2.2⟩⟩

instance (s : String) : Decidable (IsNameText s) := decidable_of_iff _ isNameText_iff.symm

instance (s : String) : Decidable (IsElementText s) :=
  decidable_of_iff (IsPart s.toList ∧ (∀ g ∈ partGlyphs s.toList, g.IsProper) ∧
    ';' ∉ loose s ∧ depthBehind 0 (loose s) = some 0)
    ⟨fun h => ⟨h.1, h.2.1, h.2.2.1, h.2.2.2⟩,
      fun h => ⟨h.isPart, h.isElement.isProper, h.isElement.unended, h.isElement.balanced⟩⟩

instance (s : String) : Decidable (IsClauseText s) :=
  decidable_of_iff (IsPart s.toList ∧ (∀ g ∈ partGlyphs s.toList, g.IsProper) ∧
    ';' ∉ loose s ∧ (textOf (partGlyphs s.toList)).all isBlank = false)
    ⟨fun h => ⟨h.1, h.2.1, h.2.2.1, h.2.2.2⟩,
      fun h => ⟨h.isPart, h.isClause.isProper, h.isClause.unended, h.isClause.solid⟩⟩

/-- A text that is not cut has no comma outside parentheses. -/
theorem elementDepth_of_length_eq_one {cs : List Char} (hbalanced : depthBehind 0 cs = some 0)
    (h : (splitElements 0 cs).length = 1) : elementDepth 0 cs = some 0 := by
  obtain ⟨e, es, hes, he, -⟩ := elementDepth_of_mem_splitElements hbalanced
  have hcs := intercalate_splitElements 0 cs
  rw [hes, List.length_cons] at h
  obtain rfl := List.length_eq_zero_iff.1 (Nat.succ.inj h)
  rw [hes, List.intercalate_singleton] at hcs
  rw [← hcs, he]

/-- An element has one line if and only if it has no comma outside parentheses. -/
theorem elementLines_length_eq_one_iff {s : String} (hs : IsElementText s) {lines : List String}
    (h : elementLines s = .ok lines) : lines.length = 1 ↔ IsUncut s := by
  have hgs := hs.isElement.isProper
  have hw : WellMasked (maskGlyphs 0 (partGlyphs s.toList)) := ⟨0, _, hgs, rfl⟩
  have hcanonical : elementDepth 0 (canonical (maskGlyphs 0 (partGlyphs s.toList))) =
      elementDepth 0 (loose s) := by
    rw [canonical_eq_spaced hw, elementDepth_spaced, elementDepth_maskGlyphs hgs, loose]
  have hbalanced : depthBehind 0 (canonical (maskGlyphs 0 (partGlyphs s.toList))) = some 0 := by
    rw [canonical_eq_spaced hw, depthBehind_spaced, depthBehind_maskGlyphs hgs,
      hs.isElement.balanced]
  obtain ⟨lines, hlines, rfl⟩ := map_eq_ok_iff.1 h
  -- each piece between commas has one line
  have hlength := congrArg List.length
    (map_eq_of_mapM_eq_ok (p := fun _ => ()) (q := fun _ => ()) (fun _ _ _ => rfl) hlines)
  rw [List.length_map, List.length_map, List.length_map] at hlength
  rw [List.length_map, hlength, IsUncut, ← hcanonical]
  refine ⟨elementDepth_of_length_eq_one hbalanced, fun hdepth => ?_⟩
  rw [splitElements_of_elementDepth hdepth, List.length_singleton]

/-- An element comes out as a whole, on one line, if and only if it has no comma outside
parentheses. -/
theorem elementLines_eq_singleton_iff {s : String} (hs : IsElementText s) {lines : List String}
    (h : elementLines s = .ok lines) :
    (∃ line, oneLine s = .ok line ∧ lines = [line]) ↔ IsUncut s := by
  constructor
  · rintro ⟨line, -, rfl⟩
    exact (elementLines_length_eq_one_iff hs h).1 List.length_singleton
  · intro huncut
    rw [elementLines, linesOf_of_elementDepth hs.isElement.isProper huncut] at h
    rw [oneLine]
    generalize lineOf (partGlyphs s.toList) = line at h ⊢
    obtain ⟨lines, hlines, rfl⟩ := map_eq_ok_iff.1 h
    obtain ⟨line, rfl, rfl⟩ := map_eq_ok_iff.1 hlines
    exact ⟨String.ofList line, rfl, rfl⟩

/-! ## The layout of a table statement -/

theorem segmentCount_of_glyphsFrom {t : String} {gs : List Glyph}
    (h : glyphsFrom true t.toList = .ok gs) : segmentCount t = (segmentsOf gs).length := by
  obtain ⟨ℓs, hscan, rfl⟩ := glyphsFrom_eq_ok_iff.1 h
  rw [segmentCount_of_scan_eq_ok hscan, segments_eq_segmentsOf]
  rfl

/-- The parts of a table statement have their lines. -/
theorem exists_lines {name : List Glyph} {elements : List (List Glyph)}
    {clause : Option (List Glyph)} (hname : IsName name) (helements : ∀ gs ∈ elements, IsElement gs)
    (hclause : ∀ gs ∈ clause, IsClause gs)
    (hcount : (segmentsOf (tableGlyphs name elements clause)).length ≤ 10 ^ Number.maxDigits) :
    ∃ nameText lines clauseText, lineOf name = .ok nameText ∧ elements.mapM linesOf = .ok lines ∧
      clause.mapM lineOf = .ok clauseText := by
  obtain ⟨head, ms, tail, -, hhead, hms, htail⟩ :=
    (MaskedIn.refl (tableGlyphs name elements clause)).of_tableGlyphs
  generalize segmentsOf (tableGlyphs name elements clause) = kept at *
  -- a part has no more segments than the statement, so its masks have numbers that can be read
  obtain ⟨nameText, hnameText⟩ :=
    exists_lineOf_eq_ok hname.isProper (hhead.length_le.trans hcount)
  obtain ⟨lines, hlines⟩ : ∃ lines, elements.mapM linesOf = .ok lines := by
    refine exists_mapM_eq_ok_iff.2 fun gs hgs => ?_
    have hflip : List.Forall₂ (fun m gs => MaskedIn kept gs m) ms elements := hms.flip
    obtain ⟨m, -, hm⟩ := exists_of_mem_right hflip hgs
    exact exists_linesOf_eq_ok (helements gs hgs).isProper (hm.length_le.trans hcount)
  cases clause with
  | none => exact ⟨nameText, lines, none, hnameText, hlines, rfl⟩
  | some gs =>
    obtain ⟨m, -, hm⟩ := MaskedIn.of_cons htail
    obtain ⟨text, htext⟩ :=
      exists_lineOf_eq_ok (hclause gs rfl).isProper (hm.length_le.trans hcount)
    exact ⟨nameText, lines, some text, hnameText, hlines, map_eq_ok_iff.2 ⟨text, htext, rfl⟩⟩

/-- The lines of a table statement. -/
theorem ofList_tableLayout (name : List Char) (lines : List (List Char))
    (clause : Option (List Char)) :
    String.ofList (tableLayout name lines clause) =
      "CREATE TABLE " ++ String.ofList name ++ " (\n" ++
        ",\n".intercalate ((lines.map String.ofList).map ("  " ++ ·)) ++ "\n)" ++
        (clause.map String.ofList).elim "" ("\n" ++ ·) ++ ";" := by
  have hlines : ((lines.map String.ofList).map ("  " ++ ·)).map String.toList =
      lines.map (indent ++ ·) := by
    rw [List.map_map, List.map_map]
    apply List.map_congr_left
    intro line _
    show ("  " ++ String.ofList line).toList = indent ++ line
    rw [String.toList_append]
    exact congrArg (indent ++ ·) String.toList_ofList
  have hclause : ((clause.map String.ofList).elim "" ("\n" ++ ·)).toList =
      clause.elim [] ('\n' :: ·) := by
    cases clause with
    | none => rfl
    | some c =>
      show ("\n" ++ String.ofList c).toList = '\n' :: c
      rw [String.toList_append]
      exact congrArg ('\n' :: ·) String.toList_ofList
  apply String.toList_inj.1
  rw [String.toList_ofList, tableLayout]
  simp only [String.toList_append, String.toList_ofList, String.toList_intercalate, hlines, hclause,
    List.append_assoc]
  rfl

/-- The layout of a table statement, given by the texts of its parts: the name, each line of each
element, and the clause on a line of its own. -/
theorem format_tableScript {t name : String} {elements : List String} {clause : Option String}
    (ht : t.toList = tableScript name.toList (elements.map String.toList)
      (clause.map String.toList))
    (hname : IsNameText name) (helements : ∀ e ∈ elements, IsElementText e)
    (hclause : ∀ c ∈ clause, IsClauseText c)
    (hsolid : ∃ e ∈ elements, ∃ c ∈ e.toList, isBlank c = false ∧ c ≠ ',')
    (hcount : segmentCount t ≤ 10 ^ Number.maxDigits) :
    ∃ head lines tail, oneLine name = .ok head ∧ elements.mapM elementLines = .ok lines ∧
      clause.mapM oneLine = .ok tail ∧
      format t = .ok ("CREATE TABLE " ++ head ++ " (\n" ++
        ",\n".intercalate (lines.flatten.map ("  " ++ ·)) ++ "\n)" ++ tail.elim "" ("\n" ++ ·) ++
        ";") := by
  have hne : elements.map String.toList ≠ [] := by
    obtain ⟨e, he, -⟩ := hsolid
    exact List.map_eq_nil_iff.not.2 (List.ne_nil_of_mem he)
  have hclauseParts : ∀ c ∈ clause.map String.toList, IsPart c := by
    intro c hc
    obtain ⟨text, htext, rfl⟩ := Option.map_eq_some_iff.1 hc
    exact (hclause text htext).isPart
  have hclauses : ∀ gs ∈ (clause.map String.toList).map partGlyphs, IsClause gs := by
    intro gs hgs
    obtain ⟨c, hc, rfl⟩ := Option.map_eq_some_iff.1 hgs
    obtain ⟨text, htext, rfl⟩ := Option.map_eq_some_iff.1 hc
    exact (hclause text htext).isClause
  have hbody : ∀ gs ∈ (elements.map String.toList).map partGlyphs, IsElement gs :=
    List.forall_mem_map.2 (List.forall_mem_map.2 fun e he => (helements e he).isElement)
  -- the script is cut into the glyphs of its parts
  have hglyphs := glyphsFrom_tableScript hname.isPart hne
    (List.forall_mem_map.2 fun e he => (helements e he).isPart) hclauseParts
  rw [← ht] at hglyphs
  rw [segmentCount_of_glyphsFrom hglyphs] at hcount
  -- its segments are few enough for every part to have its lines
  obtain ⟨head, lines, tail, hhead, hlines, htail⟩ :=
    exists_lines hname.isName hbody hclauses hcount
  have hsolidGlyphs : ∃ gs ∈ (elements.map String.toList).map partGlyphs,
      ∃ c ∈ textOf gs, isBlank c = false ∧ c ≠ ',' := by
    obtain ⟨e, he, c, hc, hsolid⟩ := hsolid
    refine ⟨_, List.mem_map_of_mem (List.mem_map_of_mem he), c, ?_, hsolid⟩
    rwa [(helements e he).isPart.textOf_partGlyphs]
  have hformat := format_of_tableGlyphs hglyphs hcount hname.isName hbody hsolidGlyphs hclauses
    hhead hlines htail
  rw [ofList_tableLayout, List.map_flatten] at hformat
  exact ⟨_, _, _, oneLine_eq_ok hhead, mapM_elementLines_eq_ok hlines, mapM_oneLine_eq_ok htail,
    hformat⟩

end PgSchema.Layout
