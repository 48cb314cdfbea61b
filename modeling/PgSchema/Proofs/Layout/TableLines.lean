/-
# Lines of a table statement

The layout of a table statement has its name on the first line, each element on a line of its own,
and the clause behind the elements on the last.  Elements are cut at the commas outside round
parentheses and outside quoted text and comments, so an element with such a comma gets several
lines.

* `arrange_tableText` : the arrangement of a masked table statement;
* `IsName`, `IsElement`, `IsClause` : the parts of a table statement;
* `format_of_tableGlyphs` : the layout of a table statement, given by its glyphs.
-/
import PgSchema.Proofs.Layout.Masked
import PgSchema.Proofs.Layout.Part

namespace PgSchema.Layout

open Text Glyph

/-! ## White space -/

/-- The first character other than white space. -/
theorem exists_blanks_append {cs : List Char} (h : cs.all isBlank = false) :
    ∃ bs c ds, cs = bs ++ c :: ds ∧ bs.all isBlank = true ∧ isBlank c = false := by
  induction cs with
  | nil => cases h
  | cons c cs ih =>
    cases hc : isBlank c with
    | false => exact ⟨[], c, cs, rfl, rfl, hc⟩
    | true =>
      rw [List.all_cons, hc, Bool.true_and] at h
      obtain ⟨bs, d, ds, rfl, hbs, hd⟩ := ih h
      exact ⟨c :: bs, d, ds, rfl, by rw [List.all_cons, hc, hbs, Bool.and_self], hd⟩

theorem mem_spaced_iff {c : Char} (hc : isBlank c = false) (cs : List Char) :
    c ∈ spaced cs ↔ c ∈ cs := by
  have hfilter (ds : List Char) : c ∈ ds ↔ c ∈ ds.filter (!isBlank ·) := by
    rw [List.mem_filter, hc]
    exact (and_iff_left rfl).symm
  rw [hfilter, filter_spaced, ← hfilter]

theorem spaced_cons_blank {b : Char} (hb : isBlank b = true) (cs : List Char) :
    spaced (b :: cs) = spaced cs := by
  rw [spaced, spaced, strokes_cons_blank hb]
  exact congrArg render (settleWith_strokes keeps true false cs)

theorem spaced_append_semicolon (cs : List Char) : spaced (cs ++ [';']) = spaced cs ++ [';'] := by
  rw [spaced_eq_render_clear, render_append_dropped (by simp [keeps]) (by decide),
    ← spaced_eq_render_clear]
  rfl

theorem trimEndWhere_spaced (cs : List Char) : trimEndWhere isBlank (spaced cs) = spaced cs := by
  apply trimEndWhere_of_blankBehind
  have hsettled := settled_spaced cs
  cases hspaced : spaced cs with
  | nil => rfl
  | cons c ds =>
    rw [hspaced] at hsettled
    rw [blankBehind, hsettled.1]
    exact blankBehind_of_settledFrom hsettled.2

/-! ## Masked table statements -/

/-- A masked table statement with its elements on lines of their own, up to its semicolon. -/
def tableText (head : List Char) (elements : List (List Char)) (tail : List Char) : List Char :=
  head ++ '(' :: '\n' ::
    ([',', '\n'].intercalate (elements.map (indent ++ ·)) ++ '\n' :: ')' :: tail)

/-- The lines of the elements of a body. -/
def linesIn (elements : List (List Char)) : List (List Char) :=
  elements.flatMap fun e => (splitElements 0 (spaced e)).map (trimWhere isBlank)

variable {head tail : List Char} {elements : List (List Char)}

/-- The canonical form of a table statement has a body with the lines of the elements. -/
theorem spaced_tableText (hne : elements ≠ [])
    (hbalanced : ∀ e ∈ elements, depthBehind 0 e = some 0) (head tail : List Char) :
    ∃ bs body bs', bs.all isBlank = true ∧ bs'.all isBlank = true ∧
      spaced (tableText head elements tail) =
        spaced head ++ bs ++ '(' :: (body ++ ')' :: (bs' ++ spaced tail)) ∧
      depthBehind 0 body = some 0 ∧
      (splitElements 0 body).map (trimWhere isBlank) = linesIn elements := by
  obtain ⟨body, hbody, hdepth, hlines⟩ := render_body hne hbalanced '(' tail
  obtain ⟨bs', hbs', htail⟩ := exists_render_eq_append_spaced ')' false tail
  refine ⟨if blankBehind false head && keeps (lastSolid '(' head) '(' then [' '] else [], body, bs',
    by split <;> decide, hbs', ?_, hdepth, hlines⟩
  rw [spaced_eq_render_clear, tableText, render_append_cons (by decide), ← spaced_eq_render_clear,
    strokes_cons_blank (by decide), hbody, htail, List.append_assoc]

/-- The arrangement of a table statement in canonical form. -/
theorem arrangeTable_spaced (hne : elements ≠ [])
    (hbalanced : ∀ e ∈ elements, depthBehind 0 e = some 0) (hopen : '(' ∉ head)
    (hsolid : (linesIn elements).all (·.isEmpty) = false) :
    arrangeTable (spaced (tableText head elements tail)) =
      tableLines (spaced head) (linesIn elements) (spaced tail) := by
  obtain ⟨bs, body, bs', hbs, hbs', hspaced, hdepth, hlines⟩ :=
    spaced_tableText hne hbalanced head tail
  -- the body starts at the first parenthesis of the statement
  have hhead : (spaced head ++ bs).all (· != '(') = true := by
    rw [List.all_append, Bool.and_eq_true, List.all_eq_true, List.all_eq_true]
    refine ⟨fun c hc => bne_iff_ne.2 ?_, fun c hc => bne_iff_ne.2 ?_⟩
    · rintro rfl
      exact hopen ((mem_spaced_iff (by decide) head).1 hc)
    · rintro rfl
      exact absurd (List.all_eq_true.1 hbs _ hc) (by decide)
  rw [hspaced, arrangeTable_of_body hhead (splitClosing_append hdepth _) (by rw [hlines, hsolid]),
    hlines, tableLines, tableLines, trimEndWhere_append_blank hbs, trimWhere_blank_append hbs',
    trimWhere_of_settled (settled_spaced tail)]

/-- An element with a character other than white space and commas has a line with one. -/
theorem linesIn_all_isEmpty {e : List Char} (he : e ∈ elements) {c : Char} (hc : c ∈ e)
    (hblank : isBlank c = false) (hcomma : c ≠ ',') :
    (linesIn elements).all (·.isEmpty) = false := by
  rw [← mem_spaced_iff hblank, ← intercalate_splitElements 0 (spaced e)] at hc
  -- cutting takes away commas only, and trimming white space only
  obtain hc | ⟨line, hline, hc⟩ := mem_of_mem_intercalate hc
  · exact absurd (List.mem_singleton.1 hc) hcomma
  · obtain ⟨as, bs, has, hbs, heq⟩ := append_trimWhere_append isBlank line
    have htrim : c ∈ trimWhere isBlank line := by
      rw [heq, List.mem_append, List.mem_append] at hc
      obtain (hc | hc) | hc := hc
      · rw [List.all_eq_true.1 has c hc] at hblank
        cases hblank
      · exact hc
      · rw [List.all_eq_true.1 hbs c hc] at hblank
        cases hblank
    rw [List.all_eq_false]
    refine ⟨trimWhere isBlank line, ?_, ?_⟩
    · exact List.mem_flatMap.2 ⟨e, he, List.mem_map_of_mem hline⟩
    · rw [List.isEmpty_iff]
      exact List.ne_nil_of_mem htrim

/-- The words at the start of a table statement stay in front of its name. -/
theorem spaced_createTable {name : List Char} (hname : ∀ c ∈ name, isPunctuation c = false)
    (hne : name.all isBlank = false) :
    spaced (createTable ++ name) = createTable ++ spaced name := by
  obtain ⟨bs, d, rest, rfl, hbs, hd⟩ := exists_blanks_append hne
  have hstrokes (b : Bool) : strokes b (bs ++ d :: rest) =
      (blankBehind b bs, d) :: strokes false rest := by
    rw [strokes_append, strokes_of_all_blank hbs, List.nil_append, strokes_cons hd]
  -- the blank behind the words is kept because the name does not start with punctuation
  have hkeeps : keeps 'E' d = true := by
    have hpunctuation := hname d (List.mem_append_right bs List.mem_cons_self)
    simp only [isPunctuation, Bool.or_eq_false_iff] at hpunctuation
    simp [keeps, bne, hpunctuation, lineMark]
  have hbehind : blankBehind true bs = true := by
    rw [blankBehind_of_all_blank hbs]
    split <;> rfl
  have hwords (S : List (Bool × Char)) :
      render (clear keeps '(' (strokes false createTable ++ S)) =
        "CREATE TABLE".toList ++ render (clear keeps 'E' S) := rfl
  have hnone : keeps '(' d = false := rfl
  rw [spaced_eq_render_clear, spaced_eq_render_clear, strokes_append, hstrokes, hstrokes, hwords,
    show blankBehind false createTable = true from rfl, hbehind, clear, clear, render, render,
    hkeeps, hnone, Bool.and_false, Bool.true_and]
  rfl

/-- The arrangement of a masked table statement. -/
theorem arrange_tableText {name : List Char} (hname : ∀ c ∈ name, isPunctuation c = false)
    (hne : name.all isBlank = false) (hbalanced : ∀ e ∈ elements, depthBehind 0 e = some 0)
    (hsolid : (linesIn elements).all (·.isEmpty) = false) (kept : List (List Char))
    (tail : List Char) :
    arrange kept (spaced (tableText (createTable ++ name) elements tail)) =
      .ok (tableLines (createTable ++ spaced name) (linesIn elements) (spaced tail)) := by
  have helements : elements ≠ [] := by
    rintro rfl
    cases hsolid
  have hopen : '(' ∉ createTable ++ name := by
    rw [List.mem_append, not_or]
    exact ⟨by decide, fun hmem => absurd (hname '(' hmem) (by decide)⟩
  obtain ⟨bs, body, bs', -, -, hspaced, -⟩ :=
    spaced_tableText helements hbalanced (createTable ++ name) tail
  rw [spaced_createTable hname hne] at hspaced
  have hstarts : createTable <+: spaced (tableText (createTable ++ name) elements tail) := by
    rw [hspaced, List.append_assoc, List.append_assoc]
    exact List.prefix_append _ _
  have hleading : leadingMask? (spaced (tableText (createTable ++ name) elements tail)) = none := by
    obtain ⟨rest, hrest⟩ := hstarts
    rw [← hrest]
    exact Renumbered.leadingMask?_of_no_comment (by decide) _
  rw [arrange_eq_ok_iff, withoutLeading_of_eq_none hleading, leadingOf_of_eq_none hleading,
    arrangeBare_table hstarts, arrangeTable_spaced helements hbalanced hopen hsolid,
    spaced_createTable hname hne]
  exact ⟨_, rfl, (List.nil_append _).symm⟩

theorem closingOf_spaced {cs : List Char} (hsemicolon : ';' ∉ cs) (hne : cs.all isBlank = false) :
    closingOf (spaced cs ++ [';']) = [')', '\n'] := by
  obtain ⟨c, hc, hblank⟩ := List.all_eq_false.1 hne
  rw [Bool.not_eq_true] at hblank
  have hspaced := (mem_spaced_iff hblank cs).2 hc
  rw [← mem_spaced_iff (by decide)] at hsemicolon
  cases hcs : spaced cs with
  | nil =>
    rw [hcs] at hspaced
    cases hspaced
  | cons d ds =>
    rw [hcs, List.mem_cons, not_or] at hsemicolon
    have hd : (some d == some ';') = false := by
      rw [beq_eq_false_iff_ne]
      exact fun heq => hsemicolon.1 (Option.some.inj heq).symm
    rw [closingOf, List.cons_append, List.head?_cons, hd]
    rfl

/-- A table statement is put back part by part. -/
theorem restores_tableLines {kept elements lines : List (List Char)}
    {head tail headText tailText : List Char}
    (hhead : Restores kept (trimEndWhere isBlank head) headText)
    (helements : List.Forall₂ (Restores kept) elements lines)
    (htail : Restores kept tail tailText) :
    Restores kept (tableLines head elements tail) (headText ++ [' ', '(', '\n'] ++
      [',', '\n'].intercalate (lines.map (indent ++ ·)) ++ '\n' :: closingOf tail ++ tailText) := by
  have hindented : List.Forall₂ (Restores kept) (elements.map (indent ++ ·))
      (lines.map (indent ++ ·)) := by
    rw [List.forall₂_map_left_iff, List.forall₂_map_right_iff]
    refine helements.imp fun _ _ h => ?_
    exact (restores_of_unmarked (isMark_eq_false_of_all (by decide))).append h
  have hclosing : Restores kept ('\n' :: closingOf tail) ('\n' :: closingOf tail) := by
    rw [closingOf]
    split <;> exact restores_of_unmarked (isMark_eq_false_of_all (by decide))
  exact (((hhead.append (restores_of_unmarked (isMark_eq_false_of_all (by decide)))).append
    (restores_intercalate (isMark_eq_false_of_all (by decide)) hindented)).append hclosing).append
      htail

/-! ## Table statements given by glyphs -/

instance : DecidablePred Glyph.IsProper
  | Glyph.char c => inferInstanceAs (Decidable (isMark c = false))
  | Glyph.segment mark _ => inferInstanceAs (Decidable (isMark mark = true))

/-- Holds for the glyphs of a name: no punctuation stands outside segments. -/
structure IsName (gs : List Glyph) : Prop where
  isProper : ∀ g ∈ gs, g.IsProper
  unpunctuated : ∀ c ∈ looseOf gs, isPunctuation c = false
  solid : (textOf gs).all isBlank = false

/-- Holds for the glyphs of an element: it closes the parentheses that it opens, and no semicolon
stands outside segments. -/
structure IsElement (gs : List Glyph) : Prop where
  isProper : ∀ g ∈ gs, g.IsProper
  unended : ';' ∉ looseOf gs
  balanced : depthBehind 0 (looseOf gs) = some 0

/-- Holds for the glyphs of a clause behind the elements. -/
structure IsClause (gs : List Glyph) : Prop where
  isProper : ∀ g ∈ gs, g.IsProper
  unended : ';' ∉ looseOf gs
  solid : (textOf gs).all isBlank = false

/-- The glyphs of a table statement: a name, elements on lines of their own, and a clause behind
them, if there is one. -/
def tableGlyphs (name : List Glyph) (elements : List (List Glyph)) (clause : Option (List Glyph)) :
    List Glyph :=
  createTable.map char ++ (name ++ (['(', '\n'].map char ++
    ([char ',', char '\n'].intercalate (elements.map (indent.map char ++ ·)) ++
      (['\n', ')'].map char ++ (clause.elim [] (char ' ' :: ·) ++ [';'].map char)))))

/-- The layout of a table statement: the name, each line of its elements, and the clause on a line
of its own. -/
def tableLayout (name : List Char) (lines : List (List Char)) (clause : Option (List Char)) :
    List Char :=
  createTable ++ name ++ [' ', '(', '\n'] ++ [',', '\n'].intercalate (lines.map (indent ++ ·)) ++
    '\n' :: ')' :: (clause.elim [] ('\n' :: ·) ++ [';'])

section TableGlyphs

variable {kept : List (List Char)} {name : List Glyph} {elements : List (List Glyph)}
  {clause : Option (List Glyph)}

theorem tableText_append (head : List Char) (elements : List (List Char)) (tail ds : List Char) :
    tableText head elements (tail ++ ds) = tableText head elements tail ++ ds := by
  simp only [tableText, List.append_assoc, List.cons_append]

/-- The masked text of a table statement is put together from those of its parts. -/
theorem MaskedIn.of_tableGlyphs {cs : List Char}
    (h : MaskedIn kept (tableGlyphs name elements clause) cs) : ∃ head ms tail,
      cs = tableText (createTable ++ head) ms tail ++ [';'] ∧ MaskedIn kept name head ∧
      List.Forall₂ (MaskedIn kept) elements ms ∧
      MaskedIn kept (clause.elim [] (char ' ' :: ·)) tail := by
  obtain ⟨cs₁, rfl, h₁⟩ := h.of_chars_append
  obtain ⟨head, cs₂, rfl, hname, h₂⟩ := h₁.of_append
  obtain ⟨cs₃, rfl, h₃⟩ := h₂.of_chars_append
  obtain ⟨body, cs₄, rfl, hbody, h₄⟩ := h₃.of_append
  obtain ⟨ms, rfl, hms⟩ := hbody.of_intercalate
  obtain ⟨cs₅, rfl, h₅⟩ := h₄.of_chars_append
  obtain ⟨tail, cs₆, rfl, htail, h₆⟩ := h₅.of_append
  obtain rfl := h₆.of_chars
  refine ⟨head, ms, tail, ?_, hname, hms, htail⟩
  rw [← tableText_append]
  simp only [tableText, List.append_assoc, List.cons_append, List.nil_append]

/-- The lines of the elements are put back one by one. -/
theorem restores_linesIn {ms : List (List Char)} {lines : List (List (List Char))}
    (h : List.Forall₂ (MaskedIn kept) elements ms) (helements : ∀ gs ∈ elements, IsElement gs)
    (hcount : kept.length ≤ 10 ^ Number.maxDigits) (hlines : elements.mapM linesOf = .ok lines) :
    List.Forall₂ (Restores kept) (linesIn ms) lines.flatten := by
  induction h generalizing lines with
  | nil =>
    obtain rfl := Except.ok.inj hlines
    exact .nil
  | cons h _ ih =>
    obtain ⟨helement, hothers⟩ := List.forall_mem_cons.1 helements
    obtain ⟨ls, rest, hls, hrest, rfl⟩ := mapM_cons_eq_ok_iff.1 hlines
    exact List.rel_append (h.restores_lines helement.isProper hcount hls) (ih hothers hrest)

/-- The clause is put back behind the closing parenthesis, on a line of its own. -/
theorem restores_clause {tail : List Char} {clauseText : Option (List Char)}
    (h : MaskedIn kept (clause.elim [] (char ' ' :: ·)) tail) (hclause : ∀ gs ∈ clause, IsClause gs)
    (hcount : kept.length ≤ 10 ^ Number.maxDigits) (htext : clause.mapM lineOf = .ok clauseText) :
    ';' ∉ tail ∧ ∃ text, Restores kept (spaced tail ++ [';']) text ∧
      closingOf (spaced tail ++ [';']) ++ text =
        ')' :: (clauseText.elim [] ('\n' :: ·) ++ [';']) := by
  have hend : Restores kept [';'] [';'] :=
    restores_of_unmarked (isMark_eq_false_of_all (by decide))
  cases clause with
  | none =>
    have hnone : MaskedIn kept (([] : List Char).map char) tail := h
    obtain rfl := hnone.of_chars
    obtain rfl := Except.ok.inj htext
    exact ⟨List.not_mem_nil, [';'], hend, rfl⟩
  | some gs =>
    have hgs := hclause gs rfl
    obtain ⟨m, rfl, hm⟩ := MaskedIn.of_cons h
    obtain ⟨text, hline, rfl⟩ := map_eq_ok_iff.1 htext
    have hsemicolon : ';' ∉ m := fun hmem =>
      hgs.unended ((hm.mem_iff (by decide) hgs.isProper).1 hmem)
    rw [spaced_cons_blank (by decide)]
    refine ⟨by simpa using hsemicolon, text ++ [';'],
      (hm.restores_line hgs.isProper hcount hline).append hend, ?_⟩
    rw [closingOf_spaced hsemicolon (hm.all_isBlank hgs.isProper hgs.solid)]
    rfl

theorem notMem_tableText {head tail : List Char} {ms : List (List Char)} (hhead : ';' ∉ head)
    (hms : ∀ m ∈ ms, ';' ∉ m) (htail : ';' ∉ tail) :
    ';' ∉ tableText (createTable ++ head) ms tail := by
  have hbody : ';' ∉ [',', '\n'].intercalate (ms.map (indent ++ ·)) := by
    intro hmem
    obtain hsep | ⟨cs, hcs, hmem⟩ := mem_of_mem_intercalate hmem
    · exact absurd hsep (by decide)
    · obtain ⟨m, hm, rfl⟩ := List.mem_map.1 hcs
      obtain hindent | hmem := List.mem_append.1 hmem
      · exact absurd hindent (by decide)
      · exact hms m hm hmem
  have hwords : ';' ∉ createTable := by decide
  simp [tableText, hwords, hhead, hbody, htail]

theorem isProper_of_mem_chars {cs : List Char} (h : (cs.all fun c => !isMark c) = true) :
    ∀ g ∈ cs.map char, g.IsProper := by
  intro g hg
  obtain ⟨c, hc, rfl⟩ := List.mem_map.1 hg
  exact isMark_eq_false_of_all h c hc

theorem isProper_tableGlyphs (hname : IsName name) (helements : ∀ gs ∈ elements, IsElement gs)
    (hclause : ∀ gs ∈ clause, IsClause gs) :
    ∀ g ∈ tableGlyphs name elements clause, g.IsProper := by
  have hbody : ∀ g ∈ [char ',', char '\n'].intercalate (elements.map (indent.map char ++ ·)),
      g.IsProper := by
    intro g hg
    obtain hsep | ⟨gs, hgs, hg⟩ := mem_of_mem_intercalate hg
    · exact isProper_of_mem_chars
        (by decide : ([',', '\n'].all fun c => !isMark c) = true) g hsep
    · obtain ⟨gs, hmem, rfl⟩ := List.mem_map.1 hgs
      obtain hindent | hg := List.mem_append.1 hg
      · exact isProper_of_mem_chars (by decide : (indent.all fun c => !isMark c) = true) g hindent
      · exact (helements gs hmem).isProper g hg
  have hbehind : ∀ g ∈ clause.elim [] (char ' ' :: ·), g.IsProper := by
    intro g hg
    cases clause with
    | none => cases hg
    | some gs =>
      obtain rfl | hg := List.mem_cons.1 hg
      · exact (by decide : isMark ' ' = false)
      · exact (hclause gs rfl).isProper g hg
  simp only [tableGlyphs, List.forall_mem_append]
  exact ⟨isProper_of_mem_chars (by decide), hname.isProper, isProper_of_mem_chars (by decide),
    hbody, isProper_of_mem_chars (by decide), hbehind, isProper_of_mem_chars (by decide)⟩

/-- Some line of the elements is not empty. -/
theorem linesIn_all_isEmpty_of_maskedIn {ms : List (List Char)}
    (hms : List.Forall₂ (MaskedIn kept) elements ms) (helements : ∀ gs ∈ elements, IsElement gs)
    (hsolid : ∃ gs ∈ elements, ∃ c ∈ textOf gs, isBlank c = false ∧ c ≠ ',') :
    (linesIn ms).all (·.isEmpty) = false := by
  obtain ⟨gs, hgs, c, hc, hblank, hcomma⟩ := hsolid
  have hflip : List.Forall₂ (fun m gs => MaskedIn kept gs m) ms elements := hms.flip
  obtain ⟨m, hm, hmasked⟩ := exists_of_mem_right hflip hgs
  obtain ⟨d, hd, hsolid⟩ := hmasked.exists_mem (p := fun c => !isBlank c && c != ',') (by
    intro e he
    have hne : e ≠ ',' := by
      rintro rfl
      exact absurd he (by decide)
    simp [isBlank_of_isMark he, hne]) (helements gs hgs).isProper hc (by simp [hblank, hcomma])
  simp only [Bool.and_eq_true, Bool.not_eq_true', bne_iff_ne] at hsolid
  exact linesIn_all_isEmpty hm hd hsolid.1 hsolid.2

theorem IsName.unpunctuated_of_maskedIn {head : List Char} (hname : IsName name)
    (h : MaskedIn kept name head) : ∀ c ∈ head, isPunctuation c = false := by
  intro c hc
  cases hpunctuation : isPunctuation c with
  | false => rfl
  | true =>
    have hmask := isMaskChar_of_isPunctuation hpunctuation
    rw [← hpunctuation]
    exact hname.unpunctuated c ((h.mem_iff hmask hname.isProper).1 hc)

theorem IsElement.of_maskedIn {ms : List (List Char)} (helements : ∀ gs ∈ elements, IsElement gs)
    (hms : List.Forall₂ (MaskedIn kept) elements ms) :
    ∀ m ∈ ms, depthBehind 0 m = some 0 ∧ ';' ∉ m := by
  intro m hm
  obtain ⟨gs, hgs, hmasked⟩ := exists_of_mem_right hms hm
  have helement := helements gs hgs
  constructor
  · rw [hmasked.depthBehind_eq helement.isProper, helement.balanced]
  · exact fun hmem =>
      helement.unended ((hmasked.mem_iff (by decide) helement.isProper).1 hmem)

/-- A table statement is the only one of its script, and is arranged as a table. -/
theorem arranged_tableGlyphs {head tail : List Char} {ms : List (List Char)}
    (hmask : maskGlyphs 0 (tableGlyphs name elements clause) =
      tableText (createTable ++ head) ms tail ++ [';'])
    (hhead : MaskedIn kept name head) (hms : List.Forall₂ (MaskedIn kept) elements ms)
    (hsemicolon : ';' ∉ tail) (hname : IsName name) (helements : ∀ gs ∈ elements, IsElement gs)
    (hsolid : ∃ gs ∈ elements, ∃ c ∈ textOf gs, isBlank c = false ∧ c ≠ ',')
    (hclause : ∀ gs ∈ clause, IsClause gs) :
    (statements (maskGlyphs 0 (tableGlyphs name elements clause))).mapM (arrange kept) =
      .ok [tableLines (createTable ++ spaced head) (linesIn ms) (spaced tail ++ [';'])] := by
  have hw : WellMasked (tableText (createTable ++ head) ms tail ++ [';']) :=
    ⟨0, _, isProper_tableGlyphs hname helements hclause, hmask.symm⟩
  have hplain := hname.unpunctuated_of_maskedIn hhead
  have hbody := IsElement.of_maskedIn helements hms
  have hnone : ';' ∉ tableText (createTable ++ head) ms tail :=
    notMem_tableText (fun hmem => absurd (hplain ';' hmem) (by decide)) (fun m hm => (hbody m hm).2)
      hsemicolon
  have hone : statements (maskGlyphs 0 (tableGlyphs name elements clause)) =
      [spaced (tableText (createTable ++ head) ms (tail ++ [';']))] := by
    rw [hmask, statements_append hnone, canonical_eq_spaced hw, tableText_append]
    rfl
  have harrange := arrange_tableText hplain (hhead.all_isBlank hname.isProper hname.solid)
    (fun m hm => (hbody m hm).1) (linesIn_all_isEmpty_of_maskedIn hms helements hsolid) kept
    (tail ++ [';'])
  rw [spaced_append_semicolon] at harrange
  rw [hone]
  exact mapM_cons_eq_ok_iff.2 ⟨_, [], harrange, rfl, rfl⟩

/-- The layout of a table statement: each part comes out on the line, or the lines, that it has
alone. -/
theorem format_of_tableGlyphs {t : String} {nameText : List Char}
    {lines : List (List (List Char))} {clauseText : Option (List Char)}
    (hglyphs : glyphsFrom true t.toList = .ok (tableGlyphs name elements clause))
    (hcount : (segmentsOf (tableGlyphs name elements clause)).length ≤ 10 ^ Number.maxDigits)
    (hname : IsName name) (helements : ∀ gs ∈ elements, IsElement gs)
    (hsolid : ∃ gs ∈ elements, ∃ c ∈ textOf gs, isBlank c = false ∧ c ≠ ',')
    (hclause : ∀ gs ∈ clause, IsClause gs) (hnameText : lineOf name = .ok nameText)
    (hlines : elements.mapM linesOf = .ok lines)
    (hclauseText : clause.mapM lineOf = .ok clauseText) :
    format t = .ok (String.ofList (tableLayout nameText lines.flatten clauseText)) := by
  obtain ⟨head, ms, tail, hmask, hhead, hms, htail⟩ :=
    (MaskedIn.refl (tableGlyphs name elements clause)).of_tableGlyphs
  obtain ⟨hsemicolon, text, htext, hclosing⟩ := restores_clause htail hclause hcount hclauseText
  have hplain := hname.unpunctuated_of_maskedIn hhead
  have hsolidHead := hhead.all_isBlank hname.isProper hname.solid
  have hheadText : Restores (segmentsOf (tableGlyphs name elements clause))
      (trimEndWhere isBlank (createTable ++ spaced head)) (createTable ++ nameText) := by
    rw [← spaced_createTable hplain hsolidHead, trimEndWhere_spaced,
      spaced_createTable hplain hsolidHead]
    exact (restores_of_unmarked (isMark_eq_false_of_all (by decide))).append
      (hhead.restores_line hname.isProper hcount hnameText)
  refine format_of_glyphs hglyphs
    (arranged_tableGlyphs hmask hhead hms hsemicolon hname helements hsolid hclause) ?_
  have hlayout := (restores_tableLines hheadText
    (restores_linesIn hms helements hcount hlines) htext).unmask_eq_ok
  rw [List.append_assoc _ ('\n' :: _), List.cons_append, hclosing] at hlayout
  rw [List.intercalate_singleton]
  exact hlayout

end TableGlyphs

end PgSchema.Layout
