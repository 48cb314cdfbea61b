/-
# Semicolons of arranged statements

An arranged statement ends with its semicolon, as the statement did, and no white space stands
before it.  So arranged statements, joined by blank lines, are cut where they were cut before.

* `statements_intercalate_arranged` : arranged statements, joined by blank lines, are cut at the
  same semicolons;
* `semicolonsTight_of_arranged` : no white space stands before the semicolons at their ends.
-/
import PgSchema.Proofs.Layout.Rearrange
import PgSchema.Proofs.Layout.Solid
import PgSchema.Proofs.Layout.Statements

namespace PgSchema.Layout

open Sql Text

/-! ## The end of an arranged statement -/

theorem blankBehind_wrapFrom (depth : Int) (keywords : List (List Char)) (cs : List Char)
    (b : Bool) : blankBehind b (wrapFrom depth keywords cs) = blankBehind b cs := by
  fun_induction wrapFrom depth keywords cs generalizing b with
  | case1 => rfl
  | case2 depth keywords c cs _ ih => exact ih _
  | case3 depth keywords c cs _ _ ih => exact ih _
  | case4 depth keywords c cs _ _ h keyword _ ih =>
    simp only [Bool.and_eq_true, beq_iff_eq] at h
    rw [h.1]
    exact ih _
  | case5 depth keywords c cs _ _ _ _ ih => exact ih _
  | case6 depth keywords c cs _ _ _ ih => exact ih _

/-- A table statement on several lines does not end with white space. -/
theorem blankBehind_tableLines (b : Bool) (head : List Char) (elements : List (List Char))
    (rest : List Char) :
    blankBehind b (tableLines head elements (trimWhere isBlank rest)) = false := by
  obtain ⟨bs, -, htail⟩ := closingOf_append (trimWhere isBlank rest)
  rw [tableLines, List.append_assoc, List.cons_append, htail, blankBehind_append, blankBehind,
    blankBehind]
  obtain hnil | ⟨c, ds, heq, hc, hend⟩ := trimWhere_isBlank_cases rest
  · rw [hnil] at htail ⊢
    have hbs : bs = [] := by
      rw [closingOf] at htail
      simpa using htail.symm
    rw [hbs]
    decide
  · rw [heq, blankBehind_append, blankBehind, hc, hend]

/-- An arranged statement ends with white space only where the statement does. -/
theorem blankBehind_arrangeBare {segments : List (List Char)} {cs ds : List Char} {b : Bool}
    (h : arrangeBare segments cs = .ok ds) (hb : blankBehind b cs = false) :
    blankBehind b ds = false := by
  by_cases htable : createTable <+: cs
  · rw [arrangeBare_table htable] at h
    obtain rfl := Except.ok.inj h
    obtain hsame | ⟨head, inside, body, rest, hopen, rfl, hclose, hne⟩ := arrangeTable_cases cs
    · rw [hsame, hb]
    · rw [arrangeTable_of_body hopen hclose hne]
      exact blankBehind_tableLines ..
  · have hnot : ¬ "CREATE TABLE ".toList.isPrefixOf cs = true :=
      fun h => htable (List.isPrefixOf_iff_prefix.1 h)
    rw [arrangeBare, if_neg hnot] at h
    cases hlength : unmask segments cs with
    | error e => simp [hlength, bind, Except.bind] at h
    | ok text =>
      simp only [hlength, bind, Except.bind, pure, Except.pure] at h
      split at h
      · rw [← Except.ok.inj h, hb]
      · rw [← Except.ok.inj h, blankBehind_wrapFrom, hb]

theorem blankBehind_arrange {segments : List (List Char)} {cs ds : List Char}
    (h : arrange segments cs = .ok ds) (hcs : blankBehind false cs = false) :
    blankBehind false ds = false := by
  obtain ⟨bare, hbare, rfl⟩ := arrange_eq_ok_iff.1 h
  rw [← leadingOf_append cs, blankBehind_append] at hcs
  rw [blankBehind_append]
  exact blankBehind_arrangeBare hbare hcs

/-! ## Cutting arranged statements -/

/-- White space in front of a statement does not count. -/
theorem canonical_blank_append {bs : List Char} (h : bs.all isBlank = true) (cs : List Char) :
    canonical (bs ++ cs) = canonical cs := by
  rw [canonical_eq, canonical_eq, tidy_eq_render, tidy_eq_render, strokes_append,
    strokes_of_all_blank h, List.nil_append, settleWith_strokes _ _ false]

theorem statements_blank_append {bs : List Char} (h : bs.all isBlank = true) (cs : List Char) :
    statements (bs ++ cs) = statements cs := by
  have hfree : ';' ∉ bs := not_mem_of_all_blank h (by decide)
  by_cases hmem : ';' ∈ cs
  · obtain ⟨as, ds, rfl, has⟩ := List.eq_append_cons_of_mem hmem
    have hfree' : ';' ∉ bs ++ as := by
      rw [List.mem_append, not_or]
      exact ⟨hfree, has⟩
    rw [← List.append_assoc, statements_append hfree', statements_append has, List.append_assoc,
      canonical_blank_append h]
  · have hfree' : ';' ∉ bs ++ cs := by
      rw [List.mem_append, not_or]
      exact ⟨hfree, hmem⟩
    rw [statements_of_notMem hfree', statements_of_notMem hmem, canonical_blank_append h]

theorem mem_iff_of_ink_eq {j : Joint} {cs ds : List Char} (h : ink j cs = ink j ds) {c : Char}
    (hc : isBlank c = false) : c ∈ cs ↔ c ∈ ds := by
  have hmem : ∀ es : List Char, c ∈ es ↔ c ∈ (ink j es).map Prod.snd := by
    intro es
    rw [map_snd_ink_eq_filter, List.mem_filter, hc]
    simp
  rw [hmem cs, hmem ds, h]

/-- A text with the ink of a statement and its semicolon ends with the only semicolon in it, if it
does not end with white space. -/
theorem exists_append_semicolon {cs ds : List Char} (hcs : ';' ∉ cs)
    (hink : ink .free ds = ink .free (cs ++ [';'])) (hend : blankBehind false ds = false) :
    ∃ es, ds = es ++ [';'] ∧ ';' ∉ es := by
  have hne : ds ≠ [] := by
    rintro rfl
    rw [ink_append_punctuation (by decide)] at hink
    simp at hink
  obtain ⟨es, c, rfl⟩ : ∃ es c, ds = es ++ [c] :=
    ⟨ds.dropLast, ds.getLast hne, (List.dropLast_concat_getLast hne).symm⟩
  rw [blankBehind_append] at hend
  have hc : isBlank c = false := hend
  rw [ink_append, ink_cons hc, ink_nil, ink_append_punctuation (by decide), ink_nil] at hink
  obtain ⟨hes, hlast⟩ := List.append_inj' hink rfl
  obtain rfl : c = ';' := (Prod.mk.inj (List.cons.inj hlast).1).2
  exact ⟨es, rfl, fun hmem => hcs ((mem_iff_of_ink_eq hes (by decide)).1 hmem)⟩

theorem exists_dropAfterLineMask_cons (c : Char) (cs : List Char) :
    ∃ ds, dropAfterLineMask (c :: cs) = c :: ds := by
  rw [dropAfterLineMask_cons_eq]
  split <;> exact ⟨_, rfl⟩

/-- A canonical form starts with a character other than white space, unless it is that of white
space. -/
theorem canonical_cases (cs : List Char) : (canonical cs = [] ∧ cs.all isBlank = true) ∨
    ∃ c ds, canonical cs = c :: ds ∧ isBlank c = false := by
  rw [canonical_eq, tidy_eq_render]
  cases hstrokes : strokes false cs with
  | nil =>
    refine .inl ⟨rfl, all_blank_of_ink_eq_nil (j := .free) ?_⟩
    rw [← List.map_eq_nil_iff (f := Prod.snd), map_snd_ink .free false, hstrokes]
    rfl
  | cons s S =>
    have hsolid := isSolid_strokes false cs
    rw [hstrokes, isSolid_cons] at hsolid
    obtain ⟨ds, hds⟩ := exists_dropAfterLineMask_cons s.2
      (render (clear (fun c d => c != '(' && d != ')' && !(d == ',' || d == ';')) s.2 S))
    exact .inr ⟨s.2, ds, hds, hsolid.1⟩

theorem sublist_dropAfterLineMaskFrom (copied : Nat) (cs : List Char) :
    (dropAfterLineMaskFrom copied cs).Sublist cs := by
  fun_induction dropAfterLineMaskFrom copied cs with
  | case1 => exact .slnil
  | case2 c cs ih => exact .cons c ih
  | case3 c cs copied _ ih => exact .cons_cons c ih
  | case4 c cs n _ ih => exact .cons_cons c ih
  | case5 c cs _ ih => exact .cons_cons c ih

/-- The characters of a canonical form are those of the statement, and spaces. -/
theorem mem_of_mem_canonical {cs : List Char} {c : Char} (hc : isBlank c = false)
    (h : c ∈ canonical cs) : c ∈ cs :=
  (mem_iff_of_ink_eq (ink_tidy (j := .free) (by decide) cs) hc).1
    ((sublist_dropAfterLineMaskFrom 0 (tidy cs)).subset h)

/-- The canonical form of a statement with its semicolon ends with the only semicolon in it. -/
theorem exists_canonical_append_semicolon {cs : List Char} (h : ';' ∉ cs) :
    ∃ ds, canonical (cs ++ [';']) = ds ++ [';'] ∧ ';' ∉ ds := by
  obtain ⟨front, htidy, hcanonical⟩ := canonical_append_semicolon cs
  refine ⟨_, hcanonical, fun hmem => h ?_⟩
  have hink := ink_tidy (j := .free) (by decide) (cs ++ [';'])
  rw [htidy, ink_append_punctuation (by decide), ink_append_punctuation (by decide)] at hink
  exact (mem_iff_of_ink_eq (List.append_inj' hink rfl).1 (by decide)).1
    ((sublist_dropAfterLineMaskFrom 0 front).subset hmem)

/-- The canonical form of an arranged statement is not empty. -/
theorem canonical_arranged_ne_nil {segments : List (List Char)} {cs ds : List Char}
    (h : arrange segments (canonical cs) = .ok ds) (hne : canonical cs ≠ []) :
    canonical ds ≠ [] := by
  intro hnil
  have hblank : ds.all isBlank = true := by
    obtain ⟨-, hblank⟩ | ⟨c, es, heq, -⟩ := canonical_cases ds
    · exact hblank
    · simp [hnil] at heq
  obtain ⟨hnil', -⟩ | ⟨c, es, heq, hc⟩ := canonical_cases cs
  · exact hne hnil'
  · have hink := ink_of_arrange h .free
    rw [ink_of_all_blank hblank, heq, ink_cons hc] at hink
    simp at hink

/-- A statement with its semicolon ends with the only semicolon in it when it is arranged. -/
theorem exists_arranged_append_semicolon {segments : List (List Char)} {cs A : List Char}
    (hcs : ';' ∉ cs) (hA : arrange segments (canonical (cs ++ [';'])) = .ok A) :
    ∃ es, A = es ++ [';'] ∧ ';' ∉ es := by
  obtain ⟨front, hfront, hfree⟩ := exists_canonical_append_semicolon hcs
  rw [hfront] at hA
  have hend : blankBehind false A = false :=
    blankBehind_arrange hA (by rw [blankBehind_append]; rfl)
  exact exists_append_semicolon hfree (ink_of_arrange hA .free) hend

/-- Arranged statements, joined by blank lines, are cut at the same semicolons. -/
theorem statements_intercalate_arranged {segments : List (List Char)} {cs : List Char}
    {arranged : List (List Char)} (h : (statements cs).mapM (arrange segments) = .ok arranged) :
    statements (['\n', '\n'].intercalate arranged) = arranged.map canonical := by
  induction cs using statement_induction generalizing arranged with
  | last cs hcs =>
    rw [statements_of_notMem hcs] at h
    split at h
    · obtain rfl := Except.ok.inj h
      rfl
    · next hne =>
      obtain ⟨A, rest, hA, hrest, rfl⟩ := mapM_cons_eq_ok_iff.1 h
      obtain rfl := Except.ok.inj hrest
      have hfree : ';' ∉ A := by
        intro hmem
        exact hcs (mem_of_mem_canonical (by decide)
          ((mem_iff_of_ink_eq (ink_of_arrange hA .free) (by decide)).1 hmem))
      have hcanonical := canonical_arranged_ne_nil hA (by simpa using hne)
      have hone : ['\n', '\n'].intercalate [A] = A := List.append_nil A
      show statements (['\n', '\n'].intercalate [A]) = [canonical A]
      rw [hone, statements_of_notMem hfree, if_neg (by simpa using hcanonical)]
  | next cs ds hcs ih =>
    rw [statements_append hcs] at h
    obtain ⟨A, rest, hA, hrest, rfl⟩ := mapM_cons_eq_ok_iff.1 h
    obtain ⟨es, rfl, hes⟩ := exists_arranged_append_semicolon hcs hA
    have hrest' := ih hrest
    -- the blank line in front of the next statement does not count for it
    cases rest with
    | nil =>
      have hone : ['\n', '\n'].intercalate [es ++ [';']] = es ++ ';' :: [] :=
        List.append_nil (es ++ [';'])
      rw [hone, statements_append hes]
      rfl
    | cons B rest =>
      rw [List.intercalate_cons_cons, List.append_assoc, List.append_assoc, List.singleton_append,
        statements_append hes, statements_blank_append (by decide), hrest']
      rfl

/-! ## White space before semicolons -/

/-- In a settled statement no white space stands before the semicolon. -/
theorem blankBehind_of_settled_semicolon {front : List Char} (h : Settled (front ++ [';'])) :
    blankBehind false front = false := by
  cases front with
  | nil => rfl
  | cons c front =>
    have hsettled : SettledFrom c (front ++ [';']) := h.2
    rw [blankBehind, h.1]
    obtain rfl | ⟨ds, d, rfl⟩ := List.eq_nil_or_concat front
    · rfl
    · rw [List.concat_eq_append, List.append_assoc] at hsettled
      rw [List.concat_eq_append]
      rw [blankBehind_append, blankBehind, blankBehind, ← Bool.not_eq_true]
      intro hd
      obtain ⟨-, ⟨e, he, -, hkeep⟩, -⟩ := (settledFrom_cons_blank hd).1 hsettled.of_append_right
      obtain rfl : ';' = e := Option.some.inj he
      simp [keeps] at hkeep

/-- Behind the body of a table, too, no white space stands before the semicolon. -/
theorem exists_tableLines_semicolon (head : List Char) (elements : List (List Char))
    {rest : List Char} (hrest : blankBehind false rest = false) :
    ∃ lines tail, tableLines head elements (trimWhere isBlank (rest ++ [';'])) =
      lines ++ ')' :: tail ++ [';'] ∧ blankBehind false tail = false := by
  -- trimming takes white space from the front only, since the text ends with its semicolon
  obtain ⟨as, us, has, hrest', hus⟩ : ∃ as us, as.all isBlank = true ∧ rest = as ++ us ∧
      trimWhere isBlank (rest ++ [';']) = us ++ [';'] := by
    refine ⟨rest.takeWhile isBlank, rest.dropWhile isBlank, List.all_takeWhile,
      List.takeWhile_append_dropWhile.symm, ?_⟩
    have hdrop : (rest ++ [';']).dropWhile isBlank = rest.dropWhile isBlank ++ [';'] := by
      rw [List.dropWhile_append]
      split
      · next hnil =>
        rw [List.isEmpty_iff.1 hnil]
        rfl
      · rfl
    rw [trimWhere, hdrop, ← trimEndWhere, trimEndWhere_of_blankBehind]
    rw [blankBehind_append]
    rfl
  obtain ⟨bs, hbs, htail⟩ := closingOf_append (us ++ [';'])
  refine ⟨trimEndWhere isBlank head ++ [' ', '(', '\n'] ++
    [',', '\n'].intercalate (elements.map (indent ++ ·)) ++ ['\n'], bs ++ us, ?_, ?_⟩
  · rw [hus, tableLines, List.append_assoc, List.cons_append, htail]
    simp
  · rw [blankBehind_append]
    cases us with
    | nil =>
      -- a semicolon alone stands right behind the parenthesis
      have hnil : bs = [] := by simpa [closingOf] using htail.symm
      rw [hnil]
      rfl
    | cons u us =>
      rw [hrest', blankBehind_append] at hrest
      exact hrest

/-- No white space stands before the semicolon of an arranged statement if none stands before that
of the statement. -/
theorem blankBehind_of_arrange_semicolon {segments : List (List Char)} {front es : List Char}
    (h : arrange segments (front ++ [';']) = .ok (es ++ [';']))
    (hfront : blankBehind false front = false) : blankBehind false es = false := by
  obtain ⟨bare, hbare, heq⟩ := arrange_eq_ok_iff.1 h
  have hsplit := leadingOf_append (front ++ [';'])
  by_cases htable : createTable <+: withoutLeading (front ++ [';'])
  · rw [arrangeBare_table htable] at hbare
    obtain rfl := Except.ok.inj hbare
    obtain hsame | ⟨head, inside, body, rest, hopen, hcs, hclose, hne⟩ :=
      arrangeTable_cases (withoutLeading (front ++ [';']))
    · rw [hsame, hsplit] at heq
      rwa [(List.append_inj' heq rfl).1]
    · obtain rfl := of_splitClosing_eq_some hclose
      rw [hcs, ← List.append_assoc, ← List.cons_append, ← List.append_assoc] at hsplit
      rw [hcs, arrangeTable_of_body hopen hclose hne] at heq
      obtain rfl | ⟨ds, d, rfl⟩ := List.eq_nil_or_concat rest
      -- the statement ends with a semicolon, so it does not end with the parenthesis of its body
      · obtain ⟨-, hlast⟩ := List.append_inj' hsplit rfl
        simp at hlast
      · rw [List.concat_eq_append] at hsplit heq
        rw [← List.cons_append, ← List.append_assoc] at hsplit
        obtain ⟨hstart, hlast⟩ := List.append_inj' hsplit rfl
        obtain rfl := (List.cons.inj hlast).1
        rw [← hstart, blankBehind_append, blankBehind] at hfront
        obtain ⟨lines, tail, hlines, htail⟩ := exists_tableLines_semicolon head
          ((splitElements 0 body).map (trimWhere isBlank)) hfront
        rw [hlines, ← List.append_assoc] at heq
        obtain ⟨rfl, -⟩ := List.append_inj' heq rfl
        rw [← List.append_assoc, blankBehind_append, blankBehind]
        exact htail
  · -- only spaces were turned into line breaks
    have hstrokes : strokes false (es ++ [';']) = strokes false (front ++ [';']) := by
      rw [heq, strokes_append, strokes_of_arrangeBare hbare htable, ← strokes_append, hsplit]
    rw [strokes_append, strokes_append] at hstrokes
    obtain ⟨-, hlast⟩ := List.append_inj' hstrokes rfl
    rw [(Prod.mk.inj (List.cons.inj hlast).1).1, hfront]

/-- Holds for a text in which white space stands before a semicolon only if another semicolon or
nothing else stands before it. -/
def SemicolonsTight (cs : List Char) : Prop :=
  ∀ (front : List Char) (c : Char) (bs rest : List Char), cs = front ++ c :: (bs ++ ';' :: rest) →
    isBlank c = false → c ≠ ';' → bs.all isBlank = true → bs = []

theorem semicolonsTight_of_notMem {cs : List Char} (h : ';' ∉ cs) : SemicolonsTight cs := by
  rintro front c bs rest rfl
  simp at h

theorem semicolonsTight_append {cs ds : List Char} (hcs : ';' ∉ cs)
    (hend : blankBehind false cs = false) (hds : SemicolonsTight ds) :
    SemicolonsTight (cs ++ ';' :: ds) := by
  intro front c bs rest heq hc hne hbs
  -- the semicolon meant is behind the first one, or it is the first one
  by_cases hmem : ';' ∈ front
  · obtain ⟨as, es, rfl, has⟩ := List.eq_append_cons_of_mem hmem
    rw [List.append_assoc, List.cons_append] at heq
    exact hds es c bs rest (append_cons_inj heq hcs has).2 hc hne hbs
  · have hfree : ';' ∉ front ++ c :: bs := by
      simp only [List.mem_append, List.mem_cons, not_or]
      exact ⟨hmem, hne.symm, not_mem_of_all_blank hbs (by decide)⟩
    rw [← List.cons_append, ← List.append_assoc] at heq
    obtain ⟨rfl, -⟩ := append_cons_inj heq hcs hfree
    rw [blankBehind_append, blankBehind, blankBehind_of_all_blank hbs, hc] at hend
    simpa using hend

theorem semicolonsTight_blank_append {bs cs : List Char} (hbs : bs.all isBlank = true)
    (h : SemicolonsTight cs) : SemicolonsTight (bs ++ cs) := by
  induction bs with
  | nil => exact h
  | cons b bs ih =>
    rw [List.all_cons, Bool.and_eq_true] at hbs
    intro front c ds rest heq hc
    cases front with
    | nil =>
      obtain rfl := (List.cons.inj heq).1
      rw [hbs.1] at hc
      exact absurd hc (by decide)
    | cons d front => exact ih hbs.2 front c ds rest (List.cons.inj heq).2 hc

/-- Arranged statements, joined by blank lines, have no white space before the semicolons at their
ends. -/
theorem semicolonsTight_of_arranged {segments : List (List Char)} {cs : List Char}
    {arranged : List (List Char)} (hmasked : WellMasked cs)
    (h : (statements cs).mapM (arrange segments) = .ok arranged) :
    SemicolonsTight (['\n', '\n'].intercalate arranged) := by
  induction cs using statement_induction generalizing arranged with
  | last cs hcs =>
    apply semicolonsTight_of_notMem
    rw [statements_of_notMem hcs] at h
    split at h
    · obtain rfl := Except.ok.inj h
      exact List.not_mem_nil
    · obtain ⟨A, rest, hA, hrest, rfl⟩ := mapM_cons_eq_ok_iff.1 h
      obtain rfl := Except.ok.inj hrest
      have hone : ['\n', '\n'].intercalate [A] = A := List.append_nil A
      show ';' ∉ ['\n', '\n'].intercalate [A]
      rw [hone]
      intro hmem
      exact hcs (mem_of_mem_canonical (by decide)
        ((mem_iff_of_ink_eq (ink_of_arrange hA .free) (by decide)).1 hmem))
  | next cs ds hcs ih =>
    obtain ⟨hfirst, hlater⟩ := wellMasked_of_append (by decide) hmasked
    rw [statements_append hcs] at h
    obtain ⟨A, rest, hA, hrest, rfl⟩ := mapM_cons_eq_ok_iff.1 h
    obtain ⟨es, rfl, hes⟩ := exists_arranged_append_semicolon hcs hA
    obtain ⟨front, hfront, -⟩ := exists_canonical_append_semicolon hcs
    -- no white space stands before the semicolon of a settled statement
    have hsettled := settled_canonical hfirst
    rw [hfront] at hA hsettled
    have hend := blankBehind_of_arrange_semicolon hA (blankBehind_of_settled_semicolon hsettled)
    have htight := ih hlater hrest
    cases rest with
    | nil =>
      have hone : ['\n', '\n'].intercalate [es ++ [';']] = es ++ ';' :: [] :=
        List.append_nil (es ++ [';'])
      rw [hone]
      exact semicolonsTight_append hes hend (semicolonsTight_of_notMem List.not_mem_nil)
    | cons B rest =>
      rw [List.intercalate_cons_cons, List.append_assoc, List.append_assoc, List.singleton_append]
      exact semicolonsTight_append hes hend (semicolonsTight_blank_append (by decide) htight)

end PgSchema.Layout
