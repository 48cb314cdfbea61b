/-
# Arranging twice

An arranged statement, put into its canonical form again, is arranged in the same way: the comments
before it, its head, the elements of its body and what stands behind them are found again.

* `canonical_tableLines` : the canonical form of a table statement in lines;
* `canonical_arranged` : an arranged statement is arranged in the same lines again.
-/
import PgSchema.Proofs.Layout.Body

namespace PgSchema.Layout

open Text

/-! ## Leading comments -/

/-- The comments that precede a statement. -/
def leadingOf (cs : List Char) : List Char := cs.take (leadingMasksFrom 0 cs)

theorem leadingOf_append (cs : List Char) : leadingOf cs ++ withoutLeading cs = cs :=
  List.take_append_drop _ cs

theorem leadingOf_of_eq_none {cs : List Char} (h : leadingMask? cs = none) : leadingOf cs = [] := by
  have happend := leadingOf_append cs
  rw [withoutLeading_of_eq_none h] at happend
  simpa using happend

theorem leadingOf_mask {mark : Char} {digits rest : List Char}
    (hmark : mark = lineMark ∨ mark = blockMark) (hne : digits ≠ [])
    (hdigits : digits.all isDecimalDigit = true) :
    leadingOf (mark :: (digits ++ mark :: rest)) = mark :: (digits ++ mark ::
      if mark = blockMark ∧ rest.head? = some ' ' then ' ' :: leadingOf rest.tail
      else leadingOf rest) := by
  have happend := leadingOf_append (mark :: (digits ++ mark :: rest))
  rw [withoutLeading_mask hmark hne hdigits] at happend
  split at happend
  · next hspace =>
    obtain ⟨rest', rfl⟩ := List.head?_eq_some_iff.1 hspace.2
    rw [if_pos hspace]
    apply List.append_cancel_right (happend.trans _)
    simp [leadingOf_append]
  · next hspace =>
    rw [if_neg hspace]
    apply List.append_cancel_right (happend.trans _)
    simp [leadingOf_append]

/-- The comments that precede a statement start with a mark. -/
theorem head_leadingOf (cs : List Char) :
    leadingOf cs = [] ∨ ∃ mark ds, leadingOf cs = mark :: ds ∧ isMark mark = true := by
  cases h : leadingMask? cs with
  | none => exact .inl (leadingOf_of_eq_none h)
  | some n =>
    obtain ⟨mark, digits, rest, rfl, hmark, hne, hdigits, -⟩ := leadingMask?_eq_some_iff.1 h
    exact .inr
      ⟨mark, _, leadingOf_mask hmark hne hdigits, by rcases hmark with rfl | rfl <;> decide⟩

/-- Other text behind the comments that precede a statement. -/
theorem withoutLeading_leadingOf_append {c : Char} (hc : isMark c = false) (hspace : c ≠ ' ')
    (cs ds : List Char) : withoutLeading (leadingOf cs ++ c :: ds) = c :: ds := by
  induction cs using leading_induction with
  | mask mark digits rest hmark hne hdigits ih =>
    rw [leadingOf_mask hmark hne hdigits, List.cons_append, List.append_assoc, List.cons_append,
      withoutLeading_mask hmark hne hdigits]
    split at ih
    · next hblock =>
      rw [if_pos hblock, if_pos ⟨hblock.1, rfl⟩]
      exact ih
    · next hblock =>
      rw [if_neg hblock, if_neg]
      · exact ih
      -- no space stands behind the mask: next comes another mask, or `c`
      · rintro ⟨-, hhead⟩
        obtain hnil | ⟨mark', ds', hcons, hmark'⟩ := head_leadingOf rest
        · rw [hnil] at hhead
          exact hspace (Option.some.inj hhead)
        · rw [hcons] at hhead
          rw [Option.some.inj hhead] at hmark'
          exact absurd hmark' (by decide)
  | bare cs h =>
    rw [leadingOf_of_eq_none h, List.nil_append]
    apply withoutLeading_of_eq_none
    rw [Option.eq_none_iff_forall_ne_some]
    intro n hn
    obtain ⟨mark, digits, rest, heq, hmark, -⟩ := leadingMask?_eq_some_iff.1 hn
    rw [(List.cons.inj heq).1] at hc
    rcases hmark with rfl | rfl <;> exact absurd hc (by decide)

/-! ## Statements -/

theorem arrange_eq_ok_iff {segments : List (List Char)} {cs ds : List Char} :
    arrange segments cs = .ok ds ↔
      ∃ bare, arrangeBare segments (withoutLeading cs) = .ok bare ∧ ds = leadingOf cs ++ bare := by
  rw [arrange, leadingOf, withoutLeading]
  cases arrangeBare segments (cs.drop (leadingMasksFrom 0 cs)) with
  | error e => simp [Except.map]
  | ok bare => simp [Except.map, eq_comm]

/-- The start of every table statement. -/
def createTable : List Char := "CREATE TABLE ".toList

theorem arrangeBare_table {cs : List Char} (h : createTable <+: cs) (segments : List (List Char)) :
    arrangeBare segments cs = .ok (arrangeTable cs) := by
  have hprefix : "CREATE TABLE ".toList.isPrefixOf cs = true := List.isPrefixOf_iff_prefix.2 h
  rw [arrangeBare, if_pos hprefix]

/-- Breaking lines at spaces keeps the strokes. -/
theorem strokes_wrapFrom (depth : Int) (keywords : List (List Char)) (cs : List Char) (b : Bool) :
    strokes b (wrapFrom depth keywords cs) = strokes b cs := by
  have hspace : isBlank ' ' = true := by decide
  have hbreak : isBlank '\n' = true := by decide
  fun_induction wrapFrom depth keywords cs generalizing b with
  | case1 => rfl
  | case2 depth keywords c cs _ ih => exact strokes_cons_congr ih b c
  | case3 depth keywords c cs _ _ ih => exact strokes_cons_congr ih b c
  | case4 depth keywords c cs _ _ h keyword _ ih =>
    simp only [Bool.and_eq_true, beq_iff_eq] at h
    rw [h.1, indent, List.cons_append, List.cons_append, List.cons_append, List.nil_append,
      strokes_cons_blank hbreak, strokes_cons_blank hspace, strokes_cons_blank hspace,
      strokes_cons_blank hspace, ih]
  | case5 depth keywords c cs _ _ _ _ ih => exact strokes_cons_congr ih b c
  | case6 depth keywords c cs _ _ _ ih => exact strokes_cons_congr ih b c

/-- The front of a settled statement, up to its first parenthesis and without the white space before
it, is settled. -/
theorem exists_settled_front {leading head ds : List Char}
    (hs : Settled (leading ++ (head ++ '(' :: ds))) (hne : trimEndWhere isBlank head ≠ []) :
    ∃ x xs blanks, leading ++ trimEndWhere isBlank head = x :: xs ∧
      head = trimEndWhere isBlank head ++ blanks ∧ blanks.all isBlank = true ∧
      Settled (x :: xs) ∧ SettledFrom (lastSolid x xs) (blanks ++ '(' :: ds) := by
  obtain ⟨blanks, hblanks, hhead⟩ := trimEndWhere_append isBlank head
  obtain ⟨x, xs, hfront⟩ := List.exists_cons_of_ne_nil
    (List.append_ne_nil_of_right_ne_nil leading hne)
  have hsettled : Settled (x :: (xs ++ (blanks ++ '(' :: ds))) := by
    rw [← List.cons_append, ← hfront, List.append_assoc, ← List.append_assoc _ blanks, ← hhead]
    exact hs
  have hlast : blankBehind false xs = false := by
    have hend : blankBehind false (leading ++ trimEndWhere isBlank head) = false := by
      rw [blankBehind_append, ← blankBehind_trimEndWhere head]
      cases h : trimEndWhere isBlank head with
      | nil => exact absurd h hne
      | cons => rfl
    rw [hfront, blankBehind, hsettled.1] at hend
    exact hend
  exact ⟨x, xs, blanks, hfront, hhead, hblanks, ⟨hsettled.1, hsettled.2.of_append_left hlast⟩,
    hsettled.2.of_append_right⟩

/-- The canonical form of a table statement with its elements on lines of their own has the same
head, elements and tail. -/
theorem canonical_tableLines {leading head body rest : List Char}
    (hw : WellMasked (leading ++ (head ++ '(' :: (body ++ ')' :: rest))))
    (hs : Settled (leading ++ (head ++ '(' :: (body ++ ')' :: rest))))
    (hbody : depthBehind 0 body = some 0) (hne : trimEndWhere isBlank head ≠ []) :
    ∃ head' body' rest', canonical (leading ++ tableLines head
        ((splitElements 0 body).map (trimWhere isBlank)) (trimWhere isBlank rest)) =
          leading ++ (head' ++ '(' :: (body' ++ ')' :: rest')) ∧
      (∃ bs, bs.all isBlank = true ∧ head' = trimEndWhere isBlank head ++ bs ∧ head <+: head') ∧
      depthBehind 0 body' = some 0 ∧
      (splitElements 0 body').map (trimWhere isBlank) =
        (splitElements 0 body).map (trimWhere isBlank) ∧
      trimWhere isBlank rest' = trimWhere isBlank rest := by
  obtain ⟨bs, hbs, htail⟩ := closingOf_append (trimWhere isBlank rest)
  have hwell : WellMasked (leading ++ tableLines head
      ((splitElements 0 body).map (trimWhere isBlank)) (trimWhere isBlank rest)) := by
    apply hw.of_ink_eq
    rw [ink_append, ink_append, ink_tableLines]
  obtain ⟨x, xs, blanks, hfront, hhead, hblanks, hxs, hbehind⟩ := exists_settled_front hs hne
  have hopen : SettledFrom (lastSolid (lastSolid x xs) blanks) ('(' :: (body ++ ')' :: rest)) :=
    hbehind.of_append_right
  have hinside : SettledFrom '(' (body ++ ')' :: rest) := (settledFrom_cons (by decide)).1 hopen
  have helements := settled_elements hinside hbody
  have htailSettled : Settled (trimWhere isBlank rest) := by
    rw [← List.append_nil rest, ← List.singleton_append, ← List.append_assoc] at hinside
    exact settled_trimWhere hinside
  -- the canonical form, read off part by part
  obtain ⟨body', hrender, hbody', hsplit⟩ := render_elements
    (by simpa using splitElements_ne_nil 0 body) helements '(' (bs ++ trimWhere isBlank rest)
  obtain ⟨bs', hbs', hrest⟩ := render_blank_append_of_settled hbs htailSettled ')'
  have hlines : leading ++ tableLines head ((splitElements 0 body).map (trimWhere isBlank))
      (trimWhere isBlank rest) = x :: xs ++ ' ' :: '(' :: '\n' ::
        ([',', '\n'].intercalate
            (((splitElements 0 body).map (trimWhere isBlank)).map (indent ++ ·)) ++
          '\n' :: ')' :: (bs ++ trimWhere isBlank rest)) := by
    rw [← hfront, tableLines, ← htail]
    simp
  have hspaces : ∃ sp, sp.all isBlank = true ∧
      (if keeps (lastSolid x xs) '(' then [' '] else []) = sp ∧ blanks <+: sp := by
    refine ⟨_, by split <;> decide, rfl, ?_⟩
    obtain rfl | ⟨rfl, hkeep⟩ := blanks_before_opening hbehind hblanks
    · exact List.nil_prefix
    · exact (if_pos hkeep).symm ▸ List.prefix_rfl
  obtain ⟨sp, hsp, hif, hprefix⟩ := hspaces
  refine ⟨trimEndWhere isBlank head ++ sp, body', bs' ++ trimWhere isBlank rest, ?_,
    ⟨sp, hsp, rfl, ?_⟩, hbody', hsplit, ?_⟩
  · rw [canonical_eq_render hwell, hlines, render_before_opening hxs, hif,
      strokes_cons_blank (by decide), hrender, hrest, ← hfront]
    simp
  · obtain ⟨more, rfl⟩ := hprefix
    exact ⟨more, by rw [← List.append_assoc, ← hhead]⟩
  · rw [trimWhere_blank_append hbs', trimWhere_of_settled htailSettled]

theorem leadingOf_leadingOf_append {c : Char} (hc : isMark c = false) (hspace : c ≠ ' ')
    (cs ds : List Char) : leadingOf (leadingOf cs ++ c :: ds) = leadingOf cs := by
  have happend := leadingOf_append (leadingOf cs ++ c :: ds)
  rw [withoutLeading_leadingOf_append hc hspace] at happend
  exact List.append_cancel_right happend

theorem not_mem_of_all_blank {bs : List Char} (h : bs.all isBlank = true) {c : Char}
    (hc : isBlank c = false) : c ∉ bs := by
  intro hmem
  rw [List.all_eq_true.1 h c hmem] at hc
  exact absurd hc (by decide)

theorem trimEndWhere_ne_nil {cs : List Char} {c : Char} (hmem : c ∈ cs) (hc : isBlank c = false) :
    trimEndWhere isBlank cs ≠ [] := by
  intro h
  obtain ⟨bs, hbs, hcs⟩ := trimEndWhere_append isBlank cs
  rw [h, List.nil_append] at hcs
  rw [hcs] at hmem
  exact not_mem_of_all_blank hbs hc hmem

/-- The arrangement of other statements keeps their strokes. -/
theorem strokes_of_arrangeBare {segments : List (List Char)} {cs ds : List Char}
    (h : arrangeBare segments cs = .ok ds) (htable : ¬ createTable <+: cs) (b : Bool) :
    strokes b ds = strokes b cs := by
  have hprefix : ¬ "CREATE TABLE ".toList.isPrefixOf cs = true :=
    fun h => htable (List.isPrefixOf_iff_prefix.1 h)
  rw [arrangeBare, if_neg hprefix] at h
  cases hlength : unmask segments cs with
  | error e => simp [hlength, bind, Except.bind] at h
  | ok text =>
    simp only [hlength, bind, Except.bind, pure, Except.pure] at h
    split at h
    · rw [Except.ok.inj h]
    · rw [← Except.ok.inj h, strokes_wrapFrom]

/-- The lines of a table are put on one line again, where its elements are found as they were. -/
theorem arrange_canonical_table {cs head body rest : List Char}
    (hw : WellMasked (leadingOf cs ++ (head ++ '(' :: (body ++ ')' :: rest))))
    (hs : Settled (leadingOf cs ++ (head ++ '(' :: (body ++ ')' :: rest))))
    (hstart : createTable <+: head) (hopen : head.all (· != '(') = true)
    (hclose : splitClosing 0 (body ++ ')' :: rest) = some (body, rest))
    (hne : ((splitElements 0 body).map (trimWhere isBlank)).all (·.isEmpty) = false)
    (segments : List (List Char)) :
    arrange segments (canonical
        (leadingOf cs ++ arrangeTable (head ++ '(' :: (body ++ ')' :: rest)))) =
      .ok (leadingOf cs ++ arrangeTable (head ++ '(' :: (body ++ ')' :: rest))) := by
  have hbody := depthBehind_eq_zero_of_splitClosing hclose
  have hmem : 'C' ∈ head := hstart.subset (by decide)
  obtain ⟨head', body', rest', hcanonical, ⟨bs, hbs, hhead', hprefix⟩, hbody', helements,
    hrest⟩ := canonical_tableLines hw hs hbody (trimEndWhere_ne_nil hmem (by decide))
  have hstart' : createTable <+: head' ++ '(' :: (body' ++ ')' :: rest') :=
    (hstart.trans hprefix).trans (List.prefix_append _ _)
  have hopen' : head'.all (· != '(') = true := by
    obtain ⟨blanks, -, hblanks⟩ := trimEndWhere_append isBlank head
    rw [hblanks, List.all_append, Bool.and_eq_true] at hopen
    rw [hhead', List.all_append, hopen.1, Bool.true_and]
    exact List.all_eq_true.2 fun c hc => by
      rw [bne_iff_ne]
      rintro rfl
      exact not_mem_of_all_blank hbs (by decide) hc
  obtain ⟨tail, htail⟩ : ∃ tail, head' ++ '(' :: (body' ++ ')' :: rest') = 'C' :: tail := by
    obtain ⟨tail, htail⟩ := hstart'
    exact ⟨_, htail.symm⟩
  rw [arrangeTable_of_body hopen hclose hne, hcanonical, arrange_eq_ok_iff]
  refine ⟨arrangeTable (head' ++ '(' :: (body' ++ ')' :: rest')), ?_, ?_⟩
  · rw [htail, withoutLeading_leadingOf_append (by decide) (by decide), ← htail,
      arrangeBare_table hstart']
  · rw [htail, leadingOf_leadingOf_append (by decide) (by decide), ← htail,
      arrangeTable_of_body hopen' (splitClosing_append hbody' rest')
        (by rw [helements]; exact hne), helements, hrest, tableLines, tableLines, hhead',
      trimEndWhere_append_blank hbs, trimEndWhere_of_blankBehind (blankBehind_trimEndWhere _)]

/-- A statement arranged in lines is arranged in the same lines again, whatever its segments are;
any other arranged statement has its old canonical form. -/
theorem canonical_arranged {segments : List (List Char)} {cs ds : List Char}
    (hw : WellMasked cs) (hs : Settled cs) (h : arrange segments cs = .ok ds) :
    canonical ds = cs ∨ ∀ segments', arrange segments' (canonical ds) = .ok ds := by
  have hink : WellMasked ds := hw.of_ink_eq (ink_of_arrange h .free)
  obtain ⟨bare, hbare, rfl⟩ := arrange_eq_ok_iff.1 h
  have hsplit := leadingOf_append cs
  by_cases htable : createTable <+: withoutLeading cs
  · rw [arrangeBare_table htable] at hbare
    obtain rfl := Except.ok.inj hbare
    obtain hsame | ⟨head, inside, body, rest, hopen, hcs, hclose, hne⟩ :=
      arrangeTable_cases (withoutLeading cs)
    · rw [hsame, hsplit]
      exact .inl (canonical_of_settled hw hs)
    · obtain rfl := of_splitClosing_eq_some hclose
      rw [hcs] at hsplit htable ⊢
      rw [← hsplit] at hw hs
      have hstart : createTable <+: head := prefix_of_prefix_append_cons htable (by decide)
      exact .inr fun segments' => arrange_canonical_table hw hs hstart hopen hclose hne segments'
  · -- only spaces were turned into line breaks
    have hstrokes : strokes false (leadingOf cs ++ bare) = strokes false cs := by
      rw [strokes_append, strokes_of_arrangeBare hbare htable, ← strokes_append, hsplit]
    rw [canonical_eq_render hink, hstrokes, ← canonical_eq_render hw]
    exact .inl (canonical_of_settled hw hs)

end PgSchema.Layout
