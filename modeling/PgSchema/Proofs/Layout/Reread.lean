/-
# Layouts with longer line comments

When open line comments have taken the white space behind them, the statements are the same, but
the segments are longer.  The arranged statements get no shorter then, so the layout of the new
glyphs is not the old text again.

* `statements_absorb` : taken white space does not count for the statements;
* `absorb_of_layout_eq` : if the new layout is the old one, no white space has been taken.
-/
import PgSchema.Proofs.Layout.Absorb
import PgSchema.Proofs.Layout.Rearrange
import PgSchema.Proofs.Layout.Statements

namespace PgSchema.Layout

open Text Glyph

/-! ## White space behind line marks -/

/-- Strokes without the white space behind line marks; `c` is the character before. -/
def unspaced (c : Char) (S : List (Bool × Char)) : List (Bool × Char) :=
  clear (fun c _ => c != lineMark) c S

theorem unspaced_append (c d : Char) (b : Bool) (S T : List (Bool × Char)) :
    unspaced c (S ++ (b, d) :: T) = unspaced c (S ++ [(b, d)]) ++ unspaced d T := by
  induction S generalizing c with
  | nil => rfl
  | cons s S ih =>
    obtain ⟨b', e⟩ := s
    exact congrArg ((b' && c != lineMark, e) :: ·) (ih e)

theorem map_snd_unspaced (c : Char) (S : List (Bool × Char)) :
    (unspaced c S).map Prod.snd = S.map Prod.snd := by
  induction S generalizing c with
  | nil => rfl
  | cons s S ih => exact congrArg (s.2 :: ·) (ih s.2)

/-- The canonical form has no white space behind line marks. -/
theorem clear_keeps_unspaced (c : Char) (S : List (Bool × Char)) :
    clear keeps c (unspaced c S) = clear keeps c S := by
  rw [unspaced, clear_clear]
  congr 1
  funext c d
  simp only [keeps, bne]
  cases c == lineMark <;> simp

theorem settle_congr {c : Char} {S T : List (Bool × Char)} (h : unspaced c S = unspaced c T) :
    settle S = settle T := by
  cases S with
  | nil =>
    cases T with
    | nil => rfl
    | cons t T => simp [unspaced, clear] at h
  | cons s S =>
    cases T with
    | nil => simp [unspaced, clear] at h
    | cons t T =>
      obtain ⟨b, d⟩ := s
      obtain ⟨b', e⟩ := t
      obtain ⟨hhead, htail⟩ := List.cons.inj h
      obtain ⟨-, rfl⟩ := Prod.mk.inj hhead
      have hrest : clear keeps d S = clear keeps d T := by
        rw [← clear_keeps_unspaced, ← clear_keeps_unspaced d T]
        exact congrArg (clear keeps d) htail
      rw [settle, settle, settleWith, settleWith, hrest]

/-- White space in front does not count behind a line mark. -/
theorem unspaced_line (b b' : Bool) (cs : List Char) :
    unspaced lineMark (strokes b cs) = unspaced lineMark (strokes b' cs) := by
  cases cs with
  | nil => rfl
  | cons c cs =>
    by_cases hc : isBlank c = true
    · rw [strokes_cons_blank hc, strokes_cons_blank hc]
    · rw [Bool.not_eq_true] at hc
      simp [strokes_cons hc, unspaced, clear]

theorem unspaced_maskOf_append {mark : Char} (hmark : isMark mark = true) (number : Nat) (b : Bool)
    (c : Char) (cs : List Char) : unspaced c (strokes b (maskOf mark number ++ cs)) =
      unspaced c (strokes b (maskOf mark number)) ++ unspaced mark (strokes false cs) := by
  have hblank := isBlank_of_isMark hmark
  have hsplit : ∀ ds, strokes b (maskOf mark number ++ ds) =
      strokes b (mark :: (toString number).toList) ++
        (blankBehind b (mark :: (toString number).toList), mark) :: strokes false ds := by
    intro ds
    rw [maskOf, List.append_assoc, strokes_append, List.singleton_append]
    exact congrArg _ (strokes_cons hblank)
  have hnil := hsplit []
  rw [List.append_nil] at hnil
  rw [hsplit cs, hnil, unspaced_append]
  rfl

/-- White space taken by line comments does not count. -/
theorem unspaced_absorb {gs : List Glyph} (hgs : ∀ g ∈ gs, g.IsProper) (number : Nat) (b : Bool)
    (c : Char) : unspaced c (strokes b (maskGlyphs number (absorb gs))) =
      unspaced c (strokes b (maskGlyphs number gs)) := by
  induction gs using absorb_induction generalizing number b c with
  | nil => rfl
  | char d gs ih =>
    have ih := ih (List.forall_mem_cons.1 hgs).2
    rw [absorb_char, maskGlyphs, maskGlyphs]
    by_cases hd : isBlank d = true
    · rw [strokes_cons_blank hd, strokes_cons_blank hd, ih]
    · rw [Bool.not_eq_true] at hd
      rw [strokes_cons hd, strokes_cons hd]
      exact congrArg ((b && c != lineMark, d) :: ·) (ih number false d)
  | segment mark text gs h ih =>
    obtain ⟨hmark, hgs⟩ := List.forall_mem_cons.1 hgs
    rw [absorb_segment h, maskGlyphs, maskGlyphs, unspaced_maskOf_append hmark,
      unspaced_maskOf_append hmark, ih hgs]
  | open_ mark text gs h ih =>
    obtain ⟨hmark, hgs⟩ := List.forall_mem_cons.1 hgs
    have hdrop : ∀ g ∈ gs.drop (feed gs).length, g.IsProper :=
      fun g hg => hgs g (List.mem_of_mem_drop hg)
    have hline : mark = lineMark := by
      rw [isOpen, Bool.and_eq_true, beq_iff_eq] at h
      exact h.1
    rw [absorb_open h, maskGlyphs, maskGlyphs, unspaced_maskOf_append hmark,
      unspaced_maskOf_append hmark, ih hdrop]
    -- the white space taken stood behind a line mask, where it does not count
    conv => rhs; rw [← feed_append_drop gs, maskGlyphs_chars_append, strokes_append,
      strokes_of_all_blank (all_isBlank_feed gs), List.nil_append]
    rw [hline, unspaced_line]

/-! ## Statements -/

/-- Texts with the same characters other than white space have the same semicolons. -/
theorem filter_eq_of_unspaced_eq {b : Bool} {c : Char} {cs ds : List Char}
    (h : unspaced c (strokes b cs) = unspaced c (strokes b ds)) :
    (cs.filter fun c => !isBlank c) = ds.filter fun c => !isBlank c := by
  rw [← map_snd_strokes b, ← map_snd_strokes b, ← map_snd_unspaced c, h, map_snd_unspaced]

/-- White space behind line marks does not count for the statements of a masked text. -/
theorem statements_congr {cs ds : List Char} (hcs : WellMasked cs) (hds : WellMasked ds) {c : Char}
    (h : unspaced c (strokes false cs) = unspaced c (strokes false ds)) :
    statements cs = statements ds := by
  have hmem : ∀ es : List Char, ';' ∈ es ↔ ';' ∈ es.filter fun c => !isBlank c := by
    intro es
    simp only [List.mem_filter, and_iff_left (by decide : (!isBlank ';') = true)]
  induction cs using statement_induction generalizing ds c with
  | last cs hfree =>
    have hfree' : ';' ∉ ds := by
      rw [hmem, filter_eq_of_unspaced_eq h, ← hmem] at hfree
      exact hfree
    rw [statements_of_notMem hfree, statements_of_notMem hfree', canonical_eq_render hcs,
      canonical_eq_render hds, settle_congr h]
  | next as cs hfree ih =>
    obtain ⟨bs, es, rfl, hfree'⟩ : ∃ bs es, ds = bs ++ ';' :: es ∧ ';' ∉ bs := by
      apply List.eq_append_cons_of_mem
      rw [hmem, ← filter_eq_of_unspaced_eq h, ← hmem]
      exact List.mem_append_right as List.mem_cons_self
    obtain ⟨hfirst, hrest⟩ := wellMasked_of_append (by decide) hcs
    obtain ⟨hfirst', hrest'⟩ := wellMasked_of_append (by decide) hds
    -- the statements have as many characters other than white space
    have hfilter := filter_eq_of_unspaced_eq h
    have hkeep : ∀ es : List Char, ((';' :: es).filter fun c => !isBlank c) =
        ';' :: es.filter fun c => !isBlank c := fun es => List.filter_cons_of_pos (by decide)
    rw [List.filter_append, List.filter_append, hkeep, hkeep] at hfilter
    have hlength := (append_cons_inj hfilter (fun h => hfree ((hmem as).2 h))
      (fun h => hfree' ((hmem bs).2 h))).1
    have hsplit : ∀ as cs : List Char, unspaced c (strokes false (as ++ ';' :: cs)) =
        unspaced c (strokes false (as ++ [';'])) ++ unspaced ';' (strokes false cs) := by
      intro as cs
      rw [strokes_append, strokes_append, strokes_cons (by decide), strokes_cons (by decide),
        unspaced_append]
      rfl
    rw [hsplit as cs, hsplit bs es] at h
    have hcount : ∀ as : List Char, (unspaced c (strokes false (as ++ [';']))).length =
        (as.filter fun c => !isBlank c).length + 1 := by
      intro as
      rw [← List.length_map (f := Prod.snd), map_snd_unspaced, map_snd_strokes, List.filter_append,
        hkeep, List.length_append]
      rfl
    obtain ⟨hstatement, htail⟩ := List.append_inj h (by rw [hcount, hcount, hlength])
    rw [statements_append hfree, statements_append hfree', canonical_eq_render hfirst,
      canonical_eq_render hfirst', settle_congr hstatement, ih hrest hrest' htail]

/-- White space taken by line comments does not count for the statements. -/
theorem statements_absorb {gs : List Glyph} (hgs : ∀ g ∈ gs, g.IsProper) :
    statements (maskGlyphs 0 (absorb gs)) = statements (maskGlyphs 0 gs) :=
  statements_congr (c := ' ') ⟨0, _, isProper_absorb hgs, rfl⟩ ⟨0, gs, hgs, rfl⟩
    (unspaced_absorb hgs 0 false ' ')

/-! ## Longer segments -/

/-- Holds when each segment is at most as long as the one with its number in the other list. -/
def NoLonger (kept kept' : List (List Char)) : Prop :=
  ∀ (n : Nat) (t t' : List Char), kept[n]? = some t → kept'[n]? = some t' → t.length ≤ t'.length

theorem length_segmentOf_le {kept kept' : List (List Char)} (h : NoLonger kept kept')
    {digits t t' : List Char} (ht : segmentOf kept digits = .ok t)
    (ht' : segmentOf kept' digits = .ok t') : t.length ≤ t'.length := by
  rw [segmentOf] at ht ht'
  cases hread : Number.readInteger (String.ofList digits) with
  | error fault => simp [hread] at ht
  | ok n =>
    simp only [hread] at ht ht'
    cases hn : kept[n.toNat]? with
    | none => simp [hn] at ht
    | some u =>
      cases hn' : kept'[n.toNat]? with
      | none => simp [hn'] at ht'
      | some u' =>
        simp only [hn, hn', Except.ok.injEq] at ht ht'
        rw [← ht, ← ht']
        exact h _ _ _ hn hn'

theorem length_unmask_le {kept kept' : List (List Char)} (h : NoLonger kept kept')
    {cs ds ds' : List Char} (hds : unmask kept cs = .ok ds) (hds' : unmask kept' cs = .ok ds') :
    ds.length ≤ ds'.length := by
  induction cs using mask_induction generalizing ds ds' with
  | nil =>
    obtain rfl := Except.ok.inj hds
    exact Nat.zero_le _
  | mask m d digits rest hm hd hne hdigits ih =>
    rw [unmask_mask_append _ hm hd hne hdigits] at hds hds'
    obtain ⟨t, ht, hds⟩ := bind_eq_ok_iff.1 hds
    obtain ⟨t', ht', hds'⟩ := bind_eq_ok_iff.1 hds'
    obtain ⟨es, hes, heq⟩ := bind_eq_ok_iff.1 hds
    obtain ⟨es', hes', heq'⟩ := bind_eq_ok_iff.1 hds'
    rw [← Except.ok.inj heq, ← Except.ok.inj heq', List.length_append, List.length_append]
    exact Nat.add_le_add (length_segmentOf_le h ht ht') (ih hes hes')
  | char c cs hnone ih =>
    rw [unmask_cons_of_eq_none _ hnone] at hds hds'
    obtain ⟨es, hes, heq⟩ := bind_eq_ok_iff.1 hds
    obtain ⟨es', hes', heq'⟩ := bind_eq_ok_iff.1 hds'
    rw [← Except.ok.inj heq, ← Except.ok.inj heq']
    exact Nat.succ_le_succ (ih hes hes')

/-- Wrapping makes a statement longer. -/
theorem length_le_length_wrapFrom (depth : Int) (keywords : List (List Char)) (cs : List Char) :
    cs.length ≤ (wrapFrom depth keywords cs).length := by
  fun_induction wrapFrom depth keywords cs with
  | case1 => exact Nat.le_refl _
  | case2 depth keywords c cs _ ih => exact Nat.succ_le_succ ih
  | case3 depth keywords c cs _ _ ih => exact Nat.succ_le_succ ih
  | case4 depth keywords c cs _ _ _ keyword _ ih =>
    simp only [List.length_cons, List.length_append]
    omega
  | case5 depth keywords c cs _ _ _ _ ih => exact Nat.succ_le_succ ih
  | case6 depth keywords c cs _ _ _ ih => exact Nat.succ_le_succ ih

/-- With longer segments a statement is wrapped if it was wrapped before. -/
theorem length_arrangeBare_le {kept kept' : List (List Char)} (h : NoLonger kept kept')
    {cs ds ds' : List Char} (hds : arrangeBare kept cs = .ok ds)
    (hds' : arrangeBare kept' cs = .ok ds') : ds.length ≤ ds'.length := by
  by_cases htable : createTable <+: cs
  · rw [arrangeBare_table htable] at hds hds'
    obtain rfl := Except.ok.inj (hds.symm.trans hds')
    exact Nat.le_refl _
  · have hprefix : ¬ "CREATE TABLE ".toList.isPrefixOf cs = true :=
      fun h => htable (List.isPrefixOf_iff_prefix.1 h)
    rw [arrangeBare, if_neg hprefix] at hds hds'
    obtain ⟨es, hes, hds⟩ := bind_eq_ok_iff.1 hds
    obtain ⟨es', hes', hds'⟩ := bind_eq_ok_iff.1 hds'
    have hlength := length_unmask_le h hes hes'
    split at hds
    · rw [← Except.ok.inj hds]
      split at hds'
      · exact Nat.le_of_eq (congrArg _ (Except.ok.inj hds'))
      · rw [← Except.ok.inj hds']
        exact length_le_length_wrapFrom ..
    · next hlong =>
      have hlong' : ¬ es'.length ≤ maxLineLength := by omega
      rw [if_neg hlong'] at hds'
      exact Nat.le_of_eq (congrArg _ ((Except.ok.inj hds).symm.trans (Except.ok.inj hds')))

theorem length_arrange_le {kept kept' : List (List Char)} (h : NoLonger kept kept')
    {cs ds ds' : List Char} (hds : arrange kept cs = .ok ds) (hds' : arrange kept' cs = .ok ds') :
    ds.length ≤ ds'.length := by
  obtain ⟨bare, hbare, rfl⟩ := arrange_eq_ok_iff.1 hds
  obtain ⟨bare', hbare', rfl⟩ := arrange_eq_ok_iff.1 hds'
  rw [List.length_append, List.length_append]
  exact Nat.add_le_add_left (length_arrangeBare_le h hbare hbare') _

/-- With longer segments the arranged statements, joined, get no shorter. -/
theorem length_intercalate_arranged_le {kept kept' : List (List Char)} (h : NoLonger kept kept')
    (sep : List Char) {css arranged arranged' : List (List Char)}
    (harranged : css.mapM (arrange kept) = .ok arranged)
    (harranged' : css.mapM (arrange kept') = .ok arranged') :
    (sep.intercalate arranged).length ≤ (sep.intercalate arranged').length := by
  induction css generalizing arranged arranged' with
  | nil =>
    obtain rfl := Except.ok.inj harranged
    exact Nat.zero_le _
  | cons cs css ih =>
    obtain ⟨ds, rest, hds, hrest, rfl⟩ := mapM_cons_eq_ok_iff.1 harranged
    obtain ⟨ds', rest', hds', hrest', rfl⟩ := mapM_cons_eq_ok_iff.1 harranged'
    have hfirst := length_arrange_le h hds hds'
    have htail := ih hrest hrest'
    cases css with
    | nil =>
      obtain rfl := Except.ok.inj hrest
      obtain rfl := Except.ok.inj hrest'
      simpa using hfirst
    | cons cs' css =>
      obtain ⟨es, rest, -, -, rfl⟩ := mapM_cons_eq_ok_iff.1 hrest
      obtain ⟨es', rest', -, -, rfl⟩ := mapM_cons_eq_ok_iff.1 hrest'
      rw [List.intercalate_cons_cons, List.intercalate_cons_cons]
      simp only [List.length_append]
      omega

/-! ## The layout of longer line comments -/

/-- The number of characters in the masks of segments, the first of which has the given number. -/
def maskLengths (number : Nat) : Nat → Nat
  | 0 => 0
  | count + 1 => (maskOf lineMark number).length + maskLengths (number + 1) count

theorem length_maskOf (mark mark' : Char) (number : Nat) :
    (maskOf mark number).length = (maskOf mark' number).length := by
  simp [maskOf]

theorem length_maskGlyphs (number : Nat) (gs : List Glyph) :
    (maskGlyphs number gs).length + (segmentsOf gs).length =
      gs.length + maskLengths number (segmentsOf gs).length := by
  induction gs generalizing number with
  | nil => rfl
  | cons g gs ih =>
    cases g with
    | char c =>
      have hsegments : segmentsOf (char c :: gs) = segmentsOf gs := rfl
      have := ih number
      rw [maskGlyphs, hsegments, List.length_cons, List.length_cons]
      omega
    | segment mark text =>
      have hsegments : segmentsOf (segment mark text :: gs) = text :: segmentsOf gs := rfl
      have := ih (number + 1)
      rw [maskGlyphs, hsegments, List.length_cons, List.length_cons, List.length_append,
        maskLengths, length_maskOf mark lineMark]
      omega

theorem length_textOf (gs : List Glyph) :
    (textOf gs).length + (segmentsOf gs).length = gs.length + (segmentsOf gs).flatten.length := by
  induction gs with
  | nil => rfl
  | cons g gs ih =>
    rw [textOf_cons, List.length_append]
    cases g with
    | char c =>
      have hsegments : segmentsOf (char c :: gs) = segmentsOf gs := rfl
      simp only [hsegments, Glyph.text, List.length_cons, List.length_nil]
      omega
    | segment mark text =>
      have hsegments : segmentsOf (segment mark text :: gs) = text :: segmentsOf gs := rfl
      rw [hsegments, Glyph.text, List.length_cons, List.length_cons, List.flatten_cons,
        List.length_append]
      omega

theorem noLonger_cons {t t' : List Char} {kept kept' : List (List Char)}
    (ht : t.length ≤ t'.length) (h : NoLonger kept kept') : NoLonger (t :: kept) (t' :: kept') := by
  intro n u u' hu hu'
  cases n with
  | zero =>
    obtain rfl : t = u := Option.some.inj hu
    obtain rfl : t' = u' := Option.some.inj hu'
    exact ht
  | succ n => exact h n u u' hu hu'

/-- Line comments that take white space get longer. -/
theorem segmentsOf_absorb (gs : List Glyph) :
    (segmentsOf (absorb gs)).length = (segmentsOf gs).length ∧
      NoLonger (segmentsOf gs) (segmentsOf (absorb gs)) := by
  have hsegments : ∀ mark text gs, segmentsOf (segment mark text :: gs) = text :: segmentsOf gs :=
    fun _ _ _ => rfl
  induction gs using absorb_induction with
  | nil => exact ⟨rfl, fun n t t' ht => by simp [segmentsOf] at ht⟩
  | char c gs ih => exact ih
  | segment mark text gs h ih =>
    rw [absorb_segment h, hsegments, hsegments]
    exact ⟨congrArg (· + 1) ih.1, noLonger_cons (Nat.le_refl _) ih.2⟩
  | open_ mark text gs h ih =>
    have hdrop := congrArg segmentsOf (feed_append_drop gs)
    rw [segmentsOf_append, segmentsOf_chars, List.nil_append] at hdrop
    rw [hdrop] at ih
    rw [absorb_open h, hsegments, hsegments]
    refine ⟨congrArg (· + 1) ih.1, noLonger_cons ?_ ih.2⟩
    rw [List.length_append]
    exact Nat.le_add_right ..

/-- If the arranged statements of a layout with longer line comments give its text again, no white
space has been taken. -/
theorem absorb_of_layout_eq {gs hs : List Glyph} {arranged arranged' : List (List Char)}
    (hgs : ∀ g ∈ gs, g.IsProper)
    (h : (statements (maskGlyphs 0 gs)).mapM (arrange (segmentsOf gs)) = .ok arranged)
    (hmask : ['\n', '\n'].intercalate arranged = maskGlyphs 0 gs)
    (h' : (statements (maskGlyphs 0 (absorb gs))).mapM (arrange (segmentsOf (absorb gs))) =
      .ok arranged')
    (hmask' : ['\n', '\n'].intercalate arranged' = maskGlyphs 0 hs)
    (hsegments : segmentsOf hs = segmentsOf (absorb gs)) (htext : textOf hs = textOf gs) :
    absorb gs = gs := by
  obtain ⟨hcount, hlonger⟩ := segmentsOf_absorb gs
  rw [statements_absorb hgs] at h'
  have hlength := length_intercalate_arranged_le hlonger ['\n', '\n'] h h'
  rw [hmask, hmask'] at hlength
  -- as many glyphs as the new ones, since they have the same segments and the same text
  have hglyphs : hs.length = (absorb gs).length := by
    have hhs := length_textOf hs
    have habsorb := length_textOf (absorb gs)
    rw [hsegments, htext] at hhs
    rw [textOf_absorb] at habsorb
    omega
  have hle : gs.length ≤ hs.length := by
    have hhs := length_maskGlyphs 0 hs
    have hold := length_maskGlyphs 0 gs
    rw [hsegments, hcount] at hhs
    omega
  have hshorter := length_absorb gs
  exact hshorter.2 (by omega)

end PgSchema.Layout
