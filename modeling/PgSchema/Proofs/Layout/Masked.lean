/-
# Texts among others

A script is masked and restored as a whole.  A text in it comes out as it would alone: its masks
have other numbers in the script, under which the segments of the script are found.

* `MaskedIn` : the masked text of glyphs that stand in a script;
* `Restores` : a masked text that is put back in front of others;
* `lineOf`, `linesOf` : the line of a text, and its lines when it is cut at its commas;
* `MaskedIn.restores_line`, `MaskedIn.restores_lines` : among others a text has the same lines.
-/
import PgSchema.Proofs.Layout.Join

namespace PgSchema.Layout

open Text Glyph

/-! ## Members of lists -/

theorem mem_of_mem_intercalate {α : Type} {c : α} {sep : List α} {css : List (List α)}
    (h : c ∈ sep.intercalate css) : c ∈ sep ∨ ∃ cs ∈ css, c ∈ cs := by
  induction css with
  | nil => cases h
  | cons cs css ih =>
    cases css with
    | nil => exact .inr ⟨cs, List.mem_cons_self, by rwa [List.intercalate_singleton] at h⟩
    | cons ds css =>
      rw [List.intercalate_cons_cons, List.append_assoc, List.mem_append, List.mem_append] at h
      obtain h | h | h := h
      · exact .inr ⟨cs, List.mem_cons_self, h⟩
      · exact .inl h
      · obtain hsep | ⟨es, hes, hc⟩ := ih h
        · exact .inl hsep
        · exact .inr ⟨es, List.mem_cons_of_mem _ hes, hc⟩

theorem exists_of_mem_right {α β : Type} {R : α → β → Prop} {xs : List α} {ys : List β}
    (h : List.Forall₂ R xs ys) {y : β} (hy : y ∈ ys) : ∃ x ∈ xs, R x y := by
  induction h with
  | nil => cases hy
  | cons h _ ih =>
    obtain rfl | hy := List.mem_cons.1 hy
    · exact ⟨_, List.mem_cons_self, h⟩
    · obtain ⟨x, hx, hR⟩ := ih hy
      exact ⟨x, List.mem_cons_of_mem _ hx, hR⟩

/-! ## Loose characters -/

/-- The character of a glyph that is no segment. -/
def Glyph.loose? : Glyph → Option Char
  | char c => some c
  | segment _ _ => none

/-- The characters of a text outside its segments. -/
def looseOf (gs : List Glyph) : List Char := gs.filterMap loose?

variable {gs : List Glyph}

/-- The loose characters of a masked text stay, but for those that masks are made of. -/
theorem filter_maskGlyphs (hgs : ∀ g ∈ gs, g.IsProper) (number : Nat) :
    (maskGlyphs number gs).filter (!isMaskChar ·) = (looseOf gs).filter (!isMaskChar ·) := by
  induction gs generalizing number with
  | nil => rfl
  | cons g gs ih =>
    obtain ⟨hg, hrest⟩ := List.forall_mem_cons.1 hgs
    cases g with
    | char c =>
      have hloose : looseOf (char c :: gs) = c :: looseOf gs := rfl
      rw [maskGlyphs, hloose, List.filter_cons, List.filter_cons, ih hrest]
    | segment mark text =>
      have hloose : looseOf (segment mark text :: gs) = looseOf gs := rfl
      have hmask : (maskOf mark number).filter (!isMaskChar ·) = [] := by
        rw [List.filter_eq_nil_iff]
        intro c hc
        simp [isMaskChar_of_mem_maskOf hg hc]
      rw [maskGlyphs, hloose, List.filter_append, hmask, List.nil_append, ih hrest]

theorem not_isMaskChar_of_isPunctuation (c : Char) (hc : isPunctuation c = true) :
    (!isMaskChar c) = true := by
  rw [isMaskChar_of_isPunctuation hc]
  rfl

theorem depthBehind_maskGlyphs (hgs : ∀ g ∈ gs, g.IsProper) (number depth : Nat) :
    depthBehind depth (maskGlyphs number gs) = depthBehind depth (looseOf gs) := by
  rw [← depthBehind_filter not_isMaskChar_of_isPunctuation, filter_maskGlyphs hgs,
    depthBehind_filter not_isMaskChar_of_isPunctuation]

theorem elementDepth_maskGlyphs (hgs : ∀ g ∈ gs, g.IsProper) (number depth : Nat) :
    elementDepth depth (maskGlyphs number gs) = elementDepth depth (looseOf gs) := by
  rw [← elementDepth_filter not_isMaskChar_of_isPunctuation, filter_maskGlyphs hgs,
    elementDepth_filter not_isMaskChar_of_isPunctuation]

theorem mem_maskGlyphs_iff {c : Char} (hc : isMaskChar c = false) (hgs : ∀ g ∈ gs, g.IsProper)
    (number : Nat) : c ∈ maskGlyphs number gs ↔ c ∈ looseOf gs := by
  have hfilter (cs : List Char) : c ∈ cs ↔ c ∈ cs.filter (!isMaskChar ·) := by
    rw [List.mem_filter, hc]
    exact (and_iff_left rfl).symm
  rw [hfilter, filter_maskGlyphs hgs, ← hfilter]

/-- A character of a text that masking does not take away leaves one in the masked text. -/
theorem exists_mem_maskGlyphs {p : Char → Bool} (hp : ∀ c, isMark c = true → p c = true)
    (hgs : ∀ g ∈ gs, g.IsProper) (number : Nat) {c : Char} (hc : c ∈ textOf gs) (hpc : p c = true) :
    ∃ d ∈ maskGlyphs number gs, p d = true := by
  obtain ⟨g, hg, htext⟩ := List.mem_flatMap.1 hc
  have hproper := hgs g hg
  obtain ⟨as, bs, rfl⟩ := List.append_of_mem hg
  rw [maskGlyphs_append]
  cases g with
  | char d =>
    obtain rfl := List.mem_singleton.1 htext
    exact ⟨c, List.mem_append_right _ List.mem_cons_self, hpc⟩
  | segment mark text =>
    exact ⟨mark, List.mem_append_right _ List.mem_cons_self, hp mark hproper⟩

/-! ## Glyphs among others -/

/-- Holds for the masked text of glyphs that stand in a statement with the segments `kept`. -/
def MaskedIn (kept : List (List Char)) (gs : List Glyph) (cs : List Char) : Prop :=
  ∃ front back, kept = front ++ segmentsOf gs ++ back ∧ cs = maskGlyphs front.length gs

namespace MaskedIn

variable {kept : List (List Char)} {hs : List Glyph} {cs text : List Char}

theorem refl (gs : List Glyph) : MaskedIn (segmentsOf gs) gs (maskGlyphs 0 gs) :=
  ⟨[], [], by rw [List.nil_append, List.append_nil], rfl⟩

theorem of_append (h : MaskedIn kept (gs ++ hs) cs) :
    ∃ as bs, cs = as ++ bs ∧ MaskedIn kept gs as ∧ MaskedIn kept hs bs := by
  obtain ⟨front, back, hkept, rfl⟩ := h
  rw [segmentsOf_append] at hkept
  refine ⟨_, _, maskGlyphs_append _ gs hs, ⟨front, segmentsOf hs ++ back, ?_, rfl⟩,
    front ++ segmentsOf gs, back, ?_, by rw [List.length_append]⟩
  · rw [hkept]
    simp only [List.append_assoc]
  · rw [hkept]
    simp only [List.append_assoc]

theorem of_chars (h : MaskedIn kept (cs.map char) text) : text = cs := by
  obtain ⟨front, back, -, rfl⟩ := h
  exact maskGlyphs_chars _ cs

theorem of_chars_append (h : MaskedIn kept (cs.map char ++ hs) text) :
    ∃ bs, text = cs ++ bs ∧ MaskedIn kept hs bs := by
  obtain ⟨as, bs, rfl, has, hbs⟩ := h.of_append
  rw [has.of_chars]
  exact ⟨bs, rfl, hbs⟩

theorem of_cons {c : Char} (h : MaskedIn kept (char c :: hs) text) :
    ∃ bs, text = c :: bs ∧ MaskedIn kept hs bs := by
  have hchars : MaskedIn kept ([c].map char ++ hs) text := h
  exact hchars.of_chars_append

/-- Elements on lines of their own. -/
theorem of_intercalate {elements : List (List Glyph)}
    (h : MaskedIn kept
      ([char ',', char '\n'].intercalate (elements.map (indent.map char ++ ·))) cs) :
    ∃ ms, cs = [',', '\n'].intercalate (ms.map (indent ++ ·)) ∧
      List.Forall₂ (MaskedIn kept) elements ms := by
  -- a separator stands between two elements only, so the last element is a case of its own
  induction elements generalizing cs with
  | nil =>
    have hnil : MaskedIn kept (([] : List Char).map char) cs := h
    exact ⟨[], hnil.of_chars, .nil⟩
  | cons gs elements ih =>
    cases elements with
    | nil =>
      rw [List.map_singleton, List.intercalate_singleton] at h
      obtain ⟨m, rfl, hm⟩ := h.of_chars_append
      exact ⟨[m], by rw [List.map_singleton, List.intercalate_singleton], .cons hm .nil⟩
    | cons gs' elements =>
      rw [List.map_cons, List.map_cons, List.intercalate_cons_cons, ← List.map_cons,
        List.append_assoc, List.append_assoc] at h
      obtain ⟨as, rfl, has⟩ := h.of_chars_append
      obtain ⟨m, bs, rfl, hm, hbs⟩ := has.of_append
      have hsep : MaskedIn kept ([',', '\n'].map char ++ _) bs := hbs
      obtain ⟨rest, rfl, hrest⟩ := hsep.of_chars_append
      obtain ⟨ms, rfl, hms⟩ := ih hrest
      cases hms with
      | cons hm' hms =>
        refine ⟨m :: _ :: _, ?_, .cons hm (.cons hm' hms)⟩
        simp only [List.map_cons, List.intercalate_cons_cons, List.append_assoc]

theorem length_le (h : MaskedIn kept gs cs) : (segmentsOf gs).length ≤ kept.length := by
  obtain ⟨front, back, rfl, -⟩ := h
  rw [List.length_append, List.length_append]
  omega

theorem wellMasked (h : MaskedIn kept gs cs) (hgs : ∀ g ∈ gs, g.IsProper) : WellMasked cs := by
  obtain ⟨front, back, -, rfl⟩ := h
  exact ⟨front.length, gs, hgs, rfl⟩

/-- The masks have shifted numbers, under which the statement has the same segments. -/
theorem exists_renumbered (h : MaskedIn kept gs cs) (hgs : ∀ g ∈ gs, g.IsProper)
    (hcount : kept.length ≤ 10 ^ Number.maxDigits) : ∃ shift,
    Renumbered shift (maskGlyphs 0 gs) cs ∧ Renumbered.Holds shift (segmentsOf gs) kept := by
  obtain ⟨front, back, rfl, rfl⟩ := h
  refine ⟨front.length, ?_, Renumbered.holds_append hcount⟩
  have hmasked := Renumbered.maskGlyphs hgs 0 front.length
  rwa [Nat.zero_add] at hmasked

theorem mem_iff {c : Char} (hc : isMaskChar c = false) (h : MaskedIn kept gs cs)
    (hgs : ∀ g ∈ gs, g.IsProper) : c ∈ cs ↔ c ∈ looseOf gs := by
  obtain ⟨front, back, -, rfl⟩ := h
  exact mem_maskGlyphs_iff hc hgs front.length

theorem depthBehind_eq (h : MaskedIn kept gs cs) (hgs : ∀ g ∈ gs, g.IsProper) (depth : Nat) :
    depthBehind depth cs = depthBehind depth (looseOf gs) := by
  obtain ⟨front, back, -, rfl⟩ := h
  exact depthBehind_maskGlyphs hgs front.length depth

theorem exists_mem {p : Char → Bool} (hp : ∀ c, isMark c = true → p c = true)
    (h : MaskedIn kept gs cs) (hgs : ∀ g ∈ gs, g.IsProper) {c : Char} (hc : c ∈ textOf gs)
    (hpc : p c = true) : ∃ d ∈ cs, p d = true := by
  obtain ⟨front, back, -, rfl⟩ := h
  exact exists_mem_maskGlyphs hp hgs front.length hc hpc

theorem all_isBlank (h : MaskedIn kept gs cs) (hgs : ∀ g ∈ gs, g.IsProper)
    (hsolid : (textOf gs).all isBlank = false) : cs.all isBlank = false := by
  obtain ⟨c, hc, hblank⟩ := List.all_eq_false.1 hsolid
  rw [Bool.not_eq_true] at hblank
  obtain ⟨d, hd, hsolid⟩ := h.exists_mem (p := (!isBlank ·))
    (fun c hc => by rw [isBlank_of_isMark hc]; rfl) hgs hc (by rw [hblank]; rfl)
  rw [List.all_eq_false]
  exact ⟨d, hd, by simpa using hsolid⟩

end MaskedIn

/-! ## Restored texts -/

/-- Holds when a masked text is put back as `text`, whatever stands behind it. -/
def Restores (kept : List (List Char)) (cs text : List Char) : Prop :=
  ∀ ds, unmask kept (cs ++ ds) = (unmask kept ds).map (text ++ ·)

section Restores

variable {kept : List (List Char)} {cs ds text text' : List Char}

theorem Restores.unmask_eq_ok (h : Restores kept cs text) : unmask kept cs = .ok text := by
  have hend := h []
  rw [List.append_nil, unmask_nil] at hend
  rw [hend]
  exact congrArg Except.ok (List.append_nil text)

theorem restores_of_unmarked (h : ∀ c ∈ cs, isMark c = false) : Restores kept cs cs :=
  fun ds => unmask_append_of_unmarked h kept ds

theorem Restores.append (h : Restores kept cs text) (h' : Restores kept ds text') :
    Restores kept (cs ++ ds) (text ++ text') := by
  intro es
  rw [List.append_assoc, h, h']
  cases unmask kept es with
  | error e => rfl
  | ok rest => exact congrArg Except.ok (List.append_assoc text text' rest).symm

theorem restores_intercalate {sep : List Char} (hsep : ∀ c ∈ sep, isMark c = false)
    {css texts : List (List Char)} (h : List.Forall₂ (Restores kept) css texts) :
    Restores kept (sep.intercalate css) (sep.intercalate texts) := by
  induction h with
  | nil => exact restores_of_unmarked (by simp)
  | cons h htail ih =>
    cases htail with
    | nil =>
      rw [List.intercalate_singleton, List.intercalate_singleton]
      exact h
    | cons =>
      rw [List.intercalate_cons_cons, List.intercalate_cons_cons]
      exact (h.append (restores_of_unmarked hsep)).append ih

end Restores

/-! ## Lines of a text -/

/-- A text on one line. -/
def lineOf (gs : List Glyph) : Except MaskError (List Char) :=
  unmask (segmentsOf gs) (canonical (maskGlyphs 0 gs))

/-- The lines of an element: its text is cut at the commas outside parentheses. -/
def linesOf (gs : List Glyph) : Except MaskError (List (List Char)) :=
  ((splitElements 0 (canonical (maskGlyphs 0 gs))).map (trimWhere isBlank)).mapM
    (unmask (segmentsOf gs))

/-- The canonical form of a masked text has the masks of the text. -/
theorem lookups_canonical (hgs : ∀ g ∈ gs, g.IsProper) :
    lookups (canonical (maskGlyphs 0 gs)) = lookups (maskGlyphs 0 gs) := by
  have hink : ink .free (tidy (maskGlyphs 0 gs)) = spellMasks 0 (glyphInk .free gs) := by
    rw [ink_tidy (by decide), ink_maskGlyphs hgs]
  obtain ⟨hs, hmask, hglyphs, hproper⟩ := exists_maskGlyphs_of_ink_eq
    (fun s hs => hgs s.2 (mem_of_mem_glyphInk hs)) hink
  rw [canonical_eq, hmask, dropAfterLineMask_maskGlyphs hproper,
    lookups_maskGlyphs (isProper_joinLines hproper), lookups_maskGlyphs hgs, segmentsOf_joinLines,
    segmentsOf_congr hglyphs]

theorem exists_segmentOf_of_mem_lookups (hgs : ∀ g ∈ gs, g.IsProper)
    (hcount : (segmentsOf gs).length ≤ 10 ^ Number.maxDigits) :
    ∀ digits ∈ lookups (canonical (maskGlyphs 0 gs)),
      ∃ segment, segmentOf (segmentsOf gs) digits = .ok segment := by
  intro digits hdigits
  rw [lookups_canonical hgs, lookups_maskGlyphs hgs] at hdigits
  obtain ⟨n, hn, rfl⟩ := List.mem_map.1 hdigits
  rw [List.mem_range'_1, Nat.zero_add] at hn
  exact ⟨(segmentsOf gs)[n], segmentOf_toString (Nat.lt_of_lt_of_le hn.2 hcount)
    (List.getElem?_eq_getElem hn.2)⟩

/-- A text has its line. -/
theorem exists_lineOf_eq_ok (hgs : ∀ g ∈ gs, g.IsProper)
    (hcount : (segmentsOf gs).length ≤ 10 ^ Number.maxDigits) : ∃ text, lineOf gs = .ok text :=
  unmask_eq_ok_iff.2 (exists_segmentOf_of_mem_lookups hgs hcount)

/-- The masks of elements are those of the body. -/
theorem mem_lookups_intercalate {digits e : List Char} {es : List (List Char)} (he : e ∈ es)
    (h : digits ∈ lookups e) : digits ∈ lookups ([','].intercalate es) := by
  induction es with
  | nil => simp at he
  | cons e' es ih =>
    cases es with
    | nil =>
      obtain rfl := List.mem_singleton.1 he
      rwa [List.intercalate_singleton]
    | cons e'' es =>
      rw [List.intercalate_cons_cons, List.append_assoc, List.singleton_append, lookups,
        lookupsFrom_append (by decide), List.mem_append]
      obtain rfl | he := List.mem_cons.1 he
      · exact .inl h
      · exact .inr (ih he)

/-- A text has its lines. -/
theorem exists_linesOf_eq_ok (hgs : ∀ g ∈ gs, g.IsProper)
    (hcount : (segmentsOf gs).length ≤ 10 ^ Number.maxDigits) :
    ∃ lines, linesOf gs = .ok lines := by
  refine exists_mapM_eq_ok_iff.2 fun line hline => ?_
  obtain ⟨e, he, rfl⟩ := List.mem_map.1 hline
  refine unmask_eq_ok_iff.2 fun digits hdigits => ?_
  refine exists_segmentOf_of_mem_lookups hgs hcount digits ?_
  rw [lookups_eq_of_ink_eq (ink_trimWhere (by decide) e)] at hdigits
  rw [← intercalate_splitElements 0 (canonical (maskGlyphs 0 gs))]
  exact mem_lookups_intercalate he hdigits

/-- A text without commas outside parentheses has one line. -/
theorem linesOf_of_elementDepth (hgs : ∀ g ∈ gs, g.IsProper)
    (h : elementDepth 0 (looseOf gs) = some 0) :
    linesOf gs = (lineOf gs).map fun line => [line] := by
  have hw : WellMasked (maskGlyphs 0 gs) := ⟨0, gs, hgs, rfl⟩
  -- neither masks nor white space count for the depth
  have hdepth : elementDepth 0 (canonical (maskGlyphs 0 gs)) = some 0 := by
    rw [canonical_eq_spaced hw, elementDepth_spaced, elementDepth_maskGlyphs hgs, h]
  rw [linesOf, splitElements_of_elementDepth hdepth, List.map_singleton,
    trimWhere_of_settled (settled_canonical hw), List.mapM_cons, List.mapM_nil, lineOf]
  cases unmask (segmentsOf gs) (canonical (maskGlyphs 0 gs)) <;> rfl

namespace MaskedIn

variable {kept : List (List Char)} {cs text : List Char} {lines : List (List Char)}

/-- Among others a text comes out on the line that it has alone. -/
theorem restores_line (h : MaskedIn kept gs cs) (hgs : ∀ g ∈ gs, g.IsProper)
    (hcount : kept.length ≤ 10 ^ Number.maxDigits) (hline : lineOf gs = .ok text) :
    Restores kept (spaced cs) text := by
  have hw := h.wellMasked hgs
  -- alone the text has its masks numbered from zero, among others from the masks in front of it
  obtain ⟨shift, hrenumbered, hkept⟩ := h.exists_renumbered hgs hcount
  rw [← canonical_eq_spaced hw]
  exact (hrenumbered.canonical ⟨0, gs, hgs, rfl⟩ hw).unmask_append hkept hline

theorem forall_restores {shift : Nat} {kept' css dss : List (List Char)}
    (hkept : Renumbered.Holds shift kept' kept) (h : List.Forall₂ (Renumbered shift) css dss)
    (hlines : css.mapM (unmask kept') = .ok lines) : List.Forall₂ (Restores kept) dss lines := by
  induction h generalizing lines with
  | nil =>
    obtain rfl := Except.ok.inj hlines
    exact .nil
  | cons h _ ih =>
    obtain ⟨line, rest, hline, hrest, rfl⟩ := mapM_cons_eq_ok_iff.1 hlines
    exact .cons (h.unmask_append hkept hline) (ih hrest)

/-- Among others an element comes out on the lines that it has alone. -/
theorem restores_lines (h : MaskedIn kept gs cs) (hgs : ∀ g ∈ gs, g.IsProper)
    (hcount : kept.length ≤ 10 ^ Number.maxDigits) (hlines : linesOf gs = .ok lines) :
    List.Forall₂ (Restores kept) ((splitElements 0 (spaced cs)).map (trimWhere isBlank)) lines := by
  have hw := h.wellMasked hgs
  obtain ⟨shift, hrenumbered, hkept⟩ := h.exists_renumbered hgs hcount
  rw [← canonical_eq_spaced hw]
  exact forall_restores hkept (Renumbered.forall_map (fun _ _ => Renumbered.trim)
    ((hrenumbered.canonical ⟨0, gs, hgs, rfl⟩ hw).elements 0)) hlines

end MaskedIn

end PgSchema.Layout
