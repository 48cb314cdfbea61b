/-
# Masks with other numbers

The layout of a masked text looks at its characters and at its masks, never at the numbers in the
masks.  So texts that differ in these numbers only are cut, put into canonical form and arranged in
the same way, and the results differ in the numbers only.

* `Renumbered` : texts that differ in the numbers of their masks, each of which is shifted;
* `Renumbered.statements` : the statements of such texts;
* `Renumbered.arrange` : their arrangements, when the segments are shifted with the numbers.
-/
import Mathlib.Data.List.Find
import Mathlib.Data.List.Forall2
import PgSchema.Proofs.Layout.Rearrange
import PgSchema.Proofs.Layout.Statements
import PgSchema.Proofs.Text.Span

namespace PgSchema.Layout

open Text

/-- Holds for texts that differ in the numbers of their masks only: each number is shifted. -/
inductive Renumbered (shift : Nat) : List Char → List Char → Prop
  | nil : Renumbered shift [] []
  | char {c : Char} {cs ds : List Char} :
    isMark c = false → Renumbered shift cs ds → Renumbered shift (c :: cs) (c :: ds)
  | mask {mark : Char} {number : Nat} {cs ds : List Char} :
    isMark mark = true → Renumbered shift cs ds →
      Renumbered shift (maskOf mark number ++ cs) (maskOf mark (number + shift) ++ ds)

namespace Renumbered

variable {shift : Nat} {cs ds es fs : List Char}

/-- Glyphs masked with numbers from two starts. -/
theorem maskGlyphs {gs : List Glyph} (hgs : ∀ g ∈ gs, g.IsProper) (number shift : Nat) :
    Renumbered shift (maskGlyphs number gs) (maskGlyphs (number + shift) gs) := by
  induction gs generalizing number with
  | nil => exact .nil
  | cons g gs ih =>
    obtain ⟨hg, htail⟩ := List.forall_mem_cons.1 hgs
    cases g with
    | char c => exact .char hg (ih htail number)
    | segment mark text =>
      have hrest := ih htail (number + 1)
      rw [Nat.add_right_comm] at hrest
      exact .mask hg hrest

theorem append (h : Renumbered shift cs ds) (h' : Renumbered shift es fs) :
    Renumbered shift (cs ++ es) (ds ++ fs) := by
  induction h with
  | nil => exact h'
  | char hc _ ih => exact .char hc ih
  | mask hmark _ ih =>
    rw [List.append_assoc, List.append_assoc]
    exact .mask hmark ih

/-- A text without marks. -/
theorem refl_of_unmarked (h : ∀ c ∈ cs, isMark c = false) : Renumbered shift cs cs := by
  induction cs with
  | nil => exact .nil
  | cons c cs ih =>
    obtain ⟨hc, htail⟩ := List.forall_mem_cons.1 h
    exact .char hc (ih htail)

/-! ## Characters of the two texts -/

theorem head? (h : Renumbered shift cs ds) : cs.head? = ds.head? := by
  cases h with
  | nil => rfl
  | char => rfl
  | mask => rw [maskOf_append, maskOf_append, List.head?_cons, List.head?_cons]

theorem eq_nil_iff (h : Renumbered shift cs ds) : cs = [] ↔ ds = [] := by
  rw [← List.head?_eq_none_iff, h.head?, List.head?_eq_none_iff]

theorem isEmpty (h : Renumbered shift cs ds) : cs.isEmpty = ds.isEmpty := by
  rw [Bool.eq_iff_iff, List.isEmpty_iff, List.isEmpty_iff, h.eq_nil_iff]

theorem tail_of_cons {c : Char} (hc : isMark c = false) (h : Renumbered shift (c :: cs) ds) :
    ∃ ds', ds = c :: ds' ∧ Renumbered shift cs ds' := by
  generalize hcs : c :: cs = as at h
  cases h with
  | nil => cases hcs
  | char _ h =>
    obtain ⟨rfl, rfl⟩ := List.cons.inj hcs
    exact ⟨_, rfl, h⟩
  | mask hmark _ =>
    rw [maskOf_append] at hcs
    rw [(List.cons.inj hcs).1, hmark] at hc
    cases hc

theorem not_mem_maskOf {c mark : Char} (hc : isMaskChar c = false) (hmark : isMark mark = true)
    (number : Nat) : c ∉ maskOf mark number := by
  intro hmem
  rw [isMaskChar_of_mem_maskOf hmark hmem] at hc
  cases hc

theorem mem_iff {c : Char} (hc : isMaskChar c = false) (h : Renumbered shift cs ds) :
    c ∈ cs ↔ c ∈ ds := by
  induction h with
  | nil => exact Iff.rfl
  | char _ _ ih => rw [List.mem_cons, List.mem_cons, ih]
  | mask hmark _ ih =>
    simp only [List.mem_append, not_mem_maskOf hc hmark, false_or, ih]

/-- What stands before and behind a character that is in no mask. -/
theorem exists_of_append {c : Char} (hc : isMaskChar c = false)
    (h : Renumbered shift (cs ++ c :: es) ds) :
    ∃ ds' fs, ds = ds' ++ c :: fs ∧ Renumbered shift cs ds' ∧ Renumbered shift es fs := by
  generalize has : cs ++ c :: es = as at h
  induction h generalizing cs with
  | nil => simp at has
  | @char d as bs hd h ih =>
    cases cs with
    | nil =>
      obtain ⟨rfl, rfl⟩ := List.cons.inj has
      exact ⟨[], bs, rfl, .nil, h⟩
    | cons e cs =>
      obtain ⟨rfl, rfl⟩ := List.cons.inj has
      obtain ⟨ds', fs, rfl, hfront, hrest⟩ := ih rfl
      exact ⟨e :: ds', fs, rfl, .char hd hfront, hrest⟩
  | @mask mark number as bs hmark h ih =>
    obtain ⟨rest, rfl, hrest⟩ :=
      exists_append_of_append_cons (not_mem_maskOf hc hmark number) has.symm
    obtain ⟨ds', fs, rfl, hfront, htail⟩ := ih hrest.symm
    refine ⟨maskOf mark (number + shift) ++ ds', fs, by rw [List.append_assoc], ?_, htail⟩
    exact .mask hmark hfront

/-! ## Stretches -/

variable {p : Char → Bool}

/-- A stretch that no mask ends. -/
theorem span (hp : ∀ c, isMaskChar c = true → p c = true) (h : Renumbered shift cs ds) :
    Renumbered shift (cs.takeWhile p) (ds.takeWhile p) ∧
      Renumbered shift (cs.dropWhile p) (ds.dropWhile p) := by
  induction h with
  | nil => exact ⟨.nil, .nil⟩
  | @char c cs ds hc h ih =>
    by_cases hpc : p c = true
    · rw [List.takeWhile_cons_of_pos hpc, List.takeWhile_cons_of_pos hpc,
        List.dropWhile_cons_of_pos hpc, List.dropWhile_cons_of_pos hpc]
      exact ⟨.char hc ih.1, ih.2⟩
    · rw [List.takeWhile_cons_of_neg hpc, List.takeWhile_cons_of_neg hpc,
        List.dropWhile_cons_of_neg hpc, List.dropWhile_cons_of_neg hpc]
      exact ⟨.nil, .char hc h⟩
  | @mask mark number cs ds hmark h ih =>
    have hmask (number : Nat) : ∀ c ∈ maskOf mark number, p c = true :=
      fun c hc => hp c (isMaskChar_of_mem_maskOf hmark hc)
    rw [List.takeWhile_append_of_pos (hmask number), List.takeWhile_append_of_pos (hmask _),
      List.dropWhile_append_of_pos (hmask number), List.dropWhile_append_of_pos (hmask _)]
    exact ⟨.mask hmark ih.1, ih.2⟩

/-- Leading white space. -/
theorem dropBlanks (h : Renumbered shift cs ds) :
    Renumbered shift (cs.dropWhile isBlank) (ds.dropWhile isBlank) := by
  induction h with
  | nil => exact .nil
  | @char c cs ds hc h ih =>
    rw [List.dropWhile_cons, List.dropWhile_cons]
    split
    · exact ih
    · exact .char hc h
  | @mask mark number cs ds hmark h ih =>
    have hblank : ¬ isBlank mark = true := by simp [isBlank_of_isMark hmark]
    rw [maskOf_append, maskOf_append, List.dropWhile_cons_of_neg hblank,
      List.dropWhile_cons_of_neg hblank, ← maskOf_append, ← maskOf_append]
    exact .mask hmark h

theorem trimEndWhere_cons (p : Char → Bool) (c : Char) (cs : List Char) :
    trimEndWhere p (c :: cs) =
      if p c && (trimEndWhere p cs).isEmpty then [] else c :: trimEndWhere p cs := by
  rw [trimEndWhere, trimEndWhere, List.reverse_cons, List.dropWhile_append, List.isEmpty_reverse]
  by_cases hempty : (cs.reverse.dropWhile p).isEmpty = true
  · rw [if_pos hempty, hempty, Bool.and_true, List.isEmpty_iff.1 hempty]
    by_cases hc : p c = true <;> simp [hc]
  · rw [if_neg hempty]
    simp [hempty]

theorem trimEndWhere_append_of_solid {w : List Char} (hw : ∀ c ∈ w, p c = false) (cs : List Char) :
    trimEndWhere p (w ++ cs) = w ++ trimEndWhere p cs := by
  induction w with
  | nil => rfl
  | cons c w ih =>
    obtain ⟨hc, htail⟩ := List.forall_mem_cons.1 hw
    rw [List.cons_append, trimEndWhere_cons, hc, ih htail]
    rfl

/-- Trailing white space. -/
theorem trimEnd (h : Renumbered shift cs ds) :
    Renumbered shift (trimEndWhere isBlank cs) (trimEndWhere isBlank ds) := by
  induction h with
  | nil => exact .nil
  | @char c cs ds hc h ih =>
    rw [trimEndWhere_cons, trimEndWhere_cons, ih.isEmpty]
    split
    · exact .nil
    · exact .char hc ih
  | @mask mark number cs ds hmark h ih =>
    have hsolid (number : Nat) : ∀ c ∈ maskOf mark number, isBlank c = false :=
      fun c hc => isBlank_of_isMaskChar (isMaskChar_of_mem_maskOf hmark hc)
    rw [trimEndWhere_append_of_solid (hsolid number), trimEndWhere_append_of_solid (hsolid _)]
    exact .mask hmark ih

theorem trim (h : Renumbered shift cs ds) :
    Renumbered shift (trimWhere isBlank cs) (trimWhere isBlank ds) :=
  h.dropBlanks.trimEnd

/-! ## Table bodies -/

theorem beq_eq_false_of_isMaskChar {c d : Char} (hc : isMaskChar c = true)
    (hd : isMaskChar d = false) : (c == d) = false := by
  rw [beq_eq_false_iff_ne]
  rintro rfl
  rw [hc] at hd
  cases hd

theorem rel_map {α β γ δ : Type} {R : α → β → Prop} {S : γ → δ → Prop} {f : α → γ} {g : β → δ}
    (hfg : ∀ a b, R a b → S (f a) (g b)) {x : Option α} {y : Option β} (h : Option.Rel R x y) :
    Option.Rel S (x.map f) (y.map g) := by
  cases h with
  | none => exact .none
  | some h => exact .some (hfg _ _ h)

theorem splitClosing_word_append {w : List Char} (hw : ∀ c ∈ w, isMaskChar c = true) (depth : Nat)
    (cs : List Char) : splitClosing depth (w ++ cs) =
      (splitClosing depth cs).map fun (body, rest) => (w ++ body, rest) := by
  induction w with
  | nil => simp
  | cons c w ih =>
    obtain ⟨hc, htail⟩ := List.forall_mem_cons.1 hw
    have hopen := beq_eq_false_of_isMaskChar (d := '(') hc (by decide)
    have hclose := beq_eq_false_of_isMaskChar (d := ')') hc (by decide)
    rw [List.cons_append, splitClosing.eq_def]
    simp only [hopen, hclose, Bool.false_eq_true, if_false, ih htail, Option.map_map]
    rfl

/-- A body and the text behind it. -/
def Parts (shift : Nat) (p q : List Char × List Char) : Prop :=
  Renumbered shift p.1 q.1 ∧ Renumbered shift p.2 q.2

/-- The text up to the parenthesis that closes a body, and the text behind it. -/
theorem closing (h : Renumbered shift cs ds) (depth : Nat) :
    Option.Rel (Parts shift) (splitClosing depth cs) (splitClosing depth ds) := by
  induction h generalizing depth with
  | nil => exact .none
  | @char c cs ds hc h ih =>
    have hcons (depth : Nat) : Option.Rel (Parts shift)
        ((splitClosing depth cs).map fun (body, rest) => (c :: body, rest))
        ((splitClosing depth ds).map fun (body, rest) => (c :: body, rest)) :=
      rel_map (fun _ _ h => ⟨.char hc h.1, h.2⟩) (ih depth)
    rw [splitClosing.eq_def, splitClosing.eq_def depth (c :: ds)]
    by_cases hclose : (c == ')') = true
    · simp only [hclose, if_true]
      cases depth with
      | zero => exact .some ⟨.nil, h⟩
      | succ depth => exact hcons depth
    · simp only [hclose, Bool.false_eq_true, if_false]
      exact hcons _
  | @mask mark number cs ds hmark h ih =>
    have hmask (number : Nat) : ∀ c ∈ maskOf mark number, isMaskChar c = true :=
      fun c => isMaskChar_of_mem_maskOf hmark
    rw [splitClosing_word_append (hmask number), splitClosing_word_append (hmask _)]
    exact rel_map (fun _ _ h => ⟨.mask hmark h.1, h.2⟩) (ih depth)

theorem elementDepth_word {w : List Char} (hw : ∀ c ∈ w, isMaskChar c = true) (depth : Nat) :
    elementDepth depth w = some depth := by
  induction w with
  | nil => rfl
  | cons c w ih =>
    obtain ⟨hc, htail⟩ := List.forall_mem_cons.1 hw
    have hopen := beq_eq_false_of_isMaskChar (d := '(') hc (by decide)
    have hclose := beq_eq_false_of_isMaskChar (d := ')') hc (by decide)
    have hcomma := beq_eq_false_of_isMaskChar (d := ',') hc (by decide)
    rw [elementDepth, hopen, hclose, hcomma]
    exact ih htail

/-- The elements of a body. -/
theorem elements (h : Renumbered shift cs ds) (depth : Nat) :
    List.Forall₂ (Renumbered shift) (splitElements depth cs) (splitElements depth ds) := by
  induction h generalizing depth with
  | nil => exact .cons .nil .nil
  | @char c cs ds hc h ih =>
    rw [splitElements, splitElements]
    split
    · exact .cons .nil (ih 0)
    · simp only
      -- the rest is cut at whatever depth the character leads to
      generalize (if c == '(' then depth + 1 else if c == ')' then depth - 1 else depth) = depth'
      have hrest := ih depth'
      generalize splitElements depth' cs = css, splitElements depth' ds = dss at hrest
      cases hrest with
      | nil => exact .cons (.char hc .nil) .nil
      | cons helement helements => exact .cons (.char hc helement) helements
  | @mask mark number cs ds hmark h ih =>
    have hmask (number : Nat) : ∀ c ∈ maskOf mark number, isMaskChar c = true :=
      fun c => isMaskChar_of_mem_maskOf hmark
    obtain ⟨e, es, hes, hcs⟩ := splitElements_append (elementDepth_word (hmask number) depth) cs
    obtain ⟨f, fs, hfs, hds⟩ := splitElements_append (elementDepth_word (hmask _) depth) ds
    have hrest := ih depth
    rw [hes, hfs] at hrest
    cases hrest with
    | cons helement helements =>
      rw [hcs, hds]
      exact .cons (.mask hmark helement) helements

theorem intercalate {sep : List Char} (hsep : ∀ c ∈ sep, isMark c = false)
    {css dss : List (List Char)} (h : List.Forall₂ (Renumbered shift) css dss) :
    Renumbered shift (sep.intercalate css) (sep.intercalate dss) := by
  induction h with
  | nil => exact .nil
  | cons h htail ih =>
    cases htail with
    | nil => simpa using h
    | cons =>
      rw [List.intercalate_cons_cons, List.intercalate_cons_cons]
      exact (h.append (refl_of_unmarked hsep)).append ih

theorem forall_isEmpty {css dss : List (List Char)}
    (h : List.Forall₂ (Renumbered shift) css dss) :
    css.all (·.isEmpty) = dss.all (·.isEmpty) := by
  induction h with
  | nil => rfl
  | cons h _ ih => rw [List.all_cons, List.all_cons, h.isEmpty, ih]

theorem forall_map {f : List Char → List Char}
    (hf : ∀ cs ds, Renumbered shift cs ds → Renumbered shift (f cs) (f ds))
    {css dss : List (List Char)} (h : List.Forall₂ (Renumbered shift) css dss) :
    List.Forall₂ (Renumbered shift) (css.map f) (dss.map f) := by
  induction h with
  | nil => exact .nil
  | cons h _ ih => exact .cons (hf _ _ h) ih

/-- Elements on lines of their own. -/
theorem lines {css dss : List (List Char)} (hhead : Renumbered shift cs ds)
    (helements : List.Forall₂ (Renumbered shift) css dss) (htail : Renumbered shift es fs) :
    Renumbered shift (tableLines cs css es) (tableLines ds dss fs) := by
  have hindented : List.Forall₂ (Renumbered shift) (css.map (indent ++ ·))
      (dss.map (indent ++ ·)) :=
    forall_map (fun _ _ h => (refl_of_unmarked (isMark_eq_false_of_all (by decide))).append h)
      helements
  have hclosing : closingOf es = closingOf fs := by
    rw [closingOf, closingOf, htail.isEmpty, htail.head?]
  have hclosed : Renumbered shift ('\n' :: closingOf es) ('\n' :: closingOf fs) := by
    rw [hclosing, closingOf]
    split <;> exact refl_of_unmarked (isMark_eq_false_of_all (by decide))
  exact (((hhead.trimEnd.append (refl_of_unmarked (isMark_eq_false_of_all (by decide)))).append
    (intercalate (isMark_eq_false_of_all (by decide)) hindented)).append hclosed).append htail

/-- The text of a table statement from its first parenthesis on. -/
theorem arrangeTable_eq {cs inside : List Char} (h : cs.dropWhile (· != '(') = '(' :: inside) :
    arrangeTable cs =
      match splitClosing 0 inside with
      | none => cs
      | some (body, rest) =>
        if ((splitElements 0 body).map (trimWhere isBlank)).all (·.isEmpty) then cs
        else tableLines (cs.takeWhile (· != '(')) ((splitElements 0 body).map (trimWhere isBlank))
          (trimWhere isBlank rest) := by
  simp only [arrangeTable, h]
  rfl

/-- A table statement with its elements on lines of their own. -/
theorem table (h : Renumbered shift cs ds) :
    Renumbered shift (arrangeTable cs) (arrangeTable ds) := by
  have hopen : ∀ c, isMaskChar c = true → (c != '(') = true := fun c hc =>
    bne_iff_ne.2 (beq_eq_false_iff_ne.1 (beq_eq_false_of_isMaskChar hc (by decide)))
  obtain ⟨hhead, hinside⟩ := h.span hopen
  have hstop := List.head?_dropWhile_not (· != '(') cs
  cases hcs : cs.dropWhile (· != '(') with
  | nil =>
    have hds := hinside.eq_nil_iff.1 hcs
    simpa only [arrangeTable, hcs, hds] using h
  | cons c inside =>
    rw [hcs] at hinside hstop
    obtain rfl : c = '(' := by simpa using hstop
    obtain ⟨inside', hds, hinside⟩ := hinside.tail_of_cons (by decide)
    rw [arrangeTable_eq hcs, arrangeTable_eq hds]
    -- the closing parenthesis is found at the same place of both texts
    have hclosing := hinside.closing 0
    generalize splitClosing 0 inside = x, splitClosing 0 inside' = y at hclosing
    cases hclosing with
    | none => exact h
    | @some parts parts' hparts =>
      obtain ⟨body, rest⟩ := parts
      obtain ⟨body', rest'⟩ := parts'
      have helements : List.Forall₂ (Renumbered shift)
          ((splitElements 0 body).map (trimWhere isBlank))
          ((splitElements 0 body').map (trimWhere isBlank)) :=
        forall_map (fun _ _ => trim) (hparts.1.elements 0)
      simp only [forall_isEmpty helements]
      split
      · exact h
      · exact hhead.lines helements hparts.2.trim

/-! ## Clauses -/

/-- The text behind a start without marks. -/
theorem dropStart (h : Renumbered shift cs ds) (start : List Char)
    (hstart : ∀ c ∈ start, isMark c = false) :
    Option.Rel (Renumbered shift) (dropStart? start cs) (dropStart? start ds) := by
  induction start generalizing cs ds with
  | nil => exact .some h
  | cons s start ih =>
    obtain ⟨hs, htail⟩ := List.forall_mem_cons.1 hstart
    cases h with
    | nil => exact .none
    | char _ h =>
      rw [dropStart?, dropStart?]
      split
      · exact ih h htail
      · exact .none
    | @mask mark number cs ds hmark h =>
      have hne : (s == mark) = false := by
        rw [beq_eq_false_iff_ne]
        rintro rfl
        rw [hmark] at hs
        cases hs
      simp only [maskOf_append, dropStart?, hne, Bool.false_eq_true, if_false]
      exact .none

theorem startsWithKeyword_eq (h : Renumbered shift cs ds) (keyword : List Char)
    (hkeyword : ∀ c ∈ keyword, isMark c = false) :
    startsWithKeyword cs keyword = startsWithKeyword ds keyword := by
  have hrest := h.dropStart keyword hkeyword
  rw [startsWithKeyword, startsWithKeyword]
  generalize dropStart? keyword cs = x, dropStart? keyword ds = y at hrest
  cases hrest with
  | none => rfl
  | some h => exact congrArg (fun o => !Option.any isWord o) h.head?

theorem isPrefixOf_eq (h : Renumbered shift cs ds) (start : List Char)
    (hstart : ∀ c ∈ start, isMark c = false) : start.isPrefixOf cs = start.isPrefixOf ds := by
  have hrest := h.dropStart start hstart
  have hstarts (es : List Char) : start.isPrefixOf es = (dropStart? start es).isSome := by
    rw [Bool.eq_iff_iff, List.isPrefixOf_iff_prefix, Option.isSome_iff_exists]
    exact exists_congr fun rest => eq_comm.trans dropStart?_eq_some.symm
  rw [hstarts, hstarts]
  generalize dropStart? start cs = x, dropStart? start ds = y at hrest
  cases hrest <;> rfl

theorem wrapFrom_word_append {w : List Char} (hw : ∀ c ∈ w, isMaskChar c = true) (depth : Int)
    (keywords : List (List Char)) (cs : List Char) :
    wrapFrom depth keywords (w ++ cs) = w ++ wrapFrom depth keywords cs := by
  induction w with
  | nil => rfl
  | cons c w ih =>
    obtain ⟨hc, htail⟩ := List.forall_mem_cons.1 hw
    have hopen := beq_eq_false_of_isMaskChar (d := '(') hc (by decide)
    have hclose := beq_eq_false_of_isMaskChar (d := ')') hc (by decide)
    have hspace := beq_eq_false_of_isMaskChar (d := ' ') hc (by decide)
    simp [wrapFrom, hopen, hclose, hspace, ih htail]

/-- A line broken before its clauses. -/
theorem wrap {keywords : List (List Char)} (hkeywords : ∀ k ∈ keywords, ∀ c ∈ k, isMark c = false)
    (depth : Int) (h : Renumbered shift cs ds) :
    Renumbered shift (wrapFrom depth keywords cs) (wrapFrom depth keywords ds) := by
  induction h generalizing depth keywords with
  | nil => exact .nil
  | @char c cs ds hc h ih =>
    have hfind : keywords.find? (startsWithKeyword cs) = keywords.find? (startsWithKeyword ds) :=
      List.find?_congr fun k hk => h.startsWithKeyword_eq k (hkeywords k hk)
    rw [wrapFrom, wrapFrom, hfind]
    split
    · exact .char hc (ih hkeywords _)
    · split
      · exact .char hc (ih hkeywords _)
      · split
        · cases keywords.find? (startsWithKeyword ds) with
          | none => exact .char hc (ih hkeywords _)
          | some keyword =>
            exact (refl_of_unmarked (isMark_eq_false_of_all (by decide))).append
              (ih (fun k hk => hkeywords k (List.mem_of_mem_erase hk)) _)
        · exact .char hc (ih hkeywords _)
  | @mask mark number cs ds hmark h ih =>
    rw [wrapFrom_word_append (fun c => isMaskChar_of_mem_maskOf hmark),
      wrapFrom_word_append (fun c => isMaskChar_of_mem_maskOf hmark)]
    exact .mask hmark (ih hkeywords depth)

/-- The text behind a start without marks and the word behind that start. -/
theorem dropStartAndWord (h : Renumbered shift cs ds) (start : List Char)
    (hstart : ∀ c ∈ start, isMark c = false) :
    Option.Rel (Renumbered shift) (dropStartAndWord? start cs) (dropStartAndWord? start ds) := by
  have hsolid : ∀ c, isMaskChar c = true → (!isBlank c) = true := fun c hc => by
    rw [isBlank_of_isMaskChar hc]
    rfl
  have hrest := h.dropStart start hstart
  rw [dropStartAndWord?, dropStartAndWord?]
  generalize dropStart? start cs = x, dropStart? start ds = y at hrest
  cases hrest with
  | none => exact .none
  | @some rest rest' h =>
    have hdrop (es : List Char) :
        es.drop (es.takeWhile (!isBlank ·)).length = es.dropWhile (!isBlank ·) := by
      have hleft := @List.drop_left _ (es.takeWhile (!isBlank ·)) (es.dropWhile (!isBlank ·))
      rwa [List.takeWhile_append_dropWhile] at hleft
    obtain ⟨hname, htail⟩ := h.span hsolid
    simp only [Option.bind_some, hdrop, hname.isEmpty]
    split
    · exact .none
    · exact .some htail

theorem clausesOf_eq (h : Renumbered shift cs ds) : clausesOf cs = clausesOf ds := by
  -- the name of the constraint may hold masks, the words around it do not
  have hforeignKey : ((dropStartAndWord? "ALTER TABLE ".toList cs).bind
      (dropStartAndWord? " ADD CONSTRAINT ".toList)).any
        (startsWithKeyword · " FOREIGN KEY".toList) =
      ((dropStartAndWord? "ALTER TABLE ".toList ds).bind
      (dropStartAndWord? " ADD CONSTRAINT ".toList)).any
        (startsWithKeyword · " FOREIGN KEY".toList) := by
    have htable := h.dropStartAndWord "ALTER TABLE ".toList (isMark_eq_false_of_all (by decide))
    generalize dropStartAndWord? "ALTER TABLE ".toList cs = x,
      dropStartAndWord? "ALTER TABLE ".toList ds = y at htable
    cases htable with
    | none => rfl
    | @some rest rest' h =>
      have hname := h.dropStartAndWord " ADD CONSTRAINT ".toList
        (isMark_eq_false_of_all (by decide))
      rw [Option.bind_some, Option.bind_some]
      generalize dropStartAndWord? " ADD CONSTRAINT ".toList rest = x,
        dropStartAndWord? " ADD CONSTRAINT ".toList rest' = y at hname
      cases hname with
      | none => rfl
      | some h =>
        exact h.startsWithKeyword_eq " FOREIGN KEY".toList (isMark_eq_false_of_all (by decide))
  simp only [clausesOf, hforeignKey,
    h.startsWithKeyword_eq "CREATE POLICY".toList (isMark_eq_false_of_all (by decide)),
    h.startsWithKeyword_eq "CREATE INDEX".toList (isMark_eq_false_of_all (by decide)),
    h.startsWithKeyword_eq "CREATE UNIQUE INDEX".toList (isMark_eq_false_of_all (by decide))]

theorem isMark_of_mem_clausesOf : ∀ k ∈ (clausesOf cs).map String.toList, ∀ c ∈ k,
    isMark c = false := by
  have hclauses {clauses : List String}
      (h : (clauses.all fun clause => clause.toList.all (!isMark ·)) = true) :
      ∀ k ∈ clauses.map String.toList, ∀ c ∈ k, isMark c = false := by
    intro k hk
    obtain ⟨clause, hclause, rfl⟩ := List.mem_map.1 hk
    exact isMark_eq_false_of_all (List.all_eq_true.1 h clause hclause)
  rw [clausesOf]
  split
  · exact hclauses (by decide)
  · split
    · exact hclauses (by decide)
    · split <;> exact hclauses (by decide)

/-! ## Segments -/

/-- Holds for segments of which the second ones have the first ones under shifted numbers. -/
def Holds (shift : Nat) (kept kept' : List (List Char)) : Prop :=
  ∀ number segment, segmentOf kept (toString number).toList = .ok segment →
    segmentOf kept' (toString (number + shift)).toList = .ok segment

theorem of_segmentOf_toString {segments : List (List Char)} {n : Nat} {segment : List Char}
    (h : segmentOf segments (toString n).toList = .ok segment) :
    n < 10 ^ Number.maxDigits ∧ segments[n]? = some segment := by
  have hn : n < 10 ^ Number.maxDigits :=
    Nat.lt_of_not_le fun hle => segmentOf_toString_of_le hle segment h
  refine ⟨hn, ?_⟩
  cases hget : segments[n]? with
  | none =>
    have hnone : segmentOf segments (toString n).toList = .error (.unknownSegment n) := by
      rw [segmentOf, Nat.toString_eq_repr, Nat.toList_repr, Number.readInteger_toDigits, if_pos hn]
      simp [hget]
    rw [hnone] at h
    cases h
  | some text =>
    rw [segmentOf_toString hn hget] at h
    rw [Except.ok.inj h]

/-- Segments are found behind others under numbers shifted by the number of these. -/
theorem holds_append {front kept back : List (List Char)}
    (h : (front ++ kept ++ back).length ≤ 10 ^ Number.maxDigits) :
    Holds front.length kept (front ++ kept ++ back) := by
  intro number segment hsegment
  obtain ⟨-, hget⟩ := of_segmentOf_toString hsegment
  obtain ⟨hlt, -⟩ := List.getElem?_eq_some_iff.1 hget
  rw [List.length_append, List.length_append] at h
  refine segmentOf_toString (by omega) ?_
  rw [List.append_assoc, List.getElem?_append_right (by omega), Nat.add_sub_cancel,
    List.getElem?_append_left hlt, hget]

variable {kept kept' : List (List Char)}

/-- Segments are put back in a text, whatever stands behind it. -/
theorem unmask_append {text : List Char} (hkept : Holds shift kept kept')
    (h : Renumbered shift cs ds) (htext : unmask kept cs = .ok text) (es : List Char) :
    unmask kept' (ds ++ es) = (unmask kept' es).map (text ++ ·) := by
  induction h generalizing text with
  | nil =>
    obtain rfl := Except.ok.inj htext
    rw [List.nil_append]
    cases unmask kept' es <;> rfl
  | @char c cs ds hc h ih =>
    rw [unmask_cons_of_eq_none _ (maskDigits?_of_not_isMark hc _)] at htext
    obtain ⟨rest, hrest, heq⟩ := bind_eq_ok_iff.1 htext
    obtain rfl := Except.ok.inj heq
    rw [List.cons_append, unmask_cons_of_eq_none _ (maskDigits?_of_not_isMark hc _), ih hrest]
    cases unmask kept' es <;> rfl
  | @mask mark number cs ds hmark h ih =>
    rw [maskOf_append, unmask_mask_append _ hmark hmark (toString_toList_ne_nil _)
      (digits_toString _)] at htext
    obtain ⟨segment, hsegment, htext⟩ := bind_eq_ok_iff.1 htext
    obtain ⟨rest, hrest, heq⟩ := bind_eq_ok_iff.1 htext
    obtain rfl := Except.ok.inj heq
    rw [List.append_assoc, maskOf_append, unmask_mask_append _ hmark hmark
      (toString_toList_ne_nil _) (digits_toString _), hkept number segment hsegment, ih hrest]
    cases unmask kept' es with
    | error e => rfl
    | ok out => simp [bind, Except.bind, pure, Except.pure, Except.map]

theorem unmask {text : List Char} (hkept : Holds shift kept kept') (h : Renumbered shift cs ds)
    (htext : unmask kept cs = .ok text) : Layout.unmask kept' ds = .ok text := by
  have hend := h.unmask_append hkept htext []
  rw [List.append_nil] at hend
  rw [hend]
  exact congrArg Except.ok (List.append_nil text)

/-! ## Arrangements -/

theorem leadingMask?_of_no_comment {c : Char} (hc : ¬ (c = lineMark ∨ c = blockMark))
    (cs : List Char) : leadingMask? (c :: cs) = none := by
  rw [Option.eq_none_iff_forall_ne_some]
  intro n hn
  obtain ⟨mark, digits, rest, heq, hmark, -⟩ := leadingMask?_eq_some_iff.1 hn
  rw [(List.cons.inj heq).1] at hc
  exact hc hmark

/-- The comments that precede a statement, and the statement without them. -/
theorem leading (h : Renumbered shift cs ds) :
    Renumbered shift (leadingOf cs) (leadingOf ds) ∧
      Renumbered shift (withoutLeading cs) (withoutLeading ds) := by
  induction hn : cs.length using Nat.strongRecOn generalizing cs ds with
  | _ n ih =>
    have bare (hcs : leadingMask? cs = none) (hds : leadingMask? ds = none) :
        Renumbered shift (leadingOf cs) (leadingOf ds) ∧
          Renumbered shift (withoutLeading cs) (withoutLeading ds) := by
      rw [leadingOf_of_eq_none hcs, leadingOf_of_eq_none hds, withoutLeading_of_eq_none hcs,
        withoutLeading_of_eq_none hds]
      exact ⟨.nil, h⟩
    cases h with
    | nil => exact bare rfl rfl
    | @char c cs ds hc h =>
      have hnone : ¬ (c = lineMark ∨ c = blockMark) := by
        rintro (rfl | rfl) <;> cases hc
      exact bare (leadingMask?_of_no_comment hnone _) (leadingMask?_of_no_comment hnone _)
    | @mask mark number cs ds hmark h =>
      by_cases hcomment : mark = lineMark ∨ mark = blockMark
      -- the mask goes with the space behind that of a block comment
      · rw [maskOf_append] at hn
        simp only [maskOf_append,
          leadingOf_mask hcomment (toString_toList_ne_nil _) (digits_toString _),
          withoutLeading_mask hcomment (toString_toList_ne_nil _) (digits_toString _), ← h.head?]
        split
        · next hspace =>
          obtain ⟨rest, rfl⟩ := List.head?_eq_some_iff.1 hspace.2
          obtain ⟨rest', rfl, hrest⟩ := h.tail_of_cons (by decide)
          obtain ⟨hlead, hbare⟩ := ih rest.length (by simp [← hn]; omega) hrest rfl
          simp only [← maskOf_append]
          exact ⟨.mask hmark (.char (by decide) hlead), hbare⟩
        · obtain ⟨hlead, hbare⟩ := ih cs.length (by simp [← hn]; omega) h rfl
          simp only [← maskOf_append]
          exact ⟨.mask hmark hlead, hbare⟩
      · exact bare (leadingMask?_of_no_comment hcomment _) (leadingMask?_of_no_comment hcomment _)

theorem arrangeBare {A : List Char} (hkept : Holds shift kept kept') (h : Renumbered shift cs ds)
    (hA : arrangeBare kept cs = .ok A) :
    ∃ B, arrangeBare kept' ds = .ok B ∧ Renumbered shift A B := by
  have hstarts := h.isPrefixOf_eq "CREATE TABLE ".toList (isMark_eq_false_of_all (by decide))
  rw [Layout.arrangeBare] at hA ⊢
  rw [← hstarts]
  split at hA
  · obtain rfl := Except.ok.inj hA
    rw [if_pos ‹_›]
    exact ⟨_, rfl, h.table⟩
  · rw [if_neg ‹_›]
    obtain ⟨text, htext, hA⟩ := bind_eq_ok_iff.1 hA
    have htext' := h.unmask hkept htext
    split at hA
    · next hlength =>
      obtain rfl := Except.ok.inj hA
      exact ⟨ds, bind_eq_ok_iff.2 ⟨text, htext', by rw [if_pos hlength]; rfl⟩, h⟩
    · next hlength =>
      obtain rfl := Except.ok.inj hA
      refine ⟨_, bind_eq_ok_iff.2 ⟨text, htext', by rw [if_neg hlength]; rfl⟩, ?_⟩
      rw [h.clausesOf_eq]
      exact h.wrap isMark_of_mem_clausesOf 0

/-- The arrangement of a statement with comments before it. -/
theorem arrange {A : List Char} (hkept : Holds shift kept kept') (h : Renumbered shift cs ds)
    (hA : arrange kept cs = .ok A) :
    ∃ B, Layout.arrange kept' ds = .ok B ∧ Renumbered shift A B := by
  obtain ⟨bare, hbare, rfl⟩ := arrange_eq_ok_iff.1 hA
  obtain ⟨hlead, hrest⟩ := h.leading
  obtain ⟨bare', hbare', h'⟩ := hrest.arrangeBare hkept hbare
  exact ⟨leadingOf ds ++ bare', arrange_eq_ok_iff.2 ⟨bare', hbare', rfl⟩, hlead.append h'⟩

/-- The arrangements of statements. -/
theorem arrangeAll (hkept : Holds shift kept kept') {css dss arranged : List (List Char)}
    (h : List.Forall₂ (Renumbered shift) css dss)
    (harranged : css.mapM (Layout.arrange kept) = .ok arranged) :
    ∃ arranged', dss.mapM (Layout.arrange kept') = .ok arranged' ∧
      List.Forall₂ (Renumbered shift) arranged arranged' := by
  induction h generalizing arranged with
  | nil =>
    obtain rfl := Except.ok.inj harranged
    exact ⟨[], rfl, .nil⟩
  | cons h _ ih =>
    obtain ⟨A, As, hA, hAs, rfl⟩ := mapM_cons_eq_ok_iff.1 harranged
    obtain ⟨B, hB, hfirst⟩ := h.arrange hkept hA
    obtain ⟨Bs, hBs, hrest⟩ := ih hAs
    exact ⟨B :: Bs, mapM_cons_eq_ok_iff.2 ⟨B, Bs, hB, hBs, rfl⟩, .cons hfirst hrest⟩

/-! ## Canonical forms -/

theorem strokes_word_append {w : List Char} (hw : ∀ c ∈ w, isMaskChar c = true) (cs : List Char) :
    strokes false (w ++ cs) = (w.map fun c => (false, c)) ++ strokes false cs := by
  induction w with
  | nil => rfl
  | cons c w ih =>
    obtain ⟨hc, htail⟩ := List.forall_mem_cons.1 hw
    rw [List.cons_append, strokes_cons (isBlank_of_isMaskChar hc), ih htail]
    rfl

theorem render_word {w : List Char} {c d : Char} (S : List (Bool × Char)) :
    render (clear keeps c ((w ++ [d]).map (fun c => (false, c)) ++ S)) =
      w ++ d :: render (clear keeps d S) := by
  induction w generalizing c with
  | nil => rfl
  | cons e w ih => exact congrArg (e :: ·) ih

/-- A mask is written as it stands, behind a space where one is kept. -/
theorem render_mask {mark : Char} (hmark : isMark mark = true) (number : Nat) (b : Bool) (c : Char)
    (cs : List Char) : render (clear keeps c (strokes b (maskOf mark number ++ cs))) =
      (if b && keeps c mark then [' '] else []) ++
        (maskOf mark number ++ render (clear keeps mark (strokes false cs))) := by
  have hdigits : ∀ c ∈ (toString number).toList ++ [mark], isMaskChar c = true := fun c hc =>
    isMaskChar_of_mem_maskOf hmark (List.mem_cons_of_mem _ hc)
  rw [maskOf, List.cons_append, List.cons_append, strokes_cons (isBlank_of_isMark hmark),
    strokes_word_append hdigits, clear, render, render_word]
  split <;> simp

theorem rendered (h : Renumbered shift cs ds) (b : Bool) (c : Char) :
    Renumbered shift (render (clear keeps c (strokes b cs)))
      (render (clear keeps c (strokes b ds))) := by
  induction h generalizing b c with
  | nil => exact .nil
  | @char d cs ds hd h ih =>
    by_cases hblank : isBlank d = true
    · rw [strokes_cons_blank hblank, strokes_cons_blank hblank]
      exact ih true c
    · rw [Bool.not_eq_true] at hblank
      rw [strokes_cons hblank, strokes_cons hblank, clear, clear, render, render]
      refine append (refl_of_unmarked ?_) (ih false d)
      split
      · simpa using ⟨by decide, hd⟩
      · simpa using hd
  | mask hmark h ih =>
    rw [render_mask hmark, render_mask hmark]
    refine append (refl_of_unmarked ?_) (.mask hmark (ih false _))
    split <;> exact isMark_eq_false_of_all (by decide)

/-- The canonical form of a statement. -/
theorem canonical (hcs : WellMasked cs) (hds : WellMasked ds) (h : Renumbered shift cs ds) :
    Renumbered shift (canonical cs) (canonical ds) := by
  rw [canonical_eq_render hcs, canonical_eq_render hds, settle_eq_clear, settle_eq_clear]
  exact h.rendered false '('

/-- The statements of a script. -/
theorem statements (hcs : WellMasked cs) (hds : WellMasked ds) (h : Renumbered shift cs ds) :
    List.Forall₂ (Renumbered shift) (statements cs) (statements ds) := by
  induction cs using statement_induction generalizing ds with
  | last cs hlast =>
    have hlast' : ';' ∉ ds := fun hmem => hlast ((h.mem_iff (by decide)).2 hmem)
    have hcanonical := h.canonical hcs hds
    rw [statements_of_notMem hlast, statements_of_notMem hlast', hcanonical.isEmpty]
    split
    · exact .nil
    · exact .cons hcanonical .nil
  | next cs es hfirst ih =>
    obtain ⟨ds, fs, rfl, hfront, hrest⟩ := h.exists_of_append (by decide)
    have hfirst' : ';' ∉ ds := fun hmem => hfirst ((hfront.mem_iff (by decide)).2 hmem)
    obtain ⟨hcs, hes⟩ := wellMasked_of_append (by decide) hcs
    obtain ⟨hds, hfs⟩ := wellMasked_of_append (by decide) hds
    rw [statements_append hfirst, statements_append hfirst']
    refine .cons (canonical hcs hds ?_) (ih hes hfs hrest)
    exact hfront.append (refl_of_unmarked (isMark_eq_false_of_all (by decide)))

end Renumbered
end PgSchema.Layout
