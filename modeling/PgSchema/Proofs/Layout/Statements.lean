/-
# Statements of a masked script

A masked script is cut behind each semicolon, each statement is put into its canonical form and
arranged, and the statements are joined by blank lines.  All but the last one end with a
semicolon, so the ink of the whole is the ink of the statements one behind the other.

* `ink_intercalate_arranged` : the ink of arranged statements is that of their canonical forms;
* `flatten_statements` : joining to line comments can be done once for all statements.
-/
import PgSchema.Proofs.Layout.Arrange
import PgSchema.Proofs.Result

namespace PgSchema.Layout

open Text

/-! ## Texts that end with punctuation -/

/-- Holds for ink that ends with punctuation. -/
def EndsFree (strokes : List (Bool × Char)) : Prop :=
  ∃ front b c, strokes = front ++ [(b, c)] ∧ isPunctuation c = true

/-- Holds when the ink of all texts but the last ends with punctuation. -/
def AllButLastEndFree : List (List (Bool × Char)) → Prop
  | [] => True
  | [_] => True
  | strokes :: next :: rest => EndsFree strokes ∧ AllButLastEndFree (next :: rest)

/-- White space is free behind a text whose ink ends with punctuation. -/
theorem after_eq_free_of_endsFree {j : Joint} {cs : List Char} (h : EndsFree (ink j cs)) :
    j.after cs = .free := by
  obtain ⟨front, b, c, heq, hc⟩ := h
  induction cs generalizing j front with
  | nil => simp at heq
  | cons d cs ih =>
    by_cases hd : isBlank d = true
    · rw [ink_cons_blank hd] at heq
      rw [Joint.after_cons_blank hd, ih front heq]
    · rw [Bool.not_eq_true] at hd
      rw [ink_cons hd] at heq
      rw [Joint.after_cons hd]
      cases front with
      | nil =>
        obtain ⟨hhead, htail⟩ := List.cons.inj heq
        obtain ⟨-, rfl⟩ := Prod.mk.inj hhead
        rw [Joint.after_of_all_blank (all_blank_of_ink_eq_nil htail), Joint.behind, if_pos hc]
        simp [Joint.blank]
      | cons s front => exact ih front (List.cons.inj heq).2

/-- The ink of texts joined by white space, all but the last of which end with punctuation. -/
theorem ink_intercalate_of_endFree {sep : List Char} (hsep : sep.all isBlank = true)
    {css : List (List Char)} (h : AllButLastEndFree (css.map (ink .free))) :
    ink .free (sep.intercalate css) = (css.map (ink .free)).flatten := by
  induction css with
  | nil => rfl
  | cons cs css ih =>
    cases css with
    | nil => simp
    | cons ds css =>
      have hrest := ih h.2
      rw [List.intercalate_cons_cons, List.append_assoc, ink_append,
        after_eq_free_of_endsFree h.1, ink_all_blank_append hsep (by decide), hrest]
      rfl

/-- The ink of texts one behind the other, all but the last of which end with punctuation. -/
theorem ink_flatten_of_endFree {css : List (List Char)}
    (h : AllButLastEndFree (css.map (ink .free))) :
    ink .free css.flatten = (css.map (ink .free)).flatten := by
  induction css with
  | nil => rfl
  | cons cs css ih =>
    cases css with
    | nil => simp
    | cons ds css =>
      have hrest := ih h.2
      rw [List.flatten_cons, ink_append, after_eq_free_of_endsFree h.1, hrest]
      rfl

/-! ## Cutting behind semicolons -/

/-- A text is read by statements: it has no semicolon, or it starts with a text without one and
a semicolon. -/
theorem statement_induction {motive : List Char → Prop}
    (last : ∀ cs, ';' ∉ cs → motive cs)
    (next : ∀ cs ds, ';' ∉ cs → motive ds → motive (cs ++ ';' :: ds))
    (cs : List Char) : motive cs := by
  induction hn : cs.length using Nat.strongRecOn generalizing cs with
  | _ n ih =>
    by_cases h : ';' ∈ cs
    · obtain ⟨as, bs, rfl, has⟩ := List.eq_append_cons_of_mem h
      exact next as bs has (ih bs.length (by simp [← hn]; omega) bs rfl)
    · exact last cs h

theorem splitAfterSemicolons_of_notMem {cs : List Char} (h : ';' ∉ cs) :
    splitAfterSemicolons cs = [cs] := by
  induction cs with
  | nil => rfl
  | cons c cs ih =>
    rw [List.mem_cons, not_or] at h
    have hc : (c == ';') = false := beq_eq_false_iff_ne.2 (Ne.symm h.1)
    rw [splitAfterSemicolons, hc, ih h.2]
    rfl

theorem splitAfterSemicolons_append {cs : List Char} (h : ';' ∉ cs) (ds : List Char) :
    splitAfterSemicolons (cs ++ ';' :: ds) = (cs ++ [';']) :: splitAfterSemicolons ds := by
  induction cs with
  | nil => rfl
  | cons c cs ih =>
    rw [List.mem_cons, not_or] at h
    have hc : (c == ';') = false := beq_eq_false_iff_ne.2 (Ne.symm h.1)
    rw [List.cons_append, splitAfterSemicolons, hc, ih h.2]
    rfl

/-! ## Canonical statements -/

/-- A single-spaced text ends with a character that is no blank. -/
theorem exists_append_of_isSingleSpaced {cs : List Char} (h : IsSingleSpaced cs) (hne : cs ≠ []) :
    ∃ ds c, cs = ds ++ [c] ∧ isBlank c = false := by
  induction cs with
  | nil => exact absurd rfl hne
  | cons c cs ih =>
    cases cs with
    | nil =>
      refine ⟨[], c, rfl, ?_⟩
      rw [← Bool.not_eq_true]
      intro hc
      simpa using (h.1 hc).2
    | cons d cs =>
      obtain ⟨ds, e, heq, he⟩ := ih h.2 (by simp)
      exact ⟨c :: ds, e, by rw [heq, List.cons_append], he⟩

/-- The semicolon at the end of a statement stays there. -/
theorem tidy_append_semicolon (cs : List Char) : ∃ ds, tidy (cs ++ [';']) = ds ++ [';'] := by
  have hink : ink .free (tidy (cs ++ [';'])) = ink .free cs ++ [(false, ';')] := by
    rw [ink_tidy (by decide), ink_append_punctuation (by decide)]
    rfl
  have hne : tidy (cs ++ [';']) ≠ [] := by
    intro h
    rw [h, ink_nil] at hink
    simp at hink
  obtain ⟨ds, c, heq, hc⟩ := exists_append_of_isSingleSpaced (isSingleSpaced_tidy _) hne
  rw [heq, ink_append, ink_cons hc, ink_nil] at hink
  obtain ⟨-, hlast⟩ := List.append_inj' hink rfl
  obtain ⟨-, rfl⟩ := Prod.mk.inj (List.cons.inj hlast).1
  exact ⟨ds, heq⟩

theorem canonical_append_semicolon (cs : List Char) :
    ∃ ds, tidy (cs ++ [';']) = ds ++ [';'] ∧
      canonical (cs ++ [';']) = dropAfterLineMask ds ++ [';'] := by
  obtain ⟨ds, hds⟩ := tidy_append_semicolon cs
  refine ⟨ds, hds, ?_⟩
  rw [canonical_eq, hds, dropAfterLineMask_append (by decide) (by decide)]
  rfl

theorem statements_of_notMem {cs : List Char} (h : ';' ∉ cs) :
    statements cs = if (canonical cs).isEmpty then [] else [canonical cs] := by
  rw [statements, splitAfterSemicolons_of_notMem h]
  cases hc : (canonical cs).isEmpty <;> simp [hc]

/-- A statement with its semicolon is not empty. -/
theorem statements_append {cs : List Char} (h : ';' ∉ cs) (ds : List Char) :
    statements (cs ++ ';' :: ds) = canonical (cs ++ [';']) :: statements ds := by
  obtain ⟨front, -, hfront⟩ := canonical_append_semicolon cs
  rw [statements, splitAfterSemicolons_append h, List.map_cons, List.filter_cons, hfront]
  simp [statements]

/-- Joining to line comments can be done once for all statements. -/
theorem flatten_statements (cs : List Char) :
    (statements cs).flatten = dropAfterLineMask ((splitAfterSemicolons cs).map tidy).flatten := by
  induction cs using statement_induction with
  | last cs h =>
    rw [statements_of_notMem h, splitAfterSemicolons_of_notMem h, List.map_singleton,
      List.flatten_singleton, ← canonical_eq]
    cases hc : canonical cs <;> simp
  | next cs ds h ih =>
    obtain ⟨front, htidy, hcanonical⟩ := canonical_append_semicolon cs
    rw [statements_append h, splitAfterSemicolons_append h, List.flatten_cons, List.map_cons,
      List.flatten_cons, ih, hcanonical, htidy, List.append_assoc, List.append_assoc,
      List.singleton_append, List.singleton_append,
      dropAfterLineMask_append (by decide) (by decide)]

/-- The ink of all canonical statements but the last ends with a semicolon. -/
theorem allButLastEndFree_statements (cs : List Char) :
    AllButLastEndFree ((statements cs).map (ink .free)) := by
  induction cs using statement_induction with
  | last cs h =>
    rw [statements_of_notMem h]
    split <;> trivial
  | next cs ds h ih =>
    obtain ⟨front, -, hcanonical⟩ := canonical_append_semicolon cs
    rw [statements_append h, List.map_cons]
    cases hrest : (statements ds).map (ink .free) with
    | nil => trivial
    | cons strokes rest =>
      rw [hrest] at ih
      refine ⟨⟨ink .free (dropAfterLineMask front), false, ';', ?_, by decide⟩, ih⟩
      rw [hcanonical, ink_append_punctuation (by decide)]
      rfl

/-- Cutting a script into tidy statements keeps its ink. -/
theorem ink_flatten_tidy (cs : List Char) :
    ink .free ((splitAfterSemicolons cs).map tidy).flatten = ink .free cs := by
  induction cs using statement_induction with
  | last cs h =>
    rw [splitAfterSemicolons_of_notMem h, List.map_singleton, List.flatten_singleton,
      ink_tidy (by decide)]
  | next cs ds h ih =>
    obtain ⟨front, htidy, -⟩ := canonical_append_semicolon cs
    have hfront : ink .free front = ink .free cs := by
      have hink := ink_tidy (j := .free) (by decide) (cs ++ [';'])
      rw [htidy, ink_append_punctuation (by decide), ink_append_punctuation (by decide)] at hink
      exact (List.append_inj' hink rfl).1
    rw [splitAfterSemicolons_append h, List.map_cons, List.flatten_cons, htidy, List.append_assoc,
      List.singleton_append, ink_append_punctuation (by decide), ih, hfront,
      ← ink_append_punctuation (by decide)]

/-- The numbers looked up in statements one behind the other are those of each statement. -/
theorem lookups_flatten_statements (cs : List Char) :
    lookups (statements cs).flatten = (statements cs).flatMap lookups := by
  induction cs using statement_induction with
  | last cs h =>
    rw [statements_of_notMem h]
    split
    · rfl
    · simp
  | next cs ds h ih =>
    obtain ⟨front, -, hcanonical⟩ := canonical_append_semicolon cs
    rw [statements_append h, List.flatten_cons, List.flatMap_cons, hcanonical, List.append_assoc,
      List.singleton_append, lookups, lookupsFrom_append (by decide), ih, lookups,
      lookupsFrom_append (by decide)]
    simp [lookups, lookupsFrom]

/-! ## Arranged statements -/

/-- Arranged statements, joined by blank lines, have the ink of the canonical statements. -/
theorem ink_intercalate_arranged {segments : List (List Char)} {cs : List Char}
    {arranged : List (List Char)}
    (h : (statements cs).mapM (arrange segments) = .ok arranged) :
    ink .free (['\n', '\n'].intercalate arranged) = ink .free (statements cs).flatten := by
  have hinks : arranged.map (ink .free) = (statements cs).map (ink .free) :=
    map_eq_of_mapM_eq_ok (fun _ _ harrange => ink_of_arrange harrange .free) h
  rw [ink_intercalate_of_endFree (by decide), hinks, ink_flatten_of_endFree]
  · exact allButLastEndFree_statements cs
  · rw [hinks]
    exact allButLastEndFree_statements cs

end PgSchema.Layout
