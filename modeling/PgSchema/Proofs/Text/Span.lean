/-
# Stretches of characters

The longest start of a text that has a property, and the pieces between separators, read off a text
that was put together from them.

* `takeWhile_append_of_head?`, `dropWhile_append_of_head?` : a stretch and what follows it;
* `exists_append_of_append_cons` : a word in front of a character that is not in it;
* `trimWhere_trimWhere` : a text is trimmed once;
* `splitAt_intercalate`, `intercalate_splitAt` : the pieces of a text;
* `exists_intercalate_eq` : what stands around a piece of a joined text;
* `contains_iff` : a text in another.
-/
import PgSchema.Text.Blank
import PgSchema.Text.Search

namespace PgSchema.Text

variable {p : Char → Bool} {cs rest : List Char}

theorem dropWhile_of_head? (h : ∀ c ∈ cs.head?, p c = false) : cs.dropWhile p = cs := by
  cases cs with
  | nil => rfl
  | cons c cs => simp [h c rfl]

theorem takeWhile_of_head? (h : ∀ c ∈ cs.head?, p c = false) : cs.takeWhile p = [] := by
  cases cs with
  | nil => rfl
  | cons c cs => simp [h c rfl]

/-- A character that is not in a text differs from all of its characters. -/
theorem bne_of_notMem {c : Char} (h : c ∉ cs) : ∀ x ∈ cs, (x != c) = true :=
  fun _ hx => bne_iff_ne.2 fun hxc => h (hxc ▸ hx)

/-- A text is cut at a character where a span up to it ends. -/
theorem of_dropWhile_bne_eq_cons {c d : Char} (h : cs.dropWhile (· != d) = c :: rest) :
    cs = cs.takeWhile (· != d) ++ d :: rest ∧ d ∉ cs.takeWhile (· != d) := by
  have hhead := List.head?_dropWhile_not (· != d) cs
  rw [h, List.head?_cons] at hhead
  obtain rfl : c = d := by simpa using hhead
  refine ⟨?_, fun hmem => ?_⟩
  · rw [← h, List.takeWhile_append_dropWhile]
  · simpa using List.all_eq_true.1 List.all_takeWhile _ hmem

theorem takeWhile_append_of_head? (hcs : ∀ c ∈ cs, p c = true)
    (hrest : ∀ c ∈ rest.head?, p c = false) : (cs ++ rest).takeWhile p = cs := by
  rw [List.takeWhile_append_of_pos hcs, takeWhile_of_head? hrest, List.append_nil]

theorem dropWhile_append_of_head? (hcs : ∀ c ∈ cs, p c = true)
    (hrest : ∀ c ∈ rest.head?, p c = false) : (cs ++ rest).dropWhile p = rest := by
  rw [List.dropWhile_append_of_pos hcs, dropWhile_of_head? hrest]

/-- A span ends at a text that starts with another character. -/
theorem takeWhile_append_left (hrest : ∀ c ∈ rest.head?, p c = false) (cs : List Char) :
    (cs ++ rest).takeWhile p = cs.takeWhile p := by
  induction cs with
  | nil => exact takeWhile_of_head? hrest
  | cons c cs ih => rw [List.cons_append, List.takeWhile_cons, List.takeWhile_cons, ih]

theorem takeWhile_append_cons {c : Char} (hcs : ∀ x ∈ cs, p x = true) (hc : p c = false)
    (rest : List Char) : (cs ++ c :: rest).takeWhile p = cs :=
  takeWhile_append_of_head? hcs (by simpa using hc)

theorem dropWhile_append_cons {c : Char} (hcs : ∀ x ∈ cs, p x = true) (hc : p c = false)
    (rest : List Char) : (cs ++ c :: rest).dropWhile p = c :: rest :=
  dropWhile_append_of_head? hcs (by simpa using hc)

/-- A text that starts with a word starts with it up to a character that is not in the word. -/
theorem exists_append_of_append_cons {w as cs es : List Char} {c : Char} (hc : c ∉ w)
    (h : w ++ as = cs ++ c :: es) : ∃ rest, cs = w ++ rest ∧ as = rest ++ c :: es := by
  obtain ⟨rest, hcs, hrest⟩ | ⟨rest, hw, hrest⟩ := List.append_eq_append_iff.1 h
  · exact ⟨rest, hcs, hrest⟩
  · cases rest with
    | nil => exact ⟨[], by rw [hw, List.append_nil, List.append_nil], hrest.symm⟩
    | cons e rest =>
      obtain ⟨rfl, -⟩ := List.cons.inj hrest
      rw [hw] at hc
      exact absurd (List.mem_append_right cs List.mem_cons_self) hc

/-! ## Trimmed texts -/

theorem head?_dropWhile (p : Char → Bool) (cs : List Char) :
    ∀ c ∈ (cs.dropWhile p).head?, p c = false := by
  intro c hc
  have hstop := List.head?_dropWhile_not p cs
  rw [Option.mem_def.1 hc] at hstop
  exact hstop

theorem trimWhere_of_ends (hfirst : ∀ c ∈ cs.head?, p c = false)
    (hlast : ∀ c ∈ cs.getLast?, p c = false) : trimWhere p cs = cs := by
  rw [trimWhere, dropWhile_of_head? hfirst, dropWhile_of_head?, List.reverse_reverse]
  rwa [List.head?_reverse]

/-- A trimmed text is not trimmed any more. -/
theorem trimWhere_trimWhere (p : Char → Bool) (cs : List Char) :
    trimWhere p (trimWhere p cs) = trimWhere p cs := by
  apply trimWhere_of_ends
  · have hprefix : trimWhere p cs <+: cs.dropWhile p := by
      rw [← List.reverse_suffix, trimWhere, List.reverse_reverse]
      exact List.dropWhile_suffix p
    obtain ⟨bs, hbs⟩ := hprefix
    intro c hc
    apply head?_dropWhile p cs c
    rw [← hbs, List.head?_append, Option.mem_def.1 hc]
    rfl
  · rw [trimWhere, List.getLast?_reverse]
    exact head?_dropWhile p _

theorem trim_trim (s : String) : trim (trim s) = trim s := by
  rw [trim, trim, String.toList_ofList, trimWhere_trimWhere]

/-! ## Pieces -/

theorem splitAt_ne_nil (separator : Char) (cs : List Char) :
    splitAt separator cs ≠ [] := by
  cases cs with
  | nil => simp [splitAt]
  | cons c cs =>
    unfold splitAt
    repeat' split
    all_goals simp

theorem splitAt_cons_separator (separator : Char) (cs : List Char) :
    splitAt separator (separator :: cs) = [] :: splitAt separator cs :=
  if_pos (beq_self_eq_true separator)

/-- Any other character is put in front of the first piece. -/
theorem exists_splitAt_cons {c separator : Char} (h : c ≠ separator) (cs : List Char) :
    ∃ piece pieces, splitAt separator cs = piece :: pieces ∧
      splitAt separator (c :: cs) = (c :: piece) :: pieces := by
  obtain ⟨piece, pieces, hcs⟩ := List.exists_cons_of_ne_nil (splitAt_ne_nil separator cs)
  have hc : ¬(c == separator) = true := by simpa using h
  refine ⟨piece, pieces, hcs, (if_neg hc).trans ?_⟩
  rw [hcs]

theorem splitAt_of_notMem {separator : Char} (h : separator ∉ cs) :
    splitAt separator cs = [cs] := by
  induction cs with
  | nil => rfl
  | cons c cs ih =>
    rw [List.mem_cons, not_or] at h
    obtain ⟨piece, pieces, hcs, hcons⟩ := exists_splitAt_cons (Ne.symm h.1) cs
    rw [ih h.2] at hcs
    obtain ⟨rfl, rfl⟩ := List.cons.inj hcs
    exact hcons

theorem notMem_of_mem_splitAt {separator : Char} {cs piece : List Char}
    (h : piece ∈ splitAt separator cs) : separator ∉ piece := by
  induction cs generalizing piece with
  | nil =>
    rw [List.mem_singleton.1 h]
    exact List.not_mem_nil
  | cons c cs ih =>
    by_cases hc : c = separator
    · rw [hc, splitAt_cons_separator, List.mem_cons] at h
      rcases h with rfl | hmem
      · exact List.not_mem_nil
      · exact ih hmem
    · obtain ⟨first, pieces, hcs, hcons⟩ := exists_splitAt_cons hc cs
      rw [hcons, List.mem_cons] at h
      rcases h with rfl | hmem
      · rw [List.mem_cons, not_or]
        exact ⟨Ne.symm hc, ih (hcs ▸ List.mem_cons_self)⟩
      · exact ih (hcs ▸ List.mem_cons_of_mem first hmem)

/-- A separator between two texts separates their pieces. -/
theorem splitAt_append_separator (separator : Char) (cs rest : List Char) :
    splitAt separator (cs ++ separator :: rest) =
      splitAt separator cs ++ splitAt separator rest := by
  induction cs with
  | nil => exact splitAt_cons_separator separator rest
  | cons c cs ih =>
    by_cases hc : c = separator
    · rw [hc, List.cons_append, splitAt_cons_separator, splitAt_cons_separator, ih,
        List.cons_append]
    · obtain ⟨piece, pieces, hcs, hcons⟩ := exists_splitAt_cons hc cs
      obtain ⟨first, others, hall, hwhole⟩ :=
        exists_splitAt_cons hc (cs ++ separator :: rest)
      rw [ih, hcs, List.cons_append] at hall
      obtain ⟨rfl, rfl⟩ := List.cons.inj hall
      rw [List.cons_append, hwhole, hcons, List.cons_append]

theorem splitAt_append_cons {separator : Char} (h : separator ∉ cs)
    (rest : List Char) :
    splitAt separator (cs ++ separator :: rest) = cs :: splitAt separator rest := by
  rw [splitAt_append_separator, splitAt_of_notMem h, List.singleton_append]

/-- The pieces of a text, joined again. -/
theorem intercalate_splitAt (separator : Char) (cs : List Char) :
    [separator].intercalate (splitAt separator cs) = cs := by
  induction cs with
  | nil => rfl
  | cons c cs ih =>
    by_cases hc : c = separator
    · obtain ⟨piece, pieces, hcs⟩ := List.exists_cons_of_ne_nil (splitAt_ne_nil separator cs)
      rw [hc, splitAt_cons_separator, hcs, List.intercalate_cons_cons, ← hcs, ih]
      rfl
    · obtain ⟨piece, pieces, hcs, hcons⟩ := exists_splitAt_cons hc cs
      rw [hcons]
      rw [hcs] at ih
      cases pieces with
      | nil => simpa using ih
      | cons second pieces =>
        rw [List.intercalate_cons_cons] at ih ⊢
        rw [← ih]
        rfl

theorem splitAt_injective (separator : Char) : Function.Injective (splitAt separator) :=
  Function.LeftInverse.injective (intercalate_splitAt separator)

/-- Pieces without the separator, joined with it, are the pieces again. -/
theorem splitAt_intercalate {separator : Char} {piece : List Char} {pieces : List (List Char)}
    (h : ∀ cs ∈ piece :: pieces, separator ∉ cs) :
    splitAt separator ([separator].intercalate (piece :: pieces)) = piece :: pieces := by
  induction pieces generalizing piece with
  | nil =>
    have hpiece := h piece List.mem_cons_self
    simpa using splitAt_of_notMem hpiece
  | cons second pieces ih =>
    have hpiece := h piece List.mem_cons_self
    rw [List.intercalate_cons_cons, List.append_assoc, List.singleton_append,
      splitAt_append_cons hpiece, ih fun cs hcs => h cs (List.mem_cons_of_mem piece hcs)]

/-- In a joined text, every piece stands at the start or behind a separator, and at the end or in
front of one. -/
theorem exists_intercalate_eq (separator : String) {piece : String} {pieces : List String}
    (h : piece ∈ pieces) :
    ∃ before after, separator.intercalate pieces = before ++ piece ++ after ∧
      (before = "" ∨ ∃ first, before = first ++ separator) ∧
      (after = "" ∨ ∃ last, after = separator ++ last) := by
  obtain ⟨first, last, rfl⟩ := List.append_of_mem h
  obtain ⟨after, htail, hafter⟩ : ∃ after, separator.intercalate (piece :: last) = piece ++ after ∧
      (after = "" ∨ ∃ last, after = separator ++ last) := by
    cases last with
    | nil => exact ⟨"", by simp, .inl rfl⟩
    | cons next last =>
      refine ⟨_, ?_, .inr ⟨separator.intercalate (next :: last), rfl⟩⟩
      rw [String.intercalate_cons_cons, String.append_assoc]
  by_cases hfirst : first = []
  · exact ⟨"", after, by simpa [hfirst] using htail, .inl rfl, hafter⟩
  · refine ⟨separator.intercalate first ++ separator, after, ?_, .inr ⟨_, rfl⟩, hafter⟩
    rw [String.intercalate_append_of_ne_nil hfirst (List.cons_ne_nil _ _), htail]
    simp only [String.append_assoc]

/-! ## Texts in texts -/

variable {s u needle : String}

theorem contains_iff :
    contains s needle = true ↔ ∃ before after, s = before ++ needle ++ after := by
  rw [contains, occursIn_iff]
  constructor
  · rintro ⟨before, after, heq⟩
    refine ⟨String.ofList before, String.ofList after, ?_⟩
    rw [← String.toList_inj, ← heq]
    simp only [String.toList_append, String.toList_ofList]
  · rintro ⟨before, after, rfl⟩
    refine ⟨before.toList, after.toList, ?_⟩
    simp only [String.toList_append]

theorem contains_trans (hs : contains s needle = true) (hu : contains u s = true) :
    contains u needle = true := by
  rw [contains, occursIn_iff] at *
  exact hs.trans hu

theorem contains_append_left (u : String) (h : contains s needle = true) :
    contains (s ++ u) needle = true :=
  contains_trans h (contains_iff.2 ⟨"", u, by rw [String.empty_append]⟩)

theorem contains_append_right (s : String) (h : contains u needle = true) :
    contains (s ++ u) needle = true :=
  contains_trans h (contains_iff.2 ⟨s, "", by rw [String.append_empty]⟩)

/-- Every piece stands in a joined text. -/
theorem contains_intercalate {separator piece : String} {pieces : List String}
    (h : piece ∈ pieces) : contains (separator.intercalate pieces) piece = true := by
  obtain ⟨before, after, heq, -⟩ := exists_intercalate_eq separator h
  exact contains_iff.2 ⟨before, after, heq⟩

theorem prefix_append {word start rest : String} (h : word.toList <+: start.toList) :
    word.toList <+: (start ++ rest).toList := by
  rw [String.toList_append]
  exact h.trans (List.prefix_append ..)

theorem prefix_intercalate {separator word first : String} {pieces : List String}
    (h : word.toList <+: first.toList) :
    word.toList <+: (separator.intercalate (first :: pieces)).toList := by
  cases pieces with
  | nil => rwa [String.intercalate_singleton]
  | cons second pieces =>
    rw [String.intercalate_cons_cons]
    exact prefix_append (prefix_append h)

end PgSchema.Text
