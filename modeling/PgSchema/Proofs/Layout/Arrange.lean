/-
# The ink of arranged statements

Arranging a statement breaks lines beside punctuation and at spaces, so it keeps the ink.

* `ink_arrangeTable`, `ink_wrapFrom` : the two ways to break a statement keep its ink;
* `ink_of_arrange` : so does the arrangement of a statement with comments before it.
-/
import PgSchema.Layout
import PgSchema.Proofs.Layout.Canonical

namespace PgSchema.Layout

open Text

/-! ## Trimmed texts -/

/-- Trimming at the end takes characters that satisfy `p`. -/
theorem trimEndWhere_append (p : Char → Bool) (cs : List Char) :
    ∃ bs, bs.all p = true ∧ cs = trimEndWhere p cs ++ bs := by
  refine ⟨(cs.reverse.takeWhile p).reverse, by simp [List.all_takeWhile], ?_⟩
  rw [trimEndWhere, ← List.reverse_append, List.takeWhile_append_dropWhile, List.reverse_reverse]

/-- Trimming takes characters that satisfy `p` from both ends. -/
theorem append_trimWhere_append (p : Char → Bool) (cs : List Char) :
    ∃ as bs, as.all p = true ∧ bs.all p = true ∧ cs = as ++ trimWhere p cs ++ bs := by
  obtain ⟨bs, hbs, h⟩ := trimEndWhere_append p (cs.dropWhile p)
  refine ⟨cs.takeWhile p, bs, by simp [List.all_takeWhile], hbs, ?_⟩
  rw [List.append_assoc, trimWhere, ← trimEndWhere, ← h, List.takeWhile_append_dropWhile]

/-- Trimming keeps the ink of a text that starts behind white space or where it is free. -/
theorem ink_trimWhere {j : Joint} (hj : j ≠ .joined) (cs : List Char) :
    ink j (trimWhere isBlank cs) = ink j cs := by
  obtain ⟨as, bs, has, hbs, h⟩ := append_trimWhere_append isBlank cs
  rw [h, ink_append_all_blank hbs, ink_all_blank_append has hj, ← h]

theorem ink_trimEndWhere (j : Joint) (cs : List Char) :
    ink j (trimEndWhere isBlank cs) = ink j cs := by
  obtain ⟨bs, hbs, h⟩ := trimEndWhere_append isBlank cs
  rw [h, ink_append_all_blank hbs, ← h]

/-! ## Table bodies -/

/-- The ink on the two sides of punctuation is independent. -/
theorem ink_append_punctuation {c : Char} (hc : isPunctuation c = true) (j : Joint)
    (cs ds : List Char) : ink j (cs ++ c :: ds) = ink j cs ++ (false, c) :: ink .free ds := by
  rw [ink_append, ink_punctuation hc]

/-- A body and the text behind it stand on the two sides of the closing parenthesis. -/
theorem of_splitClosing_eq_some {depth : Nat} {cs body rest : List Char}
    (h : splitClosing depth cs = some (body, rest)) : cs = body ++ ')' :: rest := by
  fun_induction splitClosing depth cs generalizing body with
  | case1 => simp at h
  | case2 c cs hc =>
    obtain ⟨rfl, rfl⟩ := by simpa using h
    rw [beq_iff_eq.1 hc, List.nil_append]
  | case3 c cs hc depth ih =>
    obtain ⟨⟨body', rest'⟩, h', heq⟩ := Option.map_eq_some_iff.1 h
    obtain ⟨rfl, rfl⟩ := heq
    rw [ih h', List.cons_append]
  | case4 depth c cs hc ih =>
    obtain ⟨⟨body', rest'⟩, h', heq⟩ := Option.map_eq_some_iff.1 h
    obtain ⟨rfl, rfl⟩ := heq
    rw [ih h', List.cons_append]

theorem splitElements_ne_nil (depth : Nat) (cs : List Char) : splitElements depth cs ≠ [] := by
  fun_cases splitElements depth cs <;> simp_all

/-- The elements of a body, with commas between them, are the body. -/
theorem intercalate_splitElements (depth : Nat) (cs : List Char) :
    [','].intercalate (splitElements depth cs) = cs := by
  fun_induction splitElements depth cs with
  | case1 => rfl
  | case2 depth c cs h ih =>
    simp only [Bool.and_eq_true, beq_iff_eq] at h
    cases hes : splitElements 0 cs with
    | nil => exact absurd hes (splitElements_ne_nil 0 cs)
    | cons e es =>
      rw [hes] at ih
      rw [List.intercalate_cons_cons, ih, h.1]
      rfl
  | case3 depth c cs h depth' hes ih => exact absurd hes (splitElements_ne_nil _ _)
  | case4 depth c cs h depth' e es hes ih =>
    rw [hes] at ih
    cases es with
    | nil => simpa using ih
    | cons e' es =>
      rw [List.intercalate_cons_cons] at ih ⊢
      rw [← ih]
      rfl

/-- The closing parenthesis of a table body and the line break before the tail behind it. -/
def closingOf (tail : List Char) : List Char :=
  if tail.isEmpty || tail.head? == some ';' then [')'] else [')', '\n']

/-- A table statement with its elements on lines of their own. -/
def tableLines (head : List Char) (elements : List (List Char)) (tail : List Char) : List Char :=
  trimEndWhere isBlank head ++ [' ', '(', '\n'] ++
    [',', '\n'].intercalate (elements.map (indent ++ ·)) ++ '\n' :: closingOf tail ++ tail

/-- A table statement is arranged if its first parenthesis is closed and has something in it. -/
theorem arrangeTable_of_body {head inside body rest : List Char}
    (hhead : head.all (· != '(') = true) (hclose : splitClosing 0 inside = some (body, rest))
    (hbody : ((splitElements 0 body).map (trimWhere isBlank)).all (·.isEmpty) = false) :
    arrangeTable (head ++ '(' :: inside) =
      tableLines head ((splitElements 0 body).map (trimWhere isBlank))
        (trimWhere isBlank rest) := by
  have htake : (head ++ '(' :: inside).takeWhile (· != '(') = head := by
    rw [List.takeWhile_append_of_pos (by simpa using hhead)]
    simp
  have hdrop : (head ++ '(' :: inside).dropWhile (· != '(') = '(' :: inside := by
    rw [List.dropWhile_append_of_pos (by simpa using hhead)]
    simp
  simp only [arrangeTable, htake, hdrop, hclose, hbody]
  rfl

/-- A table statement is either left as it is or arranged. -/
theorem arrangeTable_cases (cs : List Char) :
    arrangeTable cs = cs ∨ ∃ head inside body rest,
      head.all (· != '(') = true ∧ cs = head ++ '(' :: inside ∧
      splitClosing 0 inside = some (body, rest) ∧
      ((splitElements 0 body).map (trimWhere isBlank)).all (·.isEmpty) = false := by
  cases hopen : cs.dropWhile (· != '(') with
  | nil => exact .inl (by simp [arrangeTable, hopen])
  | cons c inside =>
    have hc : c = '(' := by
      have hstop := List.head?_dropWhile_not (· != '(') cs
      rw [hopen] at hstop
      simpa using hstop
    subst hc
    cases hclose : splitClosing 0 inside with
    | none => exact .inl (by simp [arrangeTable, hopen, hclose])
    | some parts =>
      obtain ⟨body, rest⟩ := parts
      cases hbody : ((splitElements 0 body).map (trimWhere isBlank)).all (·.isEmpty) with
      | true => exact .inl (by simp only [arrangeTable, hopen, hclose, hbody, if_true])
      | false =>
        refine .inr ⟨cs.takeWhile (· != '('), inside, body, rest, List.all_takeWhile, ?_, hclose,
          hbody⟩
        rw [← hopen, List.takeWhile_append_dropWhile]

/-- Elements on lines of their own have the ink of the elements with commas between them. -/
theorem ink_intercalate_elements (es : List (List Char)) :
    ink .free ([',', '\n'].intercalate ((es.map (trimWhere isBlank)).map (indent ++ ·)))
      = ink .free ([','].intercalate es) := by
  have hone : ∀ e : List Char, ink .free (indent ++ trimWhere isBlank e) = ink .free e := by
    intro e
    rw [ink_all_blank_append (by decide) (by decide), ink_trimWhere (by decide)]
  induction es with
  | nil => rfl
  | cons e es ih =>
    cases es with
    | nil => simpa using hone e
    | cons e' es =>
      simp only [List.map_cons] at ih ⊢
      rw [List.intercalate_cons_cons, List.intercalate_cons_cons, List.append_assoc _ [',', '\n'],
        List.append_assoc _ [','], List.cons_append, List.singleton_append, List.singleton_append,
        ink_append_punctuation (by decide), ink_append_punctuation (by decide), hone,
        ink_cons_blank (by decide), Joint.blank, ih]

/-- The tail of a table statement stands behind the closing parenthesis, on its line or not. -/
theorem closingOf_append (tail : List Char) :
    ∃ bs, bs.all isBlank = true ∧ closingOf tail ++ tail = ')' :: (bs ++ tail) := by
  rw [closingOf]
  split
  · exact ⟨[], rfl, rfl⟩
  · exact ⟨['\n'], by decide, rfl⟩

theorem ink_tableLines (j : Joint) (head body rest : List Char) :
    ink j (tableLines head ((splitElements 0 body).map (trimWhere isBlank))
      (trimWhere isBlank rest)) = ink j (head ++ '(' :: (body ++ ')' :: rest)) := by
  obtain ⟨bs, hbs, htail⟩ := closingOf_append (trimWhere isBlank rest)
  have hlines : tableLines head ((splitElements 0 body).map (trimWhere isBlank))
      (trimWhere isBlank rest) =
        (trimEndWhere isBlank head ++ [' ']) ++ '(' :: ('\n' ::
          ([',', '\n'].intercalate
            (((splitElements 0 body).map (trimWhere isBlank)).map (indent ++ ·)) ++ ['\n']) ++
          ')' :: (bs ++ trimWhere isBlank rest)) := by
    rw [tableLines, ← htail]
    simp
  rw [hlines, ink_append_punctuation (by decide), ink_append_all_blank (by decide),
    ink_trimEndWhere, ink_append_punctuation (by decide), ink_cons_blank (by decide),
    Joint.blank, ink_append_all_blank (by decide), ink_intercalate_elements,
    intercalate_splitElements, ink_all_blank_append hbs (by decide), ink_trimWhere (by decide),
    ← ink_append_punctuation (by decide), ← ink_append_punctuation (by decide)]

/-- A table body keeps its ink when each element gets its line. -/
theorem ink_arrangeTable (j : Joint) (cs : List Char) : ink j (arrangeTable cs) = ink j cs := by
  obtain h | ⟨head, inside, body, rest, hhead, rfl, hclose, hbody⟩ := arrangeTable_cases cs
  · rw [h]
  · rw [arrangeTable_of_body hhead hclose hbody, ink_tableLines, ← of_splitClosing_eq_some hclose]

/-! ## Clauses -/

/-- Breaking a line at a space keeps the ink. -/
theorem ink_wrapFrom (j : Joint) (depth : Int) (keywords : List (List Char)) (cs : List Char) :
    ink j (wrapFrom depth keywords cs) = ink j cs := by
  fun_induction wrapFrom depth keywords cs generalizing j with
  | case1 => rfl
  | case2 depth keywords c cs _ ih => exact ink_cons_congr ih j c
  | case3 depth keywords c cs _ _ ih => exact ink_cons_congr ih j c
  | case4 depth keywords c cs _ _ h keyword _ ih =>
    simp only [Bool.and_eq_true, beq_iff_eq] at h
    rw [h.1, List.cons_append, ink_cons_blank (by decide), ink_cons_blank (by decide),
      ink_all_blank_append (by decide) (Joint.blank_ne_joined j), ih]
  | case5 depth keywords c cs _ _ _ _ ih => exact ink_cons_congr ih j c
  | case6 depth keywords c cs _ _ _ ih => exact ink_cons_congr ih j c

/-! ## Leading comments -/

/-- A statement without the comments that precede it. -/
def withoutLeading (cs : List Char) : List Char := cs.drop (leadingMasksFrom 0 cs)

/-- The mask of a comment, and the space behind that of a block comment. -/
theorem leadingMask?_eq_some_iff {cs : List Char} {n : Nat} :
    leadingMask? cs = some n ↔ ∃ mark digits rest, cs = mark :: (digits ++ mark :: rest) ∧
      (mark = lineMark ∨ mark = blockMark) ∧ digits ≠ [] ∧ digits.all isDecimalDigit = true ∧
      n = if mark = blockMark ∧ rest.head? = some ' ' then digits.length + 3
        else digits.length + 2 := by
  constructor
  · intro h
    cases cs with
    | nil => simp [leadingMask?] at h
    | cons c cs =>
      rw [leadingMask?] at h
      have hcs := List.takeWhile_append_dropWhile (p := isDecimalDigit) (l := cs)
      cases hdrop : cs.dropWhile isDecimalDigit with
      | nil => simp [hdrop] at h
      | cons d rest =>
        simp only [hdrop] at h
        split at h
        · next hmask =>
          simp only [Bool.and_eq_true, Bool.or_eq_true, beq_iff_eq, Bool.not_eq_true',
            List.isEmpty_eq_false_iff] at hmask h
          obtain ⟨⟨hmark, hne⟩, rfl⟩ := hmask
          rw [hdrop] at hcs
          -- the digits are all that stand behind the first mark; the second mark ends them
          refine ⟨d, cs.takeWhile isDecimalDigit, rest, by rw [hcs], hmark, hne,
            List.all_takeWhile, ?_⟩
          split at h
          · next hspace => rw [if_pos hspace, Option.some.inj h]
          · next hspace => rw [if_neg hspace, Option.some.inj h]
        · simp at h
  · rintro ⟨mark, digits, rest, rfl, hmark, hne, hdigits, rfl⟩
    have hm : isMark mark = true := by rcases hmark with rfl | rfl <;> decide
    obtain ⟨htake, hdrop⟩ := span_digits hdigits hm rest
    rw [leadingMask?]
    simp only [htake, hdrop]
    rw [if_pos (by rcases hmark with rfl | rfl <;> simp [hne])]
    simp only [Bool.and_eq_true, beq_iff_eq]
    split <;> rfl

theorem leadingMasksFrom_eq_drop {skip : Nat} {cs : List Char} (h : skip ≤ cs.length) :
    leadingMasksFrom skip cs = skip + leadingMasksFrom 0 (cs.drop skip) := by
  induction cs generalizing skip with
  | nil => simp [leadingMasksFrom, Nat.le_zero.1 h]
  | cons c cs ih =>
    cases skip with
    | zero => simp
    | succ skip =>
      rw [leadingMasksFrom, ih (Nat.le_of_succ_le_succ h), List.drop_succ_cons]
      omega

/-- The comments that precede a statement are taken one after the other. -/
theorem withoutLeading_mask {mark : Char} {digits rest : List Char}
    (hmark : mark = lineMark ∨ mark = blockMark) (hne : digits ≠ [])
    (hdigits : digits.all isDecimalDigit = true) :
    withoutLeading (mark :: (digits ++ mark :: rest)) =
      withoutLeading (if mark = blockMark ∧ rest.head? = some ' ' then rest.tail else rest) := by
  have hmask := leadingMask?_eq_some_iff.2 ⟨mark, digits, rest, rfl, hmark, hne, hdigits, rfl⟩
  rw [withoutLeading, leadingMasksFrom]
  simp only [hmask]
  rw [leadingMasksFrom_eq_drop]
  · rw [Nat.add_comm 1, List.drop_succ_cons, ← List.drop_drop, withoutLeading]
    split
    · rw [show (digits ++ mark :: rest).drop (digits.length + 3 - 1) = rest.tail by
        simp [List.drop_append]]
    · rw [show (digits ++ mark :: rest).drop (digits.length + 2 - 1) = rest by
        simp [List.drop_append]]
  · split
    · next hspace =>
      have hlt : 0 < rest.length := by
        cases rest with
        | nil => simp at hspace
        | cons => simp
      rw [List.length_append, List.length_cons]
      omega
    · rw [List.length_append, List.length_cons]
      omega

theorem withoutLeading_of_eq_none {cs : List Char} (h : leadingMask? cs = none) :
    withoutLeading cs = cs := by
  cases cs with
  | nil => rfl
  | cons c cs => simp [withoutLeading, leadingMasksFrom, h]

/-- A statement is read by the comments that precede it. -/
theorem leading_induction {motive : List Char → Prop}
    (mask : ∀ mark digits rest, (mark = lineMark ∨ mark = blockMark) → digits ≠ [] →
      digits.all isDecimalDigit = true →
      motive (if mark = blockMark ∧ rest.head? = some ' ' then rest.tail else rest) →
      motive (mark :: (digits ++ mark :: rest)))
    (bare : ∀ cs, leadingMask? cs = none → motive cs)
    (cs : List Char) : motive cs := by
  induction hn : cs.length using Nat.strongRecOn generalizing cs with
  | _ n ih =>
    cases h : leadingMask? cs with
    | none => exact bare cs h
    | some k =>
      obtain ⟨mark, digits, rest, rfl, hmark, hne, hdigits, -⟩ := leadingMask?_eq_some_iff.1 h
      refine mask mark digits rest hmark hne hdigits (ih _ ?_ _ rfl)
      rw [List.length_cons, List.length_append, List.length_cons] at hn
      split
      · rw [List.length_tail]
        omega
      · omega

/-- The numbers behind the leading comments are looked up in the whole statement too. -/
theorem mem_lookups_of_mem_withoutLeading {digits : List Char} (cs : List Char)
    (h : digits ∈ lookups (withoutLeading cs)) : digits ∈ lookups cs := by
  induction cs using leading_induction with
  | mask mark ds rest hmark hne hds ih =>
    have hm : isMark mark = true := by rcases hmark with rfl | rfl <;> decide
    rw [withoutLeading_mask hmark hne hds] at h
    rw [lookups_mask_append hm hm hne hds]
    refine List.mem_cons_of_mem _ ?_
    have hrest := ih h
    split at hrest
    · next hspace =>
      obtain ⟨rest', rfl⟩ := List.head?_eq_some_iff.1 hspace.2
      rw [lookups, lookupsFrom_cons_of_not_isMaskChar (by decide)]
      exact hrest
    · exact hrest
  | bare cs hnone =>
    rw [withoutLeading_of_eq_none hnone] at h
    exact h

/-! ## Statements -/

/-- The arrangement of a statement that no comment precedes keeps the ink. -/
theorem ink_of_arrangeBare {segments : List (List Char)} {cs ds : List Char}
    (h : arrangeBare segments cs = .ok ds) (j : Joint) : ink j ds = ink j cs := by
  rw [arrangeBare] at h
  split at h
  · obtain rfl := Except.ok.inj h
    exact ink_arrangeTable j cs
  · cases hlength : unmask segments cs with
    | error e => simp [hlength, bind, Except.bind] at h
    | ok text =>
      simp only [hlength, bind, Except.bind, pure, Except.pure] at h
      split at h
      · rw [Except.ok.inj h]
      · rw [← Except.ok.inj h, ink_wrapFrom]

/-- The arrangement of a statement keeps its ink. -/
theorem ink_of_arrange {segments : List (List Char)} {cs ds : List Char}
    (h : arrange segments cs = .ok ds) (j : Joint) : ink j ds = ink j cs := by
  rw [arrange] at h
  cases hbare : arrangeBare segments (cs.drop (leadingMasksFrom 0 cs)) with
  | error e => simp [hbare, Except.map] at h
  | ok bare =>
    simp only [hbare, Except.map, Except.ok.injEq] at h
    rw [← h, ink_append, ink_of_arrangeBare hbare, ← ink_append, List.take_append_drop]

/-- A statement that no comment precedes can be arranged if it is a table statement or all its
masks stand for segments. -/
theorem exists_arrangeBare_eq_ok_iff {segments : List (List Char)} {cs : List Char} :
    (∃ ds, arrangeBare segments cs = .ok ds) ↔ "CREATE TABLE ".toList.isPrefixOf cs = true ∨
      ∀ digits ∈ lookups cs, ∃ segment, segmentOf segments digits = .ok segment := by
  rw [← unmask_eq_ok_iff, arrangeBare]
  by_cases htable : "CREATE TABLE ".toList.isPrefixOf cs = true
  · rw [if_pos htable]
    exact ⟨fun _ => .inl htable, fun _ => ⟨_, rfl⟩⟩
  · rw [if_neg htable]
    cases unmask segments cs with
    | error e =>
      simp only [bind, Except.bind, reduceCtorEq, exists_false, or_false, false_iff]
      exact htable
    | ok text =>
      refine ⟨fun _ => .inr ⟨text, rfl⟩, fun _ => ?_⟩
      simp only [bind, Except.bind, pure, Except.pure]
      split <;> exact ⟨_, rfl⟩

/-- A statement can be arranged if all its masks stand for segments. -/
theorem exists_arrange_eq_ok {segments : List (List Char)} {cs : List Char}
    (h : ∀ digits ∈ lookups cs, ∃ segment, segmentOf segments digits = .ok segment) :
    ∃ ds, arrange segments cs = .ok ds := by
  obtain ⟨bare, hbare⟩ : ∃ bare, arrangeBare segments (withoutLeading cs) = .ok bare :=
    exists_arrangeBare_eq_ok_iff.2 <| .inr fun digits hdigits =>
      h digits (mem_lookups_of_mem_withoutLeading cs hdigits)
  rw [withoutLeading] at hbare
  simp only [arrange, hbare, Except.map]
  exact ⟨_, rfl⟩

end PgSchema.Layout
