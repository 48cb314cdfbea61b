/-
# Settled texts and table bodies

In a settled text every white space is a single space between two characters that keep it; a text
cut out of it between other characters is settled too.  The elements of a table body are parted by
the commas outside parentheses, so in a body put together from texts that close the parentheses
they open these texts are found again, cut at their own commas.

* `SettledFrom`, `Settled` : settled texts, read from left to right;
* `canonical_of_settled` : a settled text is its own canonical form;
* `render_body` : the elements of a body that was put together from balanced texts.
-/
import PgSchema.Proofs.Layout.Arrange
import PgSchema.Proofs.Layout.Settled

namespace PgSchema.Layout

open Text

/-! ## Settled texts -/

/-- Holds for a text behind the character `c` in which every white space is a single space
between two characters that keep it. -/
def SettledFrom (c : Char) : List Char → Prop
  | [] => True
  | d :: cs =>
    if isBlank d then
      d = ' ' ∧ (∃ e, cs.head? = some e ∧ isBlank e = false ∧ keeps c e = true) ∧ SettledFrom c cs
    else SettledFrom d cs

/-- Holds for a text that starts with no white space and is settled. -/
def Settled : List Char → Prop
  | [] => True
  | c :: cs => isBlank c = false ∧ SettledFrom c cs

/-- The last character of a text other than white space, where `c` stands before the text. -/
def lastSolid (c : Char) : List Char → Char
  | [] => c
  | d :: cs => lastSolid (if isBlank d then c else d) cs

theorem settledFrom_cons_blank {c d : Char} {cs : List Char} (hd : isBlank d = true) :
    SettledFrom c (d :: cs) ↔
      d = ' ' ∧ (∃ e, cs.head? = some e ∧ isBlank e = false ∧ keeps c e = true) ∧
        SettledFrom c cs := by
  rw [SettledFrom, if_pos hd]

theorem settledFrom_cons {c d : Char} {cs : List Char} (hd : isBlank d = false) :
    SettledFrom c (d :: cs) ↔ SettledFrom d cs := by
  simp [SettledFrom, hd]

theorem lastSolid_cons_blank {c d : Char} {cs : List Char} (hd : isBlank d = true) :
    lastSolid c (d :: cs) = lastSolid c cs := by
  rw [lastSolid, if_pos hd]

theorem lastSolid_cons {c d : Char} {cs : List Char} (hd : isBlank d = false) :
    lastSolid c (d :: cs) = lastSolid d cs := by
  simp [lastSolid, hd]

/-- The rest of a settled text is settled behind its last character other than white space. -/
theorem SettledFrom.of_append_right {c : Char} {cs ds : List Char}
    (h : SettledFrom c (cs ++ ds)) : SettledFrom (lastSolid c cs) ds := by
  induction cs generalizing c with
  | nil => exact h
  | cons d cs ih =>
    rw [List.cons_append] at h
    by_cases hd : isBlank d = true
    · rw [lastSolid_cons_blank hd]
      exact ih ((settledFrom_cons_blank hd).1 h).2.2
    · rw [Bool.not_eq_true] at hd
      rw [lastSolid_cons hd]
      exact ih ((settledFrom_cons hd).1 h)

/-- The start of a settled text is settled if it does not end with white space. -/
theorem SettledFrom.of_append_left {c : Char} {cs ds : List Char}
    (h : SettledFrom c (cs ++ ds)) (hlast : blankBehind false cs = false) : SettledFrom c cs := by
  induction cs generalizing c with
  | nil => trivial
  | cons d cs ih =>
    rw [List.cons_append] at h
    rw [blankBehind] at hlast
    by_cases hd : isBlank d = true
    · obtain ⟨hspace, ⟨e, hhead, he, hkeep⟩, hrest⟩ := (settledFrom_cons_blank hd).1 h
      rw [hd] at hlast
      cases cs with
      | nil => simp [blankBehind] at hlast
      | cons f cs =>
        exact (settledFrom_cons_blank hd).2 ⟨hspace, ⟨e, hhead, he, hkeep⟩, ih hrest hlast⟩
    · rw [Bool.not_eq_true] at hd
      rw [hd] at hlast
      exact (settledFrom_cons hd).2 (ih ((settledFrom_cons hd).1 h) hlast)

/-- Settled text is the text of its strokes. -/
theorem render_append_of_settledFrom {c : Char} {cs : List Char} (h : SettledFrom c cs)
    (ds : List Char) :
    render (clear keeps c (strokes false (cs ++ ds))) =
      cs ++ render (clear keeps (lastSolid c cs) (strokes false ds)) := by
  induction hn : cs.length using Nat.strongRecOn generalizing cs c with
  | _ n ih =>
    cases cs with
    | nil => rfl
    | cons d cs =>
      by_cases hd : isBlank d = true
      · obtain ⟨rfl, ⟨e, hhead, he, hkeep⟩, hrest⟩ := (settledFrom_cons_blank hd).1 h
        obtain ⟨cs, rfl⟩ := List.head?_eq_some_iff.1 hhead
        rw [List.cons_append, List.cons_append, strokes_cons_blank hd, strokes_cons he, clear,
          hkeep, Bool.and_self, render, if_pos rfl,
          ih cs.length (by simp only [← hn, List.length_cons]; omega)
            ((settledFrom_cons he).1 hrest) rfl,
          lastSolid_cons_blank hd, lastSolid_cons he]
        rfl
      · rw [Bool.not_eq_true] at hd
        rw [List.cons_append, strokes_cons hd, clear, Bool.false_and, render,
          if_neg Bool.false_ne_true,
          ih cs.length (by simp [← hn]) ((settledFrom_cons hd).1 h) rfl, lastSolid_cons hd]
        rfl

/-- The text of settled strokes is settled. -/
theorem settledFrom_render {c : Char} {S : List (Bool × Char)} (h : IsSolid S) :
    SettledFrom c (render (clear keeps c S)) := by
  induction S generalizing c with
  | nil => trivial
  | cons s S ih =>
    obtain ⟨b, d⟩ := s
    rw [isSolid_cons] at h
    have hrest : SettledFrom c (d :: render (clear keeps d S)) :=
      (settledFrom_cons h.1).2 (ih h.2)
    rw [clear, render]
    cases hkeep : b && keeps c d with
    | false => exact hrest
    | true =>
      rw [Bool.and_eq_true] at hkeep
      exact (settledFrom_cons_blank (by decide)).2 ⟨rfl, ⟨d, rfl, h.1, hkeep.2⟩, hrest⟩

/-- A text with white space where the canonical form has it. -/
def spaced (cs : List Char) : List Char := render (settle (strokes false cs))

theorem canonical_eq_spaced {cs : List Char} (h : WellMasked cs) : canonical cs = spaced cs :=
  canonical_eq_render h

theorem settled_spaced (cs : List Char) : Settled (spaced cs) := by
  rw [spaced]
  have hsolid := isSolid_strokes false cs
  cases hS : strokes false cs with
  | nil => trivial
  | cons s S =>
    rw [hS, isSolid_cons] at hsolid
    exact ⟨hsolid.1, settledFrom_render hsolid.2⟩

theorem settled_canonical {cs : List Char} (h : WellMasked cs) : Settled (canonical cs) := by
  rw [canonical_eq_spaced h]
  exact settled_spaced cs

/-- Settled text at the start of a text stays in the canonical form. -/
theorem render_settle_append {cs : List Char} {c : Char} (h : Settled (c :: cs)) (b : Bool)
    (ds : List Char) : render (settle (strokes b (c :: cs ++ ds))) =
      c :: cs ++ render (clear keeps (lastSolid c cs) (strokes false ds)) := by
  rw [List.cons_append, strokes_cons h.1, settle, settleWith, render, if_neg Bool.false_ne_true,
    render_append_of_settledFrom h.2]
  rfl

theorem spaced_of_settled {cs : List Char} (h : Settled cs) : spaced cs = cs := by
  cases cs with
  | nil => rfl
  | cons c cs =>
    have hcs := render_settle_append h false []
    rw [List.append_nil] at hcs
    rw [spaced, hcs]
    exact List.append_nil _

/-- A settled text is its own canonical form. -/
theorem canonical_of_settled {cs : List Char} (hw : WellMasked cs) (h : Settled cs) :
    canonical cs = cs := by
  rw [canonical_eq_spaced hw, spaced_of_settled h]

/-- The start of a statement is settled like the text behind an opening parenthesis. -/
theorem settle_eq_clear (S : List (Bool × Char)) : settle S = clear keeps '(' S := by
  cases S with
  | nil => rfl
  | cons s S =>
    have hkeeps : keeps '(' s.2 = false := rfl
    rw [settle, settleWith, clear, hkeeps, Bool.and_false]

theorem spaced_eq_render_clear (cs : List Char) :
    spaced cs = render (clear keeps '(' (strokes false cs)) := by
  rw [spaced, settle_eq_clear]

/-- What stands before a text decides on the white space in front of it only. -/
theorem exists_render_eq_append_spaced (c : Char) (b : Bool) (cs : List Char) :
    ∃ bs, bs.all isBlank = true ∧ render (clear keeps c (strokes b cs)) = bs ++ spaced cs := by
  rw [spaced, settle, settleWith_strokes keeps false b]
  cases strokes b cs with
  | nil => exact ⟨[], rfl, rfl⟩
  | cons s S =>
    obtain ⟨b', d⟩ := s
    refine ⟨if b' && keeps c d then [' '] else [], by split <;> decide, ?_⟩
    rw [clear, render, settleWith, render]
    split <;> rfl

/-- Text before and behind a character other than white space. -/
theorem render_append_cons {d : Char} (hd : isBlank d = false) (c : Char) (b : Bool)
    (cs ds : List Char) : render (clear keeps c (strokes b (cs ++ d :: ds))) =
      render (clear keeps c (strokes b cs)) ++
        ((if blankBehind b cs && keeps (lastSolid c cs) d then [' '] else []) ++
          d :: render (clear keeps d (strokes false ds))) := by
  induction cs generalizing b c with
  | nil =>
    rw [List.nil_append, strokes_cons hd, clear, render, blankBehind, lastSolid]
    split <;> rfl
  | cons e cs ih =>
    rw [List.cons_append, blankBehind]
    by_cases he : isBlank e = true
    · rw [strokes_cons_blank he, strokes_cons_blank he, lastSolid_cons_blank he, he, ih]
    · rw [Bool.not_eq_true] at he
      rw [strokes_cons he, strokes_cons he, lastSolid_cons he, he, clear, clear, render, render,
        ih, List.append_assoc]

/-- Before a comma or a closing parenthesis no white space stays. -/
theorem render_append_dropped {d : Char} (hd : ∀ c, keeps c d = false) (hblank : isBlank d = false)
    (c : Char) (b : Bool) (cs ds : List Char) :
    render (clear keeps c (strokes b (cs ++ d :: ds))) =
      render (clear keeps c (strokes b cs)) ++ d :: render (clear keeps d (strokes false ds)) := by
  rw [render_append_cons hblank, hd, Bool.and_false]
  rfl

/-! ## Characters other than white space -/

theorem map_snd_strokes (b : Bool) (cs : List Char) :
    (strokes b cs).map Prod.snd = cs.filter (!isBlank ·) := by
  rw [← map_snd_ink .free b, map_snd_ink_eq_filter]

theorem map_snd_clear (c : Char) (S : List (Bool × Char)) :
    (clear keeps c S).map Prod.snd = S.map Prod.snd := by
  induction S generalizing c with
  | nil => rfl
  | cons s S ih => rw [clear, List.map_cons, List.map_cons, ih]

theorem filter_render {S : List (Bool × Char)} (h : IsSolid S) :
    (render S).filter (!isBlank ·) = S.map Prod.snd := by
  induction S with
  | nil => rfl
  | cons s S ih =>
    obtain ⟨b, d⟩ := s
    rw [isSolid_cons] at h
    have hspace : isBlank ' ' = true := by decide
    rw [render, List.filter_append, ih h.2]
    cases b <;> simp [h.1, hspace]

/-- Settling moves white space only. -/
theorem filter_spaced (cs : List Char) :
    (spaced cs).filter (!isBlank ·) = cs.filter (!isBlank ·) := by
  rw [spaced_eq_render_clear, filter_render (isSolid_clear (isSolid_strokes _ _) _ _),
    map_snd_clear, map_snd_strokes]

/-! ## Trimmed parts of settled texts -/

theorem blankBehind_of_all_blank {bs : List Char} (h : bs.all isBlank = true) (b : Bool) :
    blankBehind b bs = if bs.isEmpty then b else true := by
  induction bs generalizing b with
  | nil => rfl
  | cons c bs ih =>
    rw [List.all_cons, Bool.and_eq_true] at h
    rw [blankBehind, ih h.2, h.1]
    cases bs <;> rfl

theorem strokes_of_all_blank {bs : List Char} (h : bs.all isBlank = true) (b : Bool) :
    strokes b bs = [] := by
  induction bs generalizing b with
  | nil => rfl
  | cons c bs ih =>
    rw [List.all_cons, Bool.and_eq_true] at h
    rw [strokes_cons_blank h.1, ih h.2]

theorem blankBehind_trimEndWhere (cs : List Char) :
    blankBehind false (trimEndWhere isBlank cs) = false := by
  rw [trimEndWhere]
  generalize cs.reverse = ds
  induction ds with
  | nil => rfl
  | cons d ds ih =>
    rw [List.dropWhile_cons]
    split
    · exact ih
    · next hd => simpa [blankBehind_append, blankBehind] using hd

/-- A trimmed text neither starts nor ends with white space. -/
theorem trimWhere_isBlank_cases (cs : List Char) : trimWhere isBlank cs = [] ∨
    ∃ c ds, trimWhere isBlank cs = c :: ds ∧ isBlank c = false ∧ blankBehind false ds = false := by
  have hend : blankBehind false (trimWhere isBlank cs) = false :=
    blankBehind_trimEndWhere (cs.dropWhile isBlank)
  cases h : trimWhere isBlank cs with
  | nil => exact .inl rfl
  | cons c ds =>
    have hc : isBlank c = false := by
      obtain ⟨bs, -, hbs⟩ := trimEndWhere_append isBlank (cs.dropWhile isBlank)
      have hstop := List.head?_dropWhile_not isBlank cs
      rw [hbs, trimEndWhere, ← trimWhere, h] at hstop
      simpa using hstop
    rw [h, blankBehind, hc] at hend
    exact .inr ⟨c, ds, rfl, hc, hend⟩

/-- A part of a settled text is settled when it is trimmed. -/
theorem settled_trimWhere {c : Char} {cs ds es : List Char}
    (h : SettledFrom c (cs ++ (ds ++ es))) : Settled (trimWhere isBlank ds) := by
  obtain ⟨as, bs, has, -, hds⟩ := append_trimWhere_append isBlank ds
  have hrest := h.of_append_right
  rw [hds, List.append_assoc, List.append_assoc] at hrest
  have hpart := hrest.of_append_right
  obtain hnil | ⟨d, ds', heq, hd, hlast⟩ := trimWhere_isBlank_cases ds
  · rw [hnil]
    trivial
  · rw [heq] at hpart ⊢
    exact ⟨hd, ((settledFrom_cons hd).1 hpart).of_append_left hlast⟩

/-- A settled text behind white space keeps its form; a space may stand before it. -/
theorem render_append_of_settled {cs : List Char} (h : Settled cs) (c : Char) (ds : List Char) :
    ∃ bs, bs.all isBlank = true ∧
      render (clear keeps c (strokes true (cs ++ ds))) = (bs ++ cs) ++
        render (clear keeps (lastSolid c cs) (strokes cs.isEmpty ds)) := by
  cases cs with
  | nil => exact ⟨[], rfl, rfl⟩
  | cons d cs =>
    refine ⟨if keeps c d then [' '] else [], by split <;> decide, ?_⟩
    rw [List.cons_append, strokes_cons h.1, clear, render, Bool.true_and,
      render_append_of_settledFrom h.2, lastSolid_cons h.1]
    split <;> simp

/-! ## Elements of table bodies -/

/-- The depth behind a text that starts at a depth and closes no parenthesis it does not open. -/
def depthBehind (depth : Nat) : List Char → Option Nat
  | [] => some depth
  | c :: cs =>
    if c == '(' then depthBehind (depth + 1) cs
    else if c == ')' then if depth = 0 then none else depthBehind (depth - 1) cs
    else depthBehind depth cs

/-- The depth behind such a text that has no comma outside parentheses either. -/
def elementDepth (depth : Nat) : List Char → Option Nat
  | [] => some depth
  | c :: cs =>
    if c == ',' && depth = 0 then none
    else if c == '(' then elementDepth (depth + 1) cs
    else if c == ')' then if depth = 0 then none else elementDepth (depth - 1) cs
    else elementDepth depth cs

theorem depthBehind_of_elementDepth {depth depth' : Nat} {cs : List Char}
    (h : elementDepth depth cs = some depth') : depthBehind depth cs = some depth' := by
  induction cs generalizing depth with
  | nil => exact h
  | cons c cs ih =>
    rw [elementDepth] at h
    rw [depthBehind]
    split at h
    · simp at h
    · split at h
      · next hopen => rw [if_pos hopen, ih h]
      · next hopen =>
        rw [if_neg hopen]
        split at h
        · next hclose =>
          rw [if_pos hclose]
          split at h
          · simp at h
          · next hdepth => rw [if_neg hdepth, ih h]
        · next hclose => rw [if_neg hclose, ih h]

theorem depthBehind_append {depth depth' : Nat} {cs : List Char}
    (h : depthBehind depth cs = some depth') (ds : List Char) :
    depthBehind depth (cs ++ ds) = depthBehind depth' ds := by
  induction cs generalizing depth with
  | nil => rw [← Option.some.inj h, List.nil_append]
  | cons c cs ih =>
    rw [depthBehind] at h
    rw [List.cons_append, depthBehind]
    split at h
    · next hopen => rw [if_pos hopen, ih h]
    · next hopen =>
      rw [if_neg hopen]
      split at h
      · next hclose =>
        rw [if_pos hclose]
        split at h
        · simp at h
        · next hdepth => rw [if_neg hdepth, ih h]
      · next hclose => rw [if_neg hclose, ih h]

theorem depthBehind_eq_zero_of_splitClosing {depth : Nat} {cs body rest : List Char}
    (h : splitClosing depth cs = some (body, rest)) : depthBehind depth body = some 0 := by
  fun_induction splitClosing depth cs generalizing body with
  | case1 => simp at h
  | case2 c cs hc =>
    obtain ⟨rfl, rfl⟩ := by simpa using h
    rfl
  | case3 c cs hc depth ih =>
    obtain ⟨⟨body', rest'⟩, h', heq⟩ := Option.map_eq_some_iff.1 h
    obtain ⟨rfl, rfl⟩ := heq
    rw [beq_iff_eq] at hc
    subst hc
    exact ih h'
  | case4 depth c cs hc ih =>
    obtain ⟨⟨body', rest'⟩, h', heq⟩ := Option.map_eq_some_iff.1 h
    obtain ⟨rfl, rfl⟩ := heq
    rw [depthBehind, if_neg hc, ← ih h']
    split <;> rfl

/-- The parenthesis behind a text at depth zero closes it. -/
theorem splitClosing_append {depth : Nat} {body : List Char} (h : depthBehind depth body = some 0)
    (rest : List Char) : splitClosing depth (body ++ ')' :: rest) = some (body, rest) := by
  induction body generalizing depth with
  | nil =>
    obtain rfl := Option.some.inj h
    rfl
  | cons c cs ih =>
    rw [depthBehind] at h
    rw [List.cons_append, splitClosing.eq_def]
    by_cases hopen : (c == '(') = true
    · rw [if_pos hopen] at h
      have hclose : (c == ')') = false := by
        rw [beq_iff_eq.1 hopen]
        decide
      simp [hclose, hopen, ih h]
    · rw [if_neg hopen] at h
      by_cases hclose : (c == ')') = true
      · rw [if_pos hclose] at h
        -- at depth zero the parenthesis would close the body before its end
        cases depth with
        | zero => simp at h
        | succ depth =>
          have hrest := ih h
          simp only [Nat.add_sub_cancel] at hrest
          simp [hclose, hrest]
      · rw [if_neg hclose] at h
        simp [hclose, hopen, ih h]

section Filter

variable {p : Char → Bool}

theorem beq_punctuation_of_not (hp : ∀ c, isPunctuation c = true → p c = true) {c d : Char}
    (hc : ¬ p c = true) (hd : isPunctuation d = true) : (c == d) = false := by
  rw [beq_eq_false_iff_ne]
  rintro rfl
  exact hc (hp c hd)

/-- Depths depend on the punctuation only. -/
theorem depthBehind_filter (hp : ∀ c, isPunctuation c = true → p c = true) (depth : Nat)
    (cs : List Char) : depthBehind depth (cs.filter p) = depthBehind depth cs := by
  induction cs generalizing depth with
  | nil => rfl
  | cons c cs ih =>
    by_cases hc : p c = true
    · rw [List.filter_cons_of_pos hc, depthBehind, depthBehind]
      simp only [ih]
    · have hopen := beq_punctuation_of_not hp hc (d := '(') (by decide)
      have hclose := beq_punctuation_of_not hp hc (d := ')') (by decide)
      rw [List.filter_cons_of_neg hc, ih, depthBehind.eq_def depth (c :: cs)]
      simp only [hopen, hclose, Bool.false_eq_true, if_false]

theorem elementDepth_filter (hp : ∀ c, isPunctuation c = true → p c = true) (depth : Nat)
    (cs : List Char) : elementDepth depth (cs.filter p) = elementDepth depth cs := by
  induction cs generalizing depth with
  | nil => rfl
  | cons c cs ih =>
    by_cases hc : p c = true
    · rw [List.filter_cons_of_pos hc, elementDepth, elementDepth]
      simp only [ih]
    · have hcomma := beq_punctuation_of_not hp hc (d := ',') (by decide)
      have hopen := beq_punctuation_of_not hp hc (d := '(') (by decide)
      have hclose := beq_punctuation_of_not hp hc (d := ')') (by decide)
      rw [List.filter_cons_of_neg hc, ih, elementDepth.eq_def depth (c :: cs)]
      simp only [hcomma, hopen, hclose, Bool.false_and, Bool.false_eq_true, if_false]

end Filter

theorem not_isBlank_of_isPunctuation (c : Char) (hc : isPunctuation c = true) :
    (!isBlank c) = true := by
  rw [isBlank_of_isPunctuation hc]
  rfl

theorem depthBehind_spaced (depth : Nat) (cs : List Char) :
    depthBehind depth (spaced cs) = depthBehind depth cs := by
  rw [← depthBehind_filter not_isBlank_of_isPunctuation, filter_spaced,
    depthBehind_filter not_isBlank_of_isPunctuation]

theorem elementDepth_spaced (depth : Nat) (cs : List Char) :
    elementDepth depth (spaced cs) = elementDepth depth cs := by
  rw [← elementDepth_filter not_isBlank_of_isPunctuation, filter_spaced,
    elementDepth_filter not_isBlank_of_isPunctuation]

/-- White space around a text does not change its depth. -/
theorem elementDepth_append_blanks {as bs : List Char} (has : as.all isBlank = true)
    (hbs : bs.all isBlank = true) (cs : List Char) :
    elementDepth 0 (as ++ cs ++ bs) = elementDepth 0 cs := by
  have hfilter {bs : List Char} (h : bs.all isBlank = true) : bs.filter (!isBlank ·) = [] := by
    simpa using h
  rw [← elementDepth_filter not_isBlank_of_isPunctuation, List.filter_append, List.filter_append,
    hfilter has, hfilter hbs, List.nil_append, List.append_nil,
    elementDepth_filter not_isBlank_of_isPunctuation]

/-- The elements of a text behind a text without a comma outside parentheses. -/
theorem splitElements_append {depth depth' : Nat} {cs : List Char}
    (h : elementDepth depth cs = some depth') (ds : List Char) :
    ∃ e es, splitElements depth' ds = e :: es ∧
      splitElements depth (cs ++ ds) = (cs ++ e) :: es := by
  induction cs generalizing depth with
  | nil =>
    obtain rfl := Option.some.inj h
    cases hes : splitElements depth ds with
    | nil => exact absurd hes (splitElements_ne_nil depth ds)
    | cons e es => exact ⟨e, es, rfl, hes⟩
  | cons c cs ih =>
    rw [elementDepth] at h
    split at h
    · simp at h
    · next hc =>
      -- both functions go on at the same depth
      have hstep : elementDepth (if c == '(' then depth + 1 else if c == ')' then depth - 1
          else depth) cs = some depth' := by
        split at h
        · next hopen => rw [if_pos hopen, h]
        · next hopen =>
          rw [if_neg hopen]
          split at h
          · next hclose =>
            rw [if_pos hclose]
            split at h
            · simp at h
            · exact h
          · next hclose => rw [if_neg hclose, h]
      obtain ⟨e, es, hds, hcs⟩ := ih hstep
      refine ⟨e, es, hds, ?_⟩
      rw [List.cons_append, splitElements, if_neg hc]
      simp only [hcs]
      rfl

theorem splitElements_of_elementDepth {cs : List Char} (h : elementDepth 0 cs = some 0) :
    splitElements 0 cs = [cs] := by
  obtain ⟨e, es, hnil, hcs⟩ := splitElements_append h []
  rw [List.append_nil] at hcs
  obtain ⟨rfl, rfl⟩ := List.cons.inj hnil
  rw [hcs, List.append_nil]

/-- One character of a body: a comma between elements, or a character of an element at a depth that
the rest of the body goes on from. -/
theorem depthBehind_cons_cases {depth depth' : Nat} {c : Char} {cs : List Char}
    (h : depthBehind depth (c :: cs) = some depth') :
    c = ',' ∧ depth = 0 ∧ depthBehind 0 cs = some depth' ∨
    ∃ next, depthBehind next cs = some depth' ∧
      (∀ ds, elementDepth depth (c :: ds) = elementDepth next ds) ∧
      ∀ ds e es, splitElements next ds = e :: es →
        splitElements depth (c :: ds) = (c :: e) :: es := by
  -- only a comma outside parentheses ends an element
  by_cases hcomma : (c == ',' && depth = 0) = true
  · simp only [Bool.and_eq_true, beq_iff_eq, decide_eq_true_eq] at hcomma
    obtain ⟨rfl, rfl⟩ := hcomma
    exact .inl ⟨rfl, rfl, h⟩
  · have hsplit {ds e : List Char} {es : List (List Char)} (hes : splitElements
        (if c == '(' then depth + 1 else if c == ')' then depth - 1 else depth) ds = e :: es) :
        splitElements depth (c :: ds) = (c :: e) :: es := by
      rw [splitElements, if_neg hcomma]
      simp only [hes]
    rw [depthBehind] at h
    refine .inr ?_
    split at h
    · next hopen =>
      refine ⟨depth + 1, h, fun ds => ?_, fun ds e es hes => ?_⟩
      · rw [elementDepth, if_neg hcomma, if_pos hopen]
      · exact hsplit (by rw [if_pos hopen, hes])
    · next hopen =>
      split at h
      · next hclose =>
        split at h
        · cases h
        · next hdepth =>
          refine ⟨depth - 1, h, fun ds => ?_, fun ds e es hes => ?_⟩
          · rw [elementDepth, if_neg hcomma, if_neg hopen, if_pos hclose, if_neg hdepth]
          · exact hsplit (by rw [if_neg hopen, if_pos hclose, hes])
      · next hclose =>
        refine ⟨depth, h, fun ds => ?_, fun ds e es hes => ?_⟩
        · rw [elementDepth, if_neg hcomma, if_neg hopen, if_neg hclose]
        · exact hsplit (by rw [if_neg hopen, if_neg hclose, hes])

/-- The elements of a balanced text are found again before a comma. -/
theorem splitElements_append_of_depthBehind {depth : Nat} {cs : List Char}
    (h : depthBehind depth cs = some 0) (ds : List Char) :
    splitElements depth (cs ++ ',' :: ds) = splitElements depth cs ++ splitElements 0 ds := by
  induction cs generalizing depth with
  | nil =>
    obtain rfl := Option.some.inj h
    rfl
  | cons c cs ih =>
    obtain ⟨rfl, rfl, hrest⟩ | ⟨next, hrest, -, hsplit⟩ := depthBehind_cons_cases h
    · exact congrArg ([] :: ·) (ih hrest)
    · have hboth := ih hrest
      cases hes : splitElements next cs with
      | nil => exact absurd hes (splitElements_ne_nil next cs)
      | cons e es =>
        rw [hes, List.cons_append] at hboth
        rw [List.cons_append, hsplit _ _ _ hboth, hsplit _ _ _ hes, List.cons_append]

/-- The elements of a balanced body have no comma outside parentheses and are balanced. -/
theorem elementDepth_of_mem_splitElements {depth : Nat} {cs : List Char}
    (h : depthBehind depth cs = some 0) :
    ∃ e es, splitElements depth cs = e :: es ∧ elementDepth depth e = some 0 ∧
      ∀ e ∈ es, elementDepth 0 e = some 0 := by
  induction cs generalizing depth with
  | nil =>
    obtain rfl := Option.some.inj h
    exact ⟨[], [], rfl, rfl, by simp⟩
  | cons c cs ih =>
    obtain ⟨rfl, rfl, hrest⟩ | ⟨next, hrest, hdepth, hsplit⟩ := depthBehind_cons_cases h
    · obtain ⟨e, es, hes, he, helements⟩ := ih hrest
      refine ⟨[], e :: es, ?_, rfl, List.forall_mem_cons.2 ⟨he, helements⟩⟩
      rw [splitElements, if_pos (by decide), hes]
    · obtain ⟨e, es, hes, he, helements⟩ := ih hrest
      exact ⟨c :: e, es, hsplit cs e es hes, by rw [hdepth, he], helements⟩

/-! ## Table statements -/

theorem trimWhere_blank_append {bs : List Char} (h : bs.all isBlank = true) (cs : List Char) :
    trimWhere isBlank (bs ++ cs) = trimWhere isBlank cs := by
  rw [List.all_eq_true] at h
  rw [trimWhere, trimWhere, List.dropWhile_append_of_pos h]

/-- Trimming at the end does not see white space there. -/
theorem trimEndWhere_append_blank {bs : List Char} (hbs : bs.all isBlank = true) (cs : List Char) :
    trimEndWhere isBlank (cs ++ bs) = trimEndWhere isBlank cs := by
  rw [trimEndWhere, trimEndWhere, List.reverse_append, List.dropWhile_append_of_pos]
  simpa using hbs

/-- A text that does not end with white space is not trimmed at its end. -/
theorem trimEndWhere_of_blankBehind {cs : List Char} (h : blankBehind false cs = false) :
    trimEndWhere isBlank cs = cs := by
  obtain ⟨bs, hbs, hcs⟩ := trimEndWhere_append isBlank cs
  cases bs with
  | nil => rw [List.append_nil] at hcs; exact hcs.symm
  | cons b bs =>
    rw [hcs, blankBehind_append, blankBehind_of_all_blank hbs] at h
    simp at h

/-- A settled text does not end with white space. -/
theorem blankBehind_of_settledFrom {c : Char} {cs : List Char} (h : SettledFrom c cs) :
    blankBehind false cs = false := by
  induction cs generalizing c with
  | nil => rfl
  | cons d cs ih =>
    rw [blankBehind]
    by_cases hd : isBlank d = true
    · obtain ⟨-, ⟨e, hhead, -⟩, hrest⟩ := (settledFrom_cons_blank hd).1 h
      obtain ⟨cs, rfl⟩ := List.head?_eq_some_iff.1 hhead
      exact ih hrest
    · rw [Bool.not_eq_true] at hd
      rw [hd]
      exact ih ((settledFrom_cons hd).1 h)

theorem trimWhere_of_settled {cs : List Char} (h : Settled cs) : trimWhere isBlank cs = cs := by
  cases cs with
  | nil => rfl
  | cons c cs =>
    have hlast : blankBehind false (c :: cs) = false := by
      rw [blankBehind, h.1]
      exact blankBehind_of_settledFrom h.2
    have hdrop : (c :: cs).dropWhile isBlank = c :: cs := by
      rw [List.dropWhile_cons_of_neg (by simp [h.1])]
    rw [trimWhere, hdrop, ← trimEndWhere, trimEndWhere_of_blankBehind hlast]

/-- White space in front of a body stays with its first element, which is trimmed. -/
theorem trimmed_elements_blank_append {bs : List Char} (hbs : bs.all isBlank = true)
    (cs : List Char) : (splitElements 0 (bs ++ cs)).map (trimWhere isBlank) =
      (splitElements 0 cs).map (trimWhere isBlank) := by
  have hnil : ([] : List Char).all isBlank = true := rfl
  have hdepth := elementDepth_append_blanks hbs hnil []
  rw [List.append_nil, List.append_nil] at hdepth
  obtain ⟨e, es, hes, hsplit⟩ := splitElements_append hdepth cs
  rw [hes, hsplit, List.map_cons, List.map_cons, trimWhere_blank_append hbs]

/-- The canonical form of a body that was put together from balanced texts, with a closing
parenthesis behind it: a body with the elements of these texts. -/
theorem render_body {es : List (List Char)} (hne : es ≠ [])
    (hes : ∀ e ∈ es, depthBehind 0 e = some 0) (c : Char) (rest : List Char) :
    ∃ body, render (clear keeps c (strokes true
        ([',', '\n'].intercalate (es.map (indent ++ ·)) ++ '\n' :: ')' :: rest))) =
          body ++ ')' :: render (clear keeps ')' (strokes false rest)) ∧
      depthBehind 0 body = some 0 ∧ (splitElements 0 body).map (trimWhere isBlank) =
        es.flatMap fun e => (splitElements 0 (spaced e)).map (trimWhere isBlank) := by
  have hspace : isBlank ' ' = true := by decide
  have hbreak : isBlank '\n' = true := by decide
  have hindent (ds : List Char) : strokes true (indent ++ ds) = strokes true ds := by
    rw [indent, List.cons_append, strokes_cons_blank hspace, List.cons_append,
      strokes_cons_blank hspace, List.nil_append]
  induction es generalizing c with
  | nil => exact absurd rfl hne
  | cons e es ih =>
    obtain ⟨he, hrest⟩ := List.forall_mem_cons.1 hes
    obtain ⟨bs, hbs, hrender⟩ := exists_render_eq_append_spaced c true e
    have hdepth : depthBehind 0 (bs ++ spaced e) = some 0 := by
      rw [← depthBehind_filter not_isBlank_of_isPunctuation, List.filter_append, filter_spaced,
        List.filter_eq_nil_iff.2 (by simpa using hbs), List.nil_append,
        depthBehind_filter not_isBlank_of_isPunctuation, he]
    cases es with
    | nil =>
      have hbody : render (clear keeps c (strokes true (indent ++ (e ++ ['\n'])))) =
          bs ++ spaced e := by
        rw [hindent, strokes_append, strokes_cons_blank hbreak, ← hrender]
        exact congrArg (fun S => render (clear keeps c S)) (List.append_nil _)
      refine ⟨bs ++ spaced e, ?_, hdepth, ?_⟩
      · rw [← hbody, ← render_append_dropped (by simp [keeps]) (by decide), List.map_singleton,
          List.intercalate_singleton]
        simp
      · rw [trimmed_elements_blank_append hbs, List.flatMap_singleton]
    | cons e' es =>
      -- the elements behind the first comma, and those of the first text in front of it
      obtain ⟨body, hbody, hbalanced, helements⟩ := ih (by simp) hrest ','
      refine ⟨(bs ++ spaced e) ++ ',' :: body, ?_, ?_, ?_⟩
      · have hfirst := render_append_dropped (d := ',') (by simp [keeps]) (by decide) c true
          (indent ++ e) ('\n' :: ([',', '\n'].intercalate ((e' :: es).map (indent ++ ·)) ++
            '\n' :: ')' :: rest))
        rw [strokes_cons_blank hbreak, hbody, hindent, hrender] at hfirst
        simp only [List.map_cons, List.intercalate_cons_cons, List.append_assoc,
          List.cons_append, List.nil_append] at hfirst ⊢
        exact hfirst
      · rw [depthBehind_append hdepth]
        exact hbalanced
      · rw [List.flatMap_cons, splitElements_append_of_depthBehind hdepth, List.map_append,
          helements, trimmed_elements_blank_append hbs]

/-- The canonical form of elements on lines of their own, with a closing parenthesis behind
them: a body with the same elements. -/
theorem render_elements {es : List (List Char)} (hne : es ≠ [])
    (hes : ∀ e ∈ es, Settled e ∧ elementDepth 0 e = some 0) (c : Char) (rest : List Char) :
    ∃ body, render (clear keeps c (strokes true
        ([',', '\n'].intercalate (es.map (indent ++ ·)) ++ '\n' :: ')' :: rest))) =
          body ++ ')' :: render (clear keeps ')' (strokes false rest)) ∧
      depthBehind 0 body = some 0 ∧ (splitElements 0 body).map (trimWhere isBlank) = es := by
  have hone : ∀ e ∈ es, (splitElements 0 (spaced e)).map (trimWhere isBlank) = [e] := by
    intro e he
    obtain ⟨hsettled, hdepth⟩ := hes e he
    rw [spaced_of_settled hsettled, splitElements_of_elementDepth hdepth, List.map_singleton,
      trimWhere_of_settled hsettled]
  obtain ⟨body, hbody, hbalanced, helements⟩ := render_body hne
    (fun e he => depthBehind_of_elementDepth (hes e he).2) c rest
  refine ⟨body, hbody, hbalanced, ?_⟩
  rw [helements, List.flatMap_def, List.map_congr_left hone, ← List.flatMap_def,
    List.flatMap_singleton']

/-- A settled text behind white space or none. -/
theorem render_blank_append_of_settled {bs cs : List Char} (hbs : bs.all isBlank = true)
    (h : Settled cs) (c : Char) : ∃ bs', bs'.all isBlank = true ∧
      render (clear keeps c (strokes false (bs ++ cs))) = bs' ++ cs := by
  rw [strokes_append, strokes_of_all_blank hbs, List.nil_append, blankBehind_of_all_blank hbs]
  cases bs with
  | nil =>
    refine ⟨[], rfl, ?_⟩
    cases cs with
    | nil => rfl
    | cons d cs =>
      have hcs := @render_append_of_settledFrom c (d :: cs) ((settledFrom_cons h.1).2 h.2) []
      rw [List.append_nil] at hcs
      exact hcs.trans (List.append_nil _)
  | cons b bs =>
    obtain ⟨bs', hbs', hrender⟩ := render_append_of_settled h c []
    rw [List.append_nil] at hrender
    exact ⟨bs', hbs', hrender.trans (List.append_nil _)⟩

/-- Settled text before a space and an opening parenthesis. -/
theorem render_before_opening {c : Char} {cs : List Char} (h : Settled (c :: cs))
    (rest : List Char) :
    render (settle (strokes false (c :: cs ++ ' ' :: '(' :: rest))) =
      c :: cs ++ (if keeps (lastSolid c cs) '(' then [' '] else []) ++
        '(' :: render (clear keeps '(' (strokes false rest)) := by
  have hspace : isBlank ' ' = true := by decide
  have hopen : isBlank '(' = false := by decide
  rw [render_settle_append h, strokes_cons_blank hspace, strokes_cons hopen, clear, render,
    Bool.true_and]
  split <;> simp

/-- White space before an opening parenthesis in a settled text is one space. -/
theorem blanks_before_opening {c : Char} {bs rest : List Char}
    (h : SettledFrom c (bs ++ '(' :: rest)) (hbs : bs.all isBlank = true) :
    bs = [] ∨ bs = [' '] ∧ keeps c '(' = true := by
  cases bs with
  | nil => exact .inl rfl
  | cons b bs =>
    rw [List.all_cons, Bool.and_eq_true] at hbs
    obtain ⟨rfl, ⟨e, he, he', hkeep⟩, -⟩ := (settledFrom_cons_blank hbs.1).1 h
    cases bs with
    | nil =>
      obtain rfl := Option.some.inj he
      exact .inr ⟨rfl, hkeep⟩
    | cons b bs =>
      obtain rfl := Option.some.inj he
      rw [List.all_cons, he'] at hbs
      simp at hbs

theorem exists_append_of_mem_intercalate {sep w : List Char} {ws : List (List Char)} (h : w ∈ ws) :
    ∃ as bs, sep.intercalate ws = as ++ (w ++ bs) := by
  induction ws with
  | nil => simp at h
  | cons v ws ih =>
    cases ws with
    | nil =>
      obtain rfl := List.mem_singleton.1 h
      exact ⟨[], [], by simp⟩
    | cons u ws =>
      rw [List.intercalate_cons_cons]
      obtain rfl | h := List.mem_cons.1 h
      · exact ⟨[], sep ++ sep.intercalate (u :: ws), by simp⟩
      · obtain ⟨as, bs, hws⟩ := ih h
        exact ⟨v ++ sep ++ as, bs, by rw [hws]; simp⟩

/-- The elements of a settled body are settled and balanced. -/
theorem settled_elements {c : Char} {body rest : List Char}
    (h : SettledFrom c (body ++ ')' :: rest)) (hbody : depthBehind 0 body = some 0) :
    ∀ e ∈ (splitElements 0 body).map (trimWhere isBlank),
      Settled e ∧ elementDepth 0 e = some 0 := by
  intro e he
  obtain ⟨w, hw, rfl⟩ := List.mem_map.1 he
  constructor
  · obtain ⟨as, bs, hsplit⟩ := @exists_append_of_mem_intercalate [','] w _ hw
    rw [intercalate_splitElements] at hsplit
    rw [hsplit, List.append_assoc, List.append_assoc] at h
    exact settled_trimWhere h
  · obtain ⟨w₀, ws, hws, hfirst, hrest⟩ := elementDepth_of_mem_splitElements hbody
    have hdepth : elementDepth 0 w = some 0 := by
      rw [hws] at hw
      obtain rfl | hw := List.mem_cons.1 hw
      · exact hfirst
      · exact hrest w hw
    obtain ⟨as, bs, has, hbs, hsplit⟩ := append_trimWhere_append isBlank w
    rwa [hsplit, elementDepth_append_blanks has hbs] at hdepth

end PgSchema.Layout
