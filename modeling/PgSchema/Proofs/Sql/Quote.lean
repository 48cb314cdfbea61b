/-
# Quoted text

Quoted text is found again as it stands.  What stands behind it matters only where it could go
on: a quote is not closed where another quote follows, and a number ends where its digits end.

* `next_cases` : what starts at a character other than white space;
* `next_quoted_append` : quoted text is found again before a rest that starts with the same run.
-/
import PgSchema.Proofs.Sql.Token
import PgSchema.Proofs.Text.Span

namespace PgSchema.Sql.Lexeme

open Text Layout

/-! ## Closing quotes -/

/-- A closing quote is the first character, or it is found behind one or two characters that are
passed over. -/
theorem closingQuote?_cases {q : Char} {backslash : Bool} {cs : List Char} {n : Nat}
    (h : closingQuote? q backslash cs = some n) :
    (∃ ds, cs = q :: ds ∧ ds.head? ≠ some q ∧ n = 1) ∨
    (∃ c ds k, cs = c :: ds ∧ closingQuote? q backslash ds = some k ∧ n = k + 1 ∧
      ∀ es, closingQuote? q backslash (c :: es) = (closingQuote? q backslash es).map (· + 1)) ∨
    ∃ c d ds k, cs = c :: d :: ds ∧ closingQuote? q backslash ds = some k ∧ n = k + 2 ∧
      ∀ es, closingQuote? q backslash (c :: d :: es) =
        (closingQuote? q backslash es).map (· + 2) := by
  match cs with
  | [] => simp [closingQuote?] at h
  | [c] =>
    by_cases hc : (c == q) = true
    · simp only [closingQuote?, hc, if_true, Option.some.injEq] at h
      exact .inl ⟨[], by rw [beq_iff_eq.1 hc], by simp, h.symm⟩
    · simp [closingQuote?, hc] at h
  | c :: d :: ds =>
    rw [closingQuote?] at h
    -- a pair of quotes, and a character behind a backslash, are passed over at once
    by_cases hc : (c == q) = true
    · obtain rfl := beq_iff_eq.1 hc
      by_cases hd : (d == c) = true
      · obtain rfl := beq_iff_eq.1 hd
        simp only [hc, if_true, Option.map_eq_some_iff] at h
        obtain ⟨k, hk, rfl⟩ := h
        exact .inr (.inr ⟨d, d, ds, k, rfl, hk, rfl, closingQuote?_pair d backslash⟩)
      · rw [if_pos hc, if_neg hd] at h
        exact .inl ⟨d :: ds, rfl, by simpa using hd, (Option.some.inj h).symm⟩
    · by_cases hback : (backslash && c == '\\') = true
      · rw [if_neg hc, if_pos hback, Option.map_eq_some_iff] at h
        obtain ⟨k, hk, rfl⟩ := h
        refine .inr (.inr ⟨c, d, ds, k, rfl, hk, rfl, fun es => ?_⟩)
        rw [closingQuote?, if_neg hc, if_pos hback]
      · rw [if_neg hc, if_neg hback, Option.map_eq_some_iff] at h
        obtain ⟨k, hk, rfl⟩ := h
        refine .inr (.inl ⟨c, d :: ds, k, rfl, hk, rfl, fun es => ?_⟩)
        cases es with
        | nil => simp [closingQuote?, hc]
        | cons e es => rw [closingQuote?, if_neg hc, if_neg hback]

/-- A closing quote is found again before a rest that starts with the same run. -/
theorem closingQuote?_append {q : Char} (hq : isRunChar q = true) {backslash : Bool}
    {t r r' : List Char} (hrest : firstRun r = firstRun r')
    (h : closingQuote? q backslash (t ++ r) = some t.length) :
    closingQuote? q backslash (t ++ r') = some t.length ∧ EndsInRun t := by
  induction hn : t.length using Nat.strongRecOn generalizing t with
  | _ n ih =>
    subst hn
    obtain ⟨ds, heq, hclosed, hlength⟩ | ⟨c, ds, k, heq, hk, hlength, hpass⟩ |
      ⟨c, d, ds, k, heq, hk, hlength, hpass⟩ := closingQuote?_cases h
    -- another quote right behind would not let this one close
    · obtain ⟨x, rfl⟩ := List.length_eq_one_iff.1 hlength
      obtain ⟨rfl, rfl⟩ := List.cons.inj heq
      exact ⟨closingQuote?_closed fun hhead => hclosed (head?_of_firstRun_eq hrest hq hhead),
        [], x, rfl, hq⟩
    · obtain ⟨x, t, rfl⟩ := List.exists_cons_of_length_eq_add_one hlength
      obtain ⟨rfl, rfl⟩ := List.cons.inj heq
      obtain rfl := Nat.succ.inj hlength
      obtain ⟨hclose, hend⟩ := ih t.length (Nat.lt_succ_self _) hk rfl
      exact ⟨by rw [List.cons_append, hpass, hclose]; rfl, endsInRun_append [x] hend⟩
    · obtain ⟨x, t, rfl⟩ := List.exists_cons_of_length_eq_add_one hlength
      obtain ⟨y, t, rfl⟩ := List.exists_cons_of_length_eq_add_one (Nat.succ.inj hlength)
      obtain ⟨rfl, htail⟩ := List.cons.inj heq
      obtain ⟨rfl, rfl⟩ := List.cons.inj htail
      obtain rfl := Nat.succ.inj (Nat.succ.inj hlength)
      obtain ⟨hclose, hend⟩ := ih t.length (Nat.lt_succ_of_lt (Nat.lt_succ_self _)) hk rfl
      exact ⟨by rw [List.cons_append, List.cons_append, hpass, hclose]; rfl,
        endsInRun_append [x, y] hend⟩

/-! ## Dollar quotes -/

/-- A dollar-quoted body ends with its delimiter, which is found behind one or two characters at
a time. -/
theorem bodyLength?_cases {delimiter cs : List Char} {n : Nat}
    (h : bodyLength? delimiter cs = some n) :
    (∃ r, cs = delimiter ++ r ∧ n = delimiter.length ∧ (['\'', '\''].isPrefixOf cs = false)) ∨
    (∃ c ds k, cs = c :: ds ∧ bodyLength? delimiter ds = some k ∧ n = k + 1 ∧
      ['\'', '\''].isPrefixOf cs = false ∧ delimiter.isPrefixOf cs = false) ∨
    ∃ ds k, cs = '\'' :: '\'' :: ds ∧ bodyLength? delimiter ds = some k ∧ n = k + 2 := by
  match cs with
  | [] => simp [bodyLength?] at h
  | [c] =>
    rw [bodyLength?] at h
    split at h
    · next hstart =>
      obtain ⟨r, hr⟩ := List.isPrefixOf_iff_prefix.1 hstart
      exact .inl ⟨r, hr.symm, (Option.some.inj h).symm, by simp [List.isPrefixOf]⟩
    · simp at h
  | c :: d :: ds =>
    rw [bodyLength?] at h
    -- a pair of quotes is passed over before the delimiter is looked for
    by_cases hpair : (c == '\'' && d == '\'') = true
    · rw [if_pos hpair, Option.map_eq_some_iff] at h
      obtain ⟨k, hk, rfl⟩ := h
      rw [Bool.and_eq_true, beq_iff_eq, beq_iff_eq] at hpair
      obtain ⟨rfl, rfl⟩ := hpair
      exact .inr (.inr ⟨ds, k, rfl, hk, rfl⟩)
    · have hpair' : ['\'', '\''].isPrefixOf (c :: d :: ds) = false := by
        rw [← Bool.not_eq_true]
        intro hstart
        apply hpair
        simp only [List.isPrefixOf, Bool.and_true, Bool.and_eq_true, beq_iff_eq] at hstart
        rw [← hstart.1, ← hstart.2]
        rfl
      by_cases hstart : delimiter.isPrefixOf (c :: d :: ds) = true
      · rw [if_neg hpair, if_pos hstart] at h
        obtain ⟨r, hr⟩ := List.isPrefixOf_iff_prefix.1 hstart
        exact .inl ⟨r, hr.symm, (Option.some.inj h).symm, hpair'⟩
      · rw [if_neg hpair, if_neg hstart, Option.map_eq_some_iff] at h
        obtain ⟨k, hk, rfl⟩ := h
        exact .inr (.inl ⟨c, d :: ds, k, rfl, hk, rfl, hpair', Bool.eq_false_iff.2 hstart⟩)

theorem bodyLength?_closed {delimiter cs : List Char} (hpair : ['\'', '\''].isPrefixOf cs = false)
    (hstart : delimiter.isPrefixOf cs = true) (hne : cs ≠ []) :
    bodyLength? delimiter cs = some delimiter.length := by
  match cs with
  | [] => exact absurd rfl hne
  | [c] => rw [bodyLength?, if_pos hstart]
  | c :: d :: cs =>
    have hpair' : ¬ (c == '\'' && d == '\'') = true := by
      intro h
      rw [Bool.and_eq_true, beq_iff_eq, beq_iff_eq] at h
      simp [h.1, h.2, List.isPrefixOf] at hpair
    rw [bodyLength?, if_neg hpair', if_pos hstart]

theorem bodyLength?_pass {delimiter cs : List Char} {c : Char}
    (hpair : ['\'', '\''].isPrefixOf (c :: cs) = false)
    (hstart : delimiter.isPrefixOf (c :: cs) = false) :
    bodyLength? delimiter (c :: cs) = (bodyLength? delimiter cs).map (· + 1) := by
  cases cs with
  | nil => simp [bodyLength?, hstart]
  | cons d cs =>
    have hpair' : ¬ (c == '\'' && d == '\'') = true := by
      intro h
      rw [Bool.and_eq_true, beq_iff_eq, beq_iff_eq] at h
      simp [h.1, h.2, List.isPrefixOf] at hpair
    rw [bodyLength?, if_neg hpair', if_neg (by simp [hstart])]

theorem length_le_of_bodyLength? {delimiter cs : List Char} {n : Nat}
    (h : bodyLength? delimiter cs = some n) : delimiter.length ≤ n := by
  induction hlength : cs.length using Nat.strongRecOn generalizing cs n with
  | _ l ih =>
    subst hlength
    obtain ⟨r, -, rfl, -⟩ | ⟨c, ds, k, rfl, hk, rfl, -, -⟩ | ⟨ds, k, rfl, hk, rfl⟩ :=
      bodyLength?_cases h
    · exact Nat.le_refl _
    · exact Nat.le_succ_of_le (ih _ (Nat.lt_succ_self _) hk rfl)
    · exact Nat.le_add_right_of_le (ih _ (Nat.lt_succ_of_lt (Nat.lt_succ_self _)) hk rfl)

/-- What a text starts with does not depend on what is far enough behind. -/
theorem isPrefixOf_append {w t : List Char} (h : w.length ≤ t.length) (r r' : List Char) :
    w.isPrefixOf (t ++ r) = w.isPrefixOf (t ++ r') := by
  have hiff : ∀ r, w.isPrefixOf (t ++ r) = true ↔ w <+: t := by
    intro r
    rw [List.isPrefixOf_iff_prefix]
    exact ⟨fun hw => List.prefix_of_prefix_length_le hw (List.prefix_append t r) h,
      fun hw => hw.trans (List.prefix_append t r)⟩
  rw [Bool.eq_iff_iff, hiff, hiff]

/-- The delimiter of a body is found again whatever stands behind it. -/
theorem bodyLength?_append {delimiter t r : List Char} (htwo : 2 ≤ delimiter.length)
    (h : bodyLength? delimiter (t ++ r) = some t.length) (r' : List Char) :
    bodyLength? delimiter (t ++ r') = some t.length ∧ delimiter <:+ t := by
  induction hn : t.length using Nat.strongRecOn generalizing t with
  | _ n ih =>
    subst hn
    have hle := length_le_of_bodyLength? h
    -- the delimiter is at least as long as a pair, so both are looked for within `t`
    have hpairs := isPrefixOf_append (w := ['\'', '\'']) (Nat.le_trans htwo hle) r r'
    have hdelimiter := isPrefixOf_append hle r r'
    obtain ⟨r₀, heq, hlength, hpair⟩ | ⟨c, ds, k, heq, hk, hlength, hpair, hstart⟩ |
      ⟨ds, k, heq, hk, hlength⟩ := bodyLength?_cases h
    · obtain ⟨rfl, rfl⟩ := List.append_inj heq hlength
      refine ⟨bodyLength?_closed (hpairs ▸ hpair) ?_ ?_, List.suffix_rfl⟩
      · exact List.isPrefixOf_iff_prefix.2 (List.prefix_append t r')
      · rw [← List.length_pos_iff, List.length_append]
        omega
    · obtain ⟨x, t, rfl⟩ := List.exists_cons_of_length_eq_add_one hlength
      obtain ⟨rfl, rfl⟩ := List.cons.inj heq
      obtain rfl := Nat.succ.inj hlength
      obtain ⟨hbody, hend⟩ := ih t.length (Nat.lt_succ_self _) hk rfl
      refine ⟨?_, hend.trans (List.suffix_cons x t)⟩
      rw [List.cons_append] at hpair hstart hpairs hdelimiter
      rw [List.cons_append, bodyLength?_pass (hpairs ▸ hpair) (hdelimiter ▸ hstart), hbody]
      rfl
    · obtain ⟨x, t, rfl⟩ := List.exists_cons_of_length_eq_add_one hlength
      obtain ⟨y, t, rfl⟩ := List.exists_cons_of_length_eq_add_one (Nat.succ.inj hlength)
      obtain ⟨rfl, htail⟩ := List.cons.inj heq
      obtain ⟨rfl, rfl⟩ := List.cons.inj htail
      obtain rfl := Nat.succ.inj (Nat.succ.inj hlength)
      obtain ⟨hbody, hend⟩ := ih t.length (Nat.lt_succ_of_lt (Nat.lt_succ_self _)) hk rfl
      refine ⟨?_, hend.trans ((List.suffix_cons '\'' t).trans (List.suffix_cons '\'' _))⟩
      rw [List.cons_append, List.cons_append, bodyLength?, if_pos (by rfl), hbody]
      rfl

theorem takeWhile_ne_append {tag : List Char} (h : '$' ∉ tag) (body : List Char) :
    (tag ++ '$' :: body).takeWhile (· != '$') = tag ∧
      (tag ++ '$' :: body).dropWhile (· != '$') = '$' :: body := by
  have hne : ∀ c ∈ tag, (c != '$') = true := Text.bne_of_notMem h
  constructor
  · rw [List.takeWhile_append_of_pos hne, List.takeWhile_cons_of_neg (by decide), List.append_nil]
  · rw [List.dropWhile_append_of_pos hne, List.dropWhile_cons_of_neg (by decide)]

theorem dollar_append {tag : List Char} (h : '$' ∉ tag) (body : List Char) :
    dollar (tag ++ '$' :: body) =
      if !tag.isEmpty && body.isEmpty then .ok (.parameter, 1)
      else if !tag.isEmpty && (tag.all isDigit || tag.any isBlank) then .ok (.parameter, 0)
      else
        match bodyLength? ('$' :: tag ++ ['$']) body with
        | some n => .ok (.quoted, tag.length + 1 + n)
        | none => .error .unterminated := by
  obtain ⟨htake, hdrop⟩ := takeWhile_ne_append h body
  rw [dollar.eq_def, htake, hdrop]
  split
  · next heq => simp at heq
  · next heq _ => simp at heq
  · next heq _ =>
    obtain ⟨-, rfl⟩ := List.cons.inj heq
    rfl

/-- A dollar-quoted text: a tag between dollar signs, and a body that ends with them again. -/
theorem dollar_eq_quoted_iff {cs : List Char} {n : Nat} :
    dollar cs = .ok (.quoted, n) ↔ ∃ tag body k, cs = tag ++ '$' :: body ∧ '$' ∉ tag ∧
      (!tag.isEmpty && (tag.all isDigit || tag.any isBlank)) = false ∧
      bodyLength? ('$' :: tag ++ ['$']) body = some k ∧ n = tag.length + 1 + k := by
  constructor
  · intro h
    by_cases hmem : '$' ∈ cs
    · obtain ⟨tag, body, rfl, htag⟩ := List.eq_append_cons_of_mem hmem
      rw [dollar_append htag] at h
      split at h
      · simp at h
      · split at h
        · simp at h
        · next hno =>
          cases hbody : bodyLength? ('$' :: tag ++ ['$']) body with
          | none =>
            rw [hbody] at h
            simp at h
          | some k =>
            rw [hbody] at h
            exact ⟨tag, body, k, rfl, htag, Bool.eq_false_iff.2 hno, hbody,
              (Prod.mk.inj (Except.ok.inj h)).2.symm⟩
    -- without a second dollar sign it is no quoted text
    · have hdrop : cs.dropWhile (· != '$') = [] := by
        have hne : ∀ c ∈ cs, (c != '$') = true := Text.bne_of_notMem hmem
        have happend := @List.dropWhile_append_of_pos _ _ _ [] hne
        rwa [List.append_nil] at happend
      rw [dollar.eq_def, hdrop] at h
      cases cs with
      | nil => simp at h
      | cons c cs =>
        simp only at h
        split at h <;> simp at h
  · rintro ⟨tag, body, k, rfl, htag, hok, hbody, rfl⟩
    have hne : body ≠ [] := by
      rintro rfl
      simp [bodyLength?] at hbody
    rw [dollar_append htag, if_neg (by simp [hne]), if_neg (by simp [hok]), hbody]

/-- A dollar-quoted text is found again whatever stands behind it. -/
theorem dollar_append_of_quoted {t r : List Char} (h : dollar (t ++ r) = .ok (.quoted, t.length))
    (r' : List Char) : dollar (t ++ r') = .ok (.quoted, t.length) ∧ EndsInRun t := by
  obtain ⟨tag, body, k, heq, htag, hok, hbody, hlength⟩ := dollar_eq_quoted_iff.1 h
  have hk : k ≤ body.length := by
    have := congrArg List.length heq
    simp only [List.length_append, List.length_cons] at this
    omega
  have htake : (body.take k).length = k := List.length_take_of_le hk
  have hsplit : t ++ r = (tag ++ '$' :: body.take k) ++ body.drop k := by
    rw [heq, List.append_assoc, List.cons_append, List.take_append_drop]
  obtain ⟨rfl, rfl⟩ := List.append_inj hsplit (by
    rw [hlength, List.length_append, List.length_cons, htake]
    omega)
  have htwo : 2 ≤ ('$' :: tag ++ ['$']).length := by simp
  have hbody' : bodyLength? ('$' :: tag ++ ['$']) (body.take k ++ body.drop k) =
      some (body.take k).length := by rw [List.take_append_drop, htake, hbody]
  obtain ⟨hfound, front, hfront⟩ := bodyLength?_append htwo hbody' r'
  refine ⟨?_, ?_⟩
  · rw [dollar_eq_quoted_iff]
    refine ⟨tag, body.take k ++ r', k, by simp, htag, hok, ?_, hlength⟩
    rw [hfound, htake]
  · rw [← hfront]
    exact ⟨tag ++ '$' :: (front ++ '$' :: tag), '$', by simp, by decide⟩

/-! ## Strings and numbers -/

section Quoted

variable {afterParameter : Bool} {c : Char} {t r r' : List Char}

theorem exists_cons_of_length_eq_one_add {t r cs : List Char} {c : Char} {k : Nat}
    (heq : t ++ r = c :: cs) (hlength : t.length = 1 + k) :
    ∃ v, t = c :: v ∧ cs = v ++ r ∧ k = v.length := by
  rw [Nat.add_comm] at hlength
  obtain ⟨x, v, rfl⟩ := List.exists_cons_of_length_eq_add_one hlength
  obtain ⟨rfl, rfl⟩ := List.cons.inj heq
  exact ⟨v, rfl, rfl, (Nat.succ.inj hlength).symm⟩

/-- A string behind a letter is found again before a rest that starts with the same run. -/
theorem quotedAfter_append {backslash : Bool} {cs : List Char}
    (hrest : firstRun r = firstRun r') (heq : t ++ r = '\'' :: cs)
    (h : quotedAfter .quoted '\'' backslash 1 cs = .ok (.quoted, t.length)) :
    ∃ v, t = '\'' :: v ∧ EndsInRun t ∧
      quotedAfter .quoted '\'' backslash 1 (v ++ r') = .ok (.quoted, t.length) := by
  obtain ⟨k, hk, -, hlength⟩ := quotedAfter_eq_ok_iff.1 h
  obtain ⟨v, rfl, rfl, rfl⟩ := exists_cons_of_length_eq_one_add heq hlength
  obtain ⟨hclose, hend⟩ := closingQuote?_append (by decide) hrest hk
  exact ⟨v, rfl, endsInRun_append ['\''] hend,
    quotedAfter_eq_ok_iff.2 ⟨_, hclose, rfl, hlength⟩⟩

/-- A bit string is found again before a rest that starts with the same run. -/
theorem bitsAfter_append {base : Nat} {baseMarks cs : List Char}
    (hrest : firstRun r = firstRun r') (heq : t ++ r = '\'' :: cs)
    (h : bitsAfter base baseMarks cs = .ok (.quoted, t.length)) :
    ∃ v, t = '\'' :: v ∧ EndsInRun t ∧
      bitsAfter base baseMarks (v ++ r') = .ok (.quoted, t.length) := by
  obtain ⟨k, hk, -, hlength, hinside⟩ := bitsAfter_eq_ok_iff.1 h
  obtain ⟨v, rfl, rfl, rfl⟩ := exists_cons_of_length_eq_one_add heq hlength
  obtain ⟨hclose, hend⟩ := closingQuote?_append (by decide) hrest hk
  refine ⟨v, rfl, endsInRun_append ['\''] hend,
    bitsAfter_eq_ok_iff.2 ⟨_, hclose, rfl, hlength, ?_⟩⟩
  rwa [List.take_append_of_le_length (Nat.sub_le _ _)] at hinside ⊢

theorem string?_quote (hc : c ≠ '\'') (cs : List Char) : string? c ('\'' :: cs) =
    if c == 'n' || c == 'N' then some (quotedAfter .quoted '\'' false 1 cs)
    else if c == 'e' || c == 'E' then some (quotedAfter .quoted '\'' true 1 cs)
    else if c == 'b' || c == 'B' then some (bitsAfter 2 ['b', 'B'] cs)
    else if c == 'x' || c == 'X' then some (bitsAfter 16 ['x', 'X'] cs)
    else none := by
  rw [string?.eq_def]
  split
  · exact absurd rfl hc
  · next heq =>
    obtain ⟨-, rfl⟩ := List.cons.inj heq
    rfl
  · next heq => simp at heq
  · next h _ => exact absurd rfl (h cs)

/-- A quoted string that starts with a letter has a quote behind it. -/
theorem exists_quote_of_string? {cs : List Char} {n : Nat} (hc : c ≠ '\'')
    (h : string? c cs = some (.ok (.quoted, n))) : ∃ ds, cs = '\'' :: ds := by
  rw [string?.eq_def] at h
  split at h
  · exact absurd rfl hc
  · exact ⟨_, rfl⟩
  · split at h
    · obtain ⟨k, -, hkind, -⟩ := quotedAfter_eq_ok_iff.1 (Option.some.inj h)
      simp at hkind
    · simp at h
  · simp at h

/-- A string is found again before a rest that starts with the same run. -/
theorem string?_append (hrest : firstRun r = firstRun r')
    (h : string? c (t ++ r) = some (.ok (.quoted, t.length))) :
    string? c (t ++ r') = some (.ok (.quoted, t.length)) ∧ EndsInRun (c :: t) := by
  by_cases hc : c = '\''
  · subst hc
    obtain ⟨k, hk, -, hlength⟩ := quotedAfter_eq_ok_iff.1 (Option.some.inj h)
    rw [Nat.zero_add] at hlength
    subst hlength
    obtain ⟨hclose, hend⟩ := closingQuote?_append (by decide) hrest hk
    exact ⟨congrArg some (quotedAfter_eq_ok_iff.2 ⟨_, hclose, rfl, by simp⟩),
      endsInRun_append ['\''] hend⟩
  · obtain ⟨cs, hcs⟩ := exists_quote_of_string? hc h
    rw [hcs, string?_quote hc] at h
    -- the letter tells how the string is read
    have hlift : ∀ {result : List Char → Except LexError (LexemeKind × Nat)},
        (∃ v, t = '\'' :: v ∧ EndsInRun t ∧ result (v ++ r') = .ok (.quoted, t.length)) →
        (∀ cs, string? c ('\'' :: cs) = some (result cs)) →
        string? c (t ++ r') = some (.ok (.quoted, t.length)) ∧ EndsInRun (c :: t) := by
      rintro result ⟨v, rfl, hend, hresult⟩ hstring
      exact ⟨by rw [List.cons_append, hstring, hresult], endsInRun_append [c] hend⟩
    by_cases hn : (c == 'n' || c == 'N') = true
    · rw [if_pos hn] at h
      exact hlift (quotedAfter_append hrest hcs (Option.some.inj h))
        fun cs => by rw [string?_quote hc, if_pos hn]
    rw [if_neg hn] at h
    by_cases he : (c == 'e' || c == 'E') = true
    · rw [if_pos he] at h
      exact hlift (quotedAfter_append hrest hcs (Option.some.inj h))
        fun cs => by rw [string?_quote hc, if_neg hn, if_pos he]
    rw [if_neg he] at h
    by_cases hb : (c == 'b' || c == 'B') = true
    · rw [if_pos hb] at h
      exact hlift (bitsAfter_append hrest hcs (Option.some.inj h))
        fun cs => by rw [string?_quote hc, if_neg hn, if_neg he, if_pos hb]
    rw [if_neg hb] at h
    by_cases hx : (c == 'x' || c == 'X') = true
    · rw [if_pos hx] at h
      exact hlift (bitsAfter_append hrest hcs (Option.some.inj h))
        fun cs => by rw [string?_quote hc, if_neg hn, if_neg he, if_neg hb, if_pos hx]
    · rw [if_neg hx] at h
      simp at h

theorem isRunChar_of_isDigitsChar {c : Char} (h : isDigitsChar c = true) : isRunChar c = true := by
  apply isRunChar_of_isWordChar
  rw [isDigitsChar, Bool.and_eq_true] at h
  rw [isWordChar, h.1, h.2, Bool.or_true, Bool.and_self]

/-- A number in another base is found again before a rest that starts with the same run. -/
theorem number_append (hrest : firstRun r = firstRun r')
    (h : number afterParameter c (t ++ r) = (.quoted, t.length)) :
    number afterParameter c (t ++ r') = (.quoted, t.length) ∧ EndsInRun (c :: t) := by
  rw [number] at h
  split at h
  · next hbase =>
    rw [Bool.and_eq_true, beq_iff_eq] at hbase
    obtain ⟨rfl, hbase⟩ := hbase
    have hlength := (Prod.mk.inj h).2
    -- the digits are those up to the rest
    have ht : (t ++ r).takeWhile isDigitsChar = t :=
      (List.append_inj (List.takeWhile_append_dropWhile ..) hlength).1
    have hall : ∀ d ∈ t, isDigitsChar d = true := by
      rw [← ht, ← List.all_eq_true]
      exact List.all_takeWhile
    have hne : t ≠ [] := by
      rintro rfl
      cases r with
      | nil => simp at hbase
      | cons d r =>
        have hd : isDigitsChar d = true := by
          simp only [List.nil_append, List.head?_cons, Option.any_some, List.contains_cons,
            List.contains_nil, Bool.or_eq_true, beq_iff_eq, Bool.or_false] at hbase
          rcases hbase with rfl | rfl | rfl | rfl <;> decide
        rw [List.nil_append, List.takeWhile_cons_of_pos hd] at ht
        simp at ht
    have hhead : ∀ s, (t ++ s).head? = t.head? := by
      intro s
      cases t with
      | nil => exact absurd rfl hne
      | cons d t => rfl
    have hr : ∀ s, firstRun r = firstRun s → s.takeWhile isDigitsChar = [] := by
      intro s hs
      have hfirst := takeWhile_firstRun (fun _ => isRunChar_of_isDigitsChar) s
      rw [← hs, takeWhile_firstRun fun _ => isRunChar_of_isDigitsChar] at hfirst
      rw [List.takeWhile_append_of_pos hall] at ht
      rw [← hfirst]
      exact List.append_right_eq_self.1 ht
    refine ⟨?_, ?_⟩
    · rw [hhead] at hbase
      rw [number, hhead, hbase, List.takeWhile_append_of_pos hall, hr r' hrest, List.append_nil]
      rfl
    · refine endsInRun_append ['0'] (endsInRun_of_all hne ?_)
      rw [List.all_eq_true]
      exact fun d hd => isRunChar_of_isDigitsChar (hall d hd)
  · simp at h

theorem eq_semicolon_of_markKind {c : Char} (h : markKind c = .semicolon) : c = ';' := by
  rw [markKind] at h
  split at h
  · simp at h
  · split at h
    · next hc => exact beq_iff_eq.1 hc
    · simp at h

theorem wordKind_ne_semicolon (afterParameter : Bool) (word : List Char) :
    wordKind afterParameter word ≠ .semicolon := by
  rw [wordKind]
  split
  · simp
  · split
    · simp
    · split <;> simp

/-- What starts at a character other than white space: quoted text of some form, a comment, or a
token of loose text. -/
theorem next_cases {cs : List Char} {kind : LexemeKind} {n : Nat} (hblank : isBlank c = false)
    (h : next afterParameter c cs = .ok (kind, n)) :
    (c.isDigit = true ∧ number afterParameter c cs = (kind, n)) ∨
    (c.isDigit = false ∧ (c == '"') = true ∧ quotedAfter .quoted '"' false 0 cs = .ok (kind, n)) ∨
    (c.isDigit = false ∧ (c == '"') = false ∧ string? c cs = some (.ok (kind, n))) ∨
    (c = '$' ∧ dollar cs = .ok (kind, n)) ∨ comment? c cs = some (.ok (kind, n)) ∨
    (isLoose kind = true ∧ (kind = .semicolon → c = ';')) := by
  simp only [next, isSpaceOrTab_eq_false hblank, hblank, Bool.false_eq_true, if_false] at h
  by_cases hdigit : c.isDigit = true
  · rw [if_pos hdigit] at h
    exact .inl ⟨hdigit, Except.ok.inj h⟩
  rw [if_neg hdigit] at h
  have hdigit' := Bool.eq_false_iff.2 hdigit
  by_cases hidentifier : (c == '"') = true
  · rw [if_pos hidentifier] at h
    exact .inr (.inl ⟨hdigit', hidentifier, h⟩)
  rw [if_neg hidentifier] at h
  cases hstring : string? c cs with
  | some result =>
    simp only [hstring] at h
    exact .inr (.inr (.inl ⟨hdigit', Bool.eq_false_iff.2 hidentifier, by rw [h]⟩))
  | none =>
    simp only [hstring] at h
    by_cases hdollar : (c == '$') = true
    · rw [if_pos hdollar] at h
      exact .inr (.inr (.inr (.inl ⟨beq_iff_eq.1 hdollar, h⟩)))
    rw [if_neg hdollar] at h
    -- what is left is a comment or loose text: an operator, a mark, a phrase or a word
    cases hcomment : comment? c cs with
    | some result =>
      simp only [hcomment] at h
      exact .inr (.inr (.inr (.inr (.inl (by rw [h])))))
    | none =>
      refine .inr (.inr (.inr (.inr (.inr ?_))))
      simp only [hcomment] at h
      cases hoperator : operator? (c :: cs) with
      | some n =>
        simp only [hoperator, Except.ok.injEq, Prod.mk.injEq] at h
        rw [← h.1]
        exact ⟨rfl, fun hsemicolon => absurd hsemicolon (by decide)⟩
      | none =>
        simp only [hoperator] at h
        by_cases hmark : marks.contains c = true
        · rw [if_pos hmark] at h
          rw [← (Prod.mk.inj (Except.ok.inj h)).1]
          exact ⟨isLoose_markKind c, eq_semicolon_of_markKind⟩
        · rw [if_neg hmark] at h
          cases hphrase : phrase? (c :: cs) with
          | some n =>
            simp only [hphrase, Except.ok.injEq, Prod.mk.injEq] at h
            rw [← h.1]
            exact ⟨rfl, fun hsemicolon => absurd hsemicolon (by decide)⟩
          | none =>
            simp only [hphrase, Except.ok.injEq, Prod.mk.injEq] at h
            rw [← h.1]
            exact ⟨isLoose_wordKind .., fun hkind => absurd hkind (wordKind_ne_semicolon _ _)⟩

theorem kind_of_string? {cs : List Char} {kind : LexemeKind} {n : Nat}
    (h : string? c cs = some (.ok (kind, n))) : kind = .quoted ∨ kind = .plain := by
  by_cases hquoted : kind = .quoted
  · exact .inl hquoted
  · obtain ⟨ds, k, -, -, -, hplain, -⟩ := string?_loose h hquoted
    exact .inr hplain

theorem kind_of_dollar {cs : List Char} {kind : LexemeKind} {n : Nat}
    (h : dollar cs = .ok (kind, n)) : kind = .quoted ∨ kind = .parameter := by
  rw [dollar.eq_def] at h
  simp only at h
  repeat' split at h
  all_goals simp_all

/-- Only white space is read as white space. -/
theorem isBlank_of_next {cs : List Char} {kind : LexemeKind} {n : Nat}
    (h : next afterParameter c cs = .ok (kind, n)) (hkind : kind = .blank ∨ kind = .lineBreak) :
    isBlank c = true := by
  rw [← Bool.not_eq_false]
  intro hblank
  obtain ⟨-, h⟩ | ⟨-, -, h⟩ | ⟨-, -, h⟩ | ⟨-, h⟩ | h | h := next_cases hblank h
  · rw [number] at h
    split at h <;> rcases hkind with rfl | rfl <;> simp at h
  · obtain ⟨k, -, rfl, -⟩ := quotedAfter_eq_ok_iff.1 h
    simp at hkind
  · obtain rfl | rfl := kind_of_string? h <;> simp at hkind
  · obtain rfl | rfl := kind_of_dollar h <;> simp at hkind
  · obtain rfl := kind_of_comment? h
    simp at hkind
  · rcases hkind with rfl | rfl <;> exact absurd h.1 (by decide)

theorem isBlank_eq_false_of_next {cs : List Char} {kind : LexemeKind} {n : Nat}
    (h : next afterParameter c cs = .ok (kind, n)) (hblank : kind ≠ .blank)
    (hbreak : kind ≠ .lineBreak) : isBlank c = false := by
  rw [← Bool.not_eq_true]
  intro hc
  rw [next_of_isBlank hc] at h
  have hkind := Except.ok.inj h
  split at hkind
  · exact hblank (Prod.mk.inj hkind).1.symm
  · exact hbreak (Prod.mk.inj hkind).1.symm

/-- Only a semicolon is read as one. -/
theorem eq_semicolon_of_next {cs : List Char} {n : Nat}
    (h : next afterParameter c cs = .ok (.semicolon, n)) : c = ';' := by
  have hblank := isBlank_eq_false_of_next h (by decide) (by decide)
  obtain ⟨-, h⟩ | ⟨-, -, h⟩ | ⟨-, -, h⟩ | ⟨-, h⟩ | h | h := next_cases hblank h
  · rw [number] at h
    split at h <;> simp at h
  · obtain ⟨k, -, hkind, -⟩ := quotedAfter_eq_ok_iff.1 h
    simp at hkind
  · obtain hkind | hkind := kind_of_string? h <;> simp at hkind
  · obtain hkind | hkind := kind_of_dollar h <;> simp at hkind
  · exact absurd (kind_of_comment? h) (by decide)
  · exact h.2 rfl

theorem next_eq_quoted_iff {cs : List Char} {n : Nat} :
    next afterParameter c cs = .ok (.quoted, n) ↔ isBlank c = false ∧
      (c.isDigit = true ∧ number afterParameter c cs = (.quoted, n) ∨
        c.isDigit = false ∧ (c == '"') = true ∧
          quotedAfter .quoted '"' false 0 cs = .ok (.quoted, n) ∨
        c.isDigit = false ∧ (c == '"') = false ∧ string? c cs = some (.ok (.quoted, n)) ∨
        c = '$' ∧ dollar cs = .ok (.quoted, n)) := by
  constructor
  · intro h
    have hblank := isBlank_eq_false_of_next h (by decide) (by decide)
    refine ⟨hblank, ?_⟩
    obtain h | h | h | h | h | h := next_cases hblank h
    · exact .inl h
    · exact .inr (.inl h)
    · exact .inr (.inr (.inl h))
    · exact .inr (.inr (.inr h))
    · exact absurd (kind_of_comment? h) (by decide)
    · exact absurd h.1 (by decide)
  · rintro ⟨hblank, ⟨hdigit, h⟩ | ⟨hdigit, hidentifier, h⟩ | ⟨hdigit, hidentifier, h⟩ | ⟨rfl, h⟩⟩
    · simp only [next, isSpaceOrTab_eq_false hblank, hblank, hdigit, h, Bool.false_eq_true,
        if_false, if_true]
    · simp only [next, isSpaceOrTab_eq_false hblank, hblank, hdigit, hidentifier, h,
        Bool.false_eq_true, if_false, if_true]
    · simp only [next, isSpaceOrTab_eq_false hblank, hblank, hdigit, hidentifier, h,
        Bool.false_eq_true, if_false]
    · have hnone : string? '$' cs = none := by
        rw [string?_eq_none_iff]
        simp [stringMarks]
      simp only [next, hnone]
      exact h

/-- Quoted text is found again before a rest that starts with the same run, and it ends with a
character of a run. -/
theorem next_quoted_append (hrest : firstRun r = firstRun r')
    (h : next afterParameter c (t ++ r) = .ok (.quoted, t.length)) :
    next afterParameter c (t ++ r') = .ok (.quoted, t.length) ∧ EndsInRun (c :: t) := by
  rw [next_eq_quoted_iff] at h ⊢
  obtain ⟨hblank, ⟨hdigit, h⟩ | ⟨hdigit, hidentifier, h⟩ | ⟨hdigit, hidentifier, h⟩ | ⟨rfl, h⟩⟩ := h
  · obtain ⟨hnumber, hend⟩ := number_append hrest h
    exact ⟨⟨hblank, .inl ⟨hdigit, hnumber⟩⟩, hend⟩
  · obtain ⟨k, hk, -, hlength⟩ := quotedAfter_eq_ok_iff.1 h
    rw [Nat.zero_add] at hlength
    subst hlength
    obtain ⟨hclose, hend⟩ := closingQuote?_append (by decide) hrest hk
    have hquoted : quotedAfter .quoted '"' false 0 (t ++ r') = .ok (.quoted, t.length) :=
      quotedAfter_eq_ok_iff.2 ⟨_, hclose, rfl, (Nat.zero_add _).symm⟩
    exact ⟨⟨hblank, .inr (.inl ⟨hdigit, hidentifier, hquoted⟩)⟩, endsInRun_append [c] hend⟩
  · obtain ⟨hstring, hend⟩ := string?_append hrest h
    exact ⟨⟨hblank, .inr (.inr (.inl ⟨hdigit, hidentifier, hstring⟩))⟩, hend⟩
  · obtain ⟨hbody, hend⟩ := dollar_append_of_quoted h r'
    exact ⟨⟨hblank, .inr (.inr (.inr ⟨rfl, hbody⟩))⟩, endsInRun_append ['$'] hend⟩

theorem length_le_of_closingQuote? {q : Char} {backslash : Bool} {cs : List Char} {n : Nat}
    (h : closingQuote? q backslash cs = some n) : n ≤ cs.length := by
  induction hlength : cs.length using Nat.strongRecOn generalizing cs n with
  | _ l ih =>
    subst hlength
    obtain ⟨ds, rfl, -, rfl⟩ | ⟨c, ds, k, rfl, hk, rfl, -⟩ | ⟨c, d, ds, k, rfl, hk, rfl, -⟩ :=
      closingQuote?_cases h
    · simp
    · exact Nat.succ_le_succ (ih _ (Nat.lt_succ_self _) hk rfl)
    · exact Nat.add_le_add_right (ih _ (Nat.lt_succ_of_lt (Nat.lt_succ_self _)) hk rfl) 2

theorem le_length_of_bodyLength? {delimiter cs : List Char} {n : Nat}
    (h : bodyLength? delimiter cs = some n) : n ≤ cs.length := by
  induction hlength : cs.length using Nat.strongRecOn generalizing cs n with
  | _ l ih =>
    subst hlength
    obtain ⟨r, rfl, rfl, -⟩ | ⟨c, ds, k, rfl, hk, rfl, -, -⟩ | ⟨ds, k, rfl, hk, rfl⟩ :=
      bodyLength?_cases h
    · simp
    · exact Nat.succ_le_succ (ih _ (Nat.lt_succ_self _) hk rfl)
    · exact Nat.add_le_add_right (ih _ (Nat.lt_succ_of_lt (Nat.lt_succ_self _)) hk rfl) 2

theorem length_le_of_string? {cs : List Char} {n : Nat}
    (h : string? c cs = some (.ok (.quoted, n))) : n ≤ cs.length := by
  have hquoted : ∀ {backslash skipped ds}, quotedAfter .quoted '\'' backslash skipped ds =
      .ok (.quoted, n) → n ≤ skipped + ds.length := by
    intro backslash skipped ds h
    obtain ⟨k, hk, -, rfl⟩ := quotedAfter_eq_ok_iff.1 h
    exact Nat.add_le_add_left (length_le_of_closingQuote? hk) skipped
  have hbits : ∀ {base baseMarks ds}, bitsAfter base baseMarks ds = .ok (.quoted, n) →
      n ≤ 1 + ds.length := by
    intro base baseMarks ds h
    obtain ⟨k, hk, -, rfl, -⟩ := bitsAfter_eq_ok_iff.1 h
    exact Nat.add_le_add_left (length_le_of_closingQuote? hk) 1
  by_cases hc : c = '\''
  · subst hc
    exact Nat.le_trans (hquoted (Option.some.inj h)) (by simp)
  · rw [string?.eq_def] at h
    split at h
    · exact absurd rfl hc
    · rw [List.length_cons, Nat.add_comm]
      repeat' split at h
      · exact hquoted (Option.some.inj h)
      · exact hquoted (Option.some.inj h)
      · exact hbits (Option.some.inj h)
      · exact hbits (Option.some.inj h)
      · simp at h
    · split at h
      · obtain ⟨k, -, hkind, -⟩ := quotedAfter_eq_ok_iff.1 (Option.some.inj h)
        simp at hkind
      · simp at h
    · simp at h

/-- Quoted text is part of the text. -/
theorem length_le_of_next_quoted {cs : List Char} {n : Nat}
    (h : next afterParameter c cs = .ok (.quoted, n)) : n ≤ cs.length := by
  obtain ⟨-, ⟨-, h⟩ | ⟨-, -, h⟩ | ⟨-, -, h⟩ | ⟨-, h⟩⟩ := next_eq_quoted_iff.1 h
  · rw [number] at h
    split at h
    · rw [← (Prod.mk.inj h).2]
      exact (List.takeWhile_prefix _).length_le
    · simp at h
  · obtain ⟨k, hk, -, rfl⟩ := quotedAfter_eq_ok_iff.1 h
    rw [Nat.zero_add]
    exact length_le_of_closingQuote? hk
  · exact length_le_of_string? h
  · obtain ⟨tag, body, k, rfl, -, -, hbody, rfl⟩ := dollar_eq_quoted_iff.1 h
    have := le_length_of_bodyLength? hbody
    rw [List.length_append, List.length_cons]
    omega

end Quoted

end PgSchema.Sql.Lexeme
