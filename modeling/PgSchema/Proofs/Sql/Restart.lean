/-
# Reading on behind a token

Punctuation ends every token before it, and so does a line feed with punctuation behind it.  So the
tokens of a text with punctuation behind it do not change when it goes on in another way with such a
stop, and the text from the stop on is read as if it stood alone.  Only a dollar sign looks further:
it is a parameter mark if no other dollar sign is in the text, or if white space stands before the
next one.

* `next_append_stop` : a token before punctuation, whichever stop stands in its place;
* `scanFrom_append_stop` : the lexemes of a text that goes on with another stop;
* `scanFrom_append` : the lexemes of a text that goes on behind a semicolon.
-/
import PgSchema.Proofs.Sql.Comment
import PgSchema.Proofs.Text.Span

namespace PgSchema.Sql.Lexeme

open Text Layout

variable {u r s : List Char} {x : Char}

/-! ## Stops -/

/-- Holds for a text that starts with punctuation, or with a line feed and punctuation. -/
def IsStop (s : List Char) : Prop :=
  ∃ c r, isPunctuation c = true ∧ (s = c :: r ∨ s = '\n' :: c :: r)

theorem isStop_punctuation (hx : isPunctuation x = true) (r : List Char) : IsStop (x :: r) :=
  ⟨x, r, hx, .inl rfl⟩

theorem isStop_lineFeed (hx : isPunctuation x = true) (r : List Char) : IsStop ('\n' :: x :: r) :=
  ⟨x, r, hx, .inr rfl⟩

theorem isRunChar_of_isPunctuation (hx : isPunctuation x = true) : isRunChar x = false := by
  rw [isRunChar, hx, Bool.not_true, Bool.and_false]

/-- A stop starts with a character that belongs to no token before it. -/
theorem IsStop.head (hs : IsStop s) :
    ∀ c ∈ s.head?, isRunChar c = false ∧ isSpaceOrTab c = false := by
  obtain ⟨c, r, hc, rfl | rfl⟩ := hs
  · rintro _ ⟨⟩
    exact ⟨isRunChar_of_isPunctuation hc, isSpaceOrTab_eq_false (isBlank_of_isPunctuation hc)⟩
  · rintro _ ⟨⟩
    decide

theorem IsStop.startsOff (hs : IsStop s) : StartsOff s := fun c hc => (hs.head c hc).1

/-- The run at the start of a text ends at a stop. -/
theorem IsStop.firstRun_append (hs : IsStop s) (u : List Char) :
    firstRun (u ++ s) = firstRun u :=
  takeWhile_append_left (fun c hc => (hs.head c hc).1) u

theorem firstRun_append_stop (hx : isPunctuation x = true) (hs : IsStop s) (u r : List Char) :
    firstRun (u ++ x :: r) = firstRun (u ++ s) := by
  rw [(isStop_punctuation hx r).firstRun_append, hs.firstRun_append]

/-- The characters of a run up to a stop. -/
theorem takeWhile_append_stop {p : Char → Bool} (hp : ∀ c, p c = true → isRunChar c = true)
    (hx : isPunctuation x = true) (hs : IsStop s) (u r : List Char) :
    (u ++ x :: r).takeWhile p = (u ++ s).takeWhile p := by
  rw [← takeWhile_firstRun hp, firstRun_append_stop hx hs, takeWhile_firstRun hp]

theorem exists_append_of_le_length {n : Nat} (hn : n ≤ u.length) :
    ∃ t v, u = t ++ v ∧ n = t.length :=
  ⟨u.take n, u.drop n, (List.take_append_drop n u).symm, (List.length_take_of_le hn).symm⟩

/-! ## Quotes -/

/-- Text between quotes before punctuation. -/
theorem quotedAfter_append_stop {kind kind' : LexemeKind} {q : Char} (hq : isRunChar q = true)
    {backslash : Bool} {skipped n : Nat} (hx : isPunctuation x = true) (hs : IsStop s)
    (h : quotedAfter kind q backslash skipped (u ++ x :: r) = .ok (kind', n))
    (hn : n ≤ skipped + u.length) :
    quotedAfter kind q backslash skipped (u ++ s) = .ok (kind', n) := by
  obtain ⟨k, hk, rfl, rfl⟩ := quotedAfter_eq_ok_iff.1 h
  obtain ⟨t, v, rfl, rfl⟩ := exists_append_of_le_length (Nat.le_of_add_le_add_left hn)
  rw [List.append_assoc] at hk
  refine quotedAfter_eq_ok_iff.2 ⟨t.length, ?_, rfl, rfl⟩
  rw [List.append_assoc]
  exact (closingQuote?_append hq (firstRun_append_stop hx hs v r) hk).1

/-- A string before punctuation. -/
theorem string?_append_stop {c : Char} {kind : LexemeKind} {n : Nat} (hx : isPunctuation x = true)
    (hs : IsStop s) (h : string? c (u ++ x :: r) = some (.ok (kind, n))) (hn : n ≤ u.length) :
    string? c (u ++ s) = some (.ok (kind, n)) := by
  by_cases hkind : kind = .quoted
  · subst hkind
    obtain ⟨t, v, rfl, rfl⟩ := exists_append_of_le_length hn
    rw [List.append_assoc] at h ⊢
    exact (string?_append (firstRun_append_stop hx hs v r) h).1
  -- what is left is a string behind a letter and an ampersand
  · obtain ⟨ds, k, hc, hds, hk, rfl, rfl⟩ := string?_loose h hkind
    match u with
    | [] => exact absurd hn (by simp)
    | [_] =>
      rw [List.length_singleton] at hn
      omega
    | a :: b :: u =>
      obtain ⟨rfl, htail⟩ := List.cons.inj hds
      obtain ⟨rfl, rfl⟩ := List.cons.inj htail
      have hle : 2 + k ≤ 2 + u.length := by
        rw [List.length_cons, List.length_cons] at hn
        omega
      have hquoted : quotedAfter .plain '\'' false 2 (u ++ s) = .ok (.plain, 2 + k) :=
        quotedAfter_append_stop (by decide) hx hs (quotedAfter_eq_ok_iff.2 ⟨k, hk, rfl, rfl⟩) hle
      rw [← hquoted]
      rcases hc with rfl | rfl <;> rfl

/-! ## Dollar signs -/

/-- Holds for a text in front of which a dollar sign is a parameter mark if no other one stands
between: it ends with punctuation, and white space stands before its first dollar sign. -/
structure PartsDollars (s : List Char) : Prop where
  ends : ∃ front c, s = front ++ [c] ∧ isPunctuation c = true
  parted : ∀ front back, s = front ++ '$' :: back → front.any isBlank = true

/-- Holds when no dollar sign of a text reaches into the text behind it. -/
def KeepsDollars (u s : List Char) : Prop := '$' ∈ u → PartsDollars s

theorem KeepsDollars.of_subset {u' : List Char} (h : KeepsDollars u s) (hsub : u' ⊆ u) :
    KeepsDollars u' s := fun hmem => h (hsub hmem)

/-- Behind white space a text may have any dollar signs. -/
theorem partsDollars_append {w : List Char} (hw : '$' ∉ w) {b : Char} (hb : isBlank b = true)
    (cs : List Char) {d : Char} (hd : isPunctuation d = true) :
    PartsDollars (w ++ b :: (cs ++ [d])) where
  ends := ⟨w ++ b :: cs, d, by rw [List.append_assoc, List.cons_append], hd⟩
  parted front back h := by
    have hne : b ≠ '$' := by
      rintro rfl
      exact absurd hb (by decide)
    obtain ⟨as, rfl, has⟩ | ⟨as, rfl, has⟩ := List.append_eq_append_iff.1 h
    · cases as with
      | nil => exact absurd (List.cons.inj has).1 hne
      | cons a as =>
        obtain ⟨rfl, -⟩ := List.cons.inj has
        rw [List.any_append, List.any_cons, hb, Bool.true_or, Bool.or_true]
    · cases as with
      | nil => exact absurd (List.cons.inj has).1.symm hne
      | cons a as =>
        obtain ⟨rfl, -⟩ := List.cons.inj has
        exact absurd (List.mem_append_right _ List.mem_cons_self) hw

theorem partsDollars_singleton {d : Char} (hd : isPunctuation d = true) : PartsDollars [d] where
  ends := ⟨[], d, rfl, hd⟩
  parted front back h := by
    cases front with
    | nil =>
      obtain ⟨rfl, -⟩ := List.cons.inj h
      exact absurd hd (by decide)
    | cons a front =>
      obtain ⟨-, htail⟩ := List.cons.inj h
      cases front <;> cases htail

theorem exists_append_of_endsInPair {cs : List Char} (h : endsInPair cs = true) :
    ∃ front, cs = front ++ ['\'', '\''] := by
  fun_induction endsInPair cs with
  | case1 => exact ⟨[], rfl⟩
  | case2 c cs ih =>
    obtain ⟨front, hfront⟩ := ih h
    exact ⟨'\'' :: '\'' :: front, by rw [hfront]; rfl⟩
  | case3 c cs _ _ ih =>
    obtain ⟨front, rfl⟩ := ih h
    exact ⟨c :: front, rfl⟩
  | case4 => cases h

theorem endsInPair_append_punctuation (hx : isPunctuation x = true) (cs : List Char) :
    endsInPair (cs ++ [x]) = false := by
  rw [← Bool.not_eq_true]
  intro h
  obtain ⟨front, hfront⟩ := exists_append_of_endsInPair h
  have hlast : (cs ++ [x]).getLast? = (front ++ ['\'', '\'']).getLast? := by rw [hfront]
  simp only [List.getLast?_append, List.getLast?_singleton, List.getLast?_cons_cons,
    Option.some_or, Option.some.injEq] at hlast
  subst hlast
  exact absurd hx (by decide)

/-- A dollar sign with no other behind it is a parameter mark. -/
theorem dollar_of_notMem (hx : isPunctuation x = true) {cs : List Char} (h : '$' ∉ cs ++ [x]) :
    dollar (cs ++ [x]) = .ok (.parameter, 0) := by
  have hall : ∀ c ∈ cs ++ [x], (c != '$') = true := bne_of_notMem h
  have hdrop : (cs ++ [x]).dropWhile (· != '$') = [] := by
    rw [dropWhile_eq_nil_iff_all, List.all_eq_true]
    exact hall
  have htake : (cs ++ [x]).takeWhile (· != '$') = cs ++ [x] := by
    have happend := List.takeWhile_append_dropWhile (p := (· != '$')) (l := cs ++ [x])
    rwa [hdrop, List.append_nil] at happend
  rw [dollar, htake, endsInPair_append_punctuation hx, if_neg Bool.false_ne_true]
  · simp
  · exact hdrop

/-- A dollar sign before a text that parts it from the next one. -/
theorem dollar_append_of_partsDollars (hs : PartsDollars s) (hu : '$' ∉ u) :
    dollar (u ++ s) = .ok (.parameter, 0) := by
  obtain ⟨front, c, hfront, hc⟩ := hs.ends
  by_cases hmem : '$' ∈ s
  -- what stands up to the next dollar sign has white space and is no tag
  · obtain ⟨as, bs, hsplit, has⟩ := List.eq_append_cons_of_mem hmem
    have hblank : (u ++ as).any isBlank = true := by
      rw [List.any_append, hs.parted as bs hsplit, Bool.or_true]
    have htag : '$' ∉ u ++ as := by
      rw [List.mem_append, not_or]
      exact ⟨hu, has⟩
    have hne : (u ++ as).isEmpty = false := by
      rw [← Bool.not_eq_true, List.isEmpty_iff]
      intro hnil
      rw [hnil] at hblank
      cases hblank
    have hbody : bs.isEmpty = false := by
      rw [← Bool.not_eq_true, List.isEmpty_iff]
      rintro rfl
      rw [hfront] at hsplit
      obtain rfl := (List.cons.inj (List.append_inj_right' hsplit rfl)).1
      exact absurd hc (by decide)
    rw [hsplit, ← List.append_assoc, dollar_append htag, hbody, Bool.and_false,
      if_neg Bool.false_ne_true, hne, hblank, Bool.or_true]
    rfl
  · rw [hfront, ← List.append_assoc]
    refine dollar_of_notMem hc ?_
    rw [List.append_assoc, ← hfront, List.mem_append, not_or]
    exact ⟨hu, hmem⟩

/-- A dollar sign before punctuation. -/
theorem dollar_append_stop {kind : LexemeKind} {n : Nat} (hbase : KeepsDollars ('$' :: u) r)
    (hkeeps : KeepsDollars ('$' :: u) s) (h : dollar (u ++ r) = .ok (kind, n))
    (hn : n ≤ u.length) : dollar (u ++ s) = .ok (kind, n) := by
  by_cases hkind : kind = .quoted
  · subst hkind
    obtain ⟨t, v, rfl, rfl⟩ := exists_append_of_le_length hn
    rw [List.append_assoc] at h ⊢
    exact (dollar_append_of_quoted h (v ++ s)).1
  · by_cases hmem : '$' ∈ u
    · obtain ⟨tag, body, rfl, htag⟩ := List.eq_append_cons_of_mem hmem
      have hne (s : List Char) (hs : PartsDollars s) : (body ++ s).isEmpty = false := by
        obtain ⟨front, c, rfl, -⟩ := hs.ends
        rw [← Bool.not_eq_true, List.isEmpty_iff]
        simp
      have hr := hne r (hbase List.mem_cons_self)
      have hs := hne s (hkeeps List.mem_cons_self)
      rw [List.append_assoc, List.cons_append, dollar_append htag] at h ⊢
      rw [hr, Bool.and_false, if_neg Bool.false_ne_true] at h
      rw [hs, Bool.and_false, if_neg Bool.false_ne_true]
      split
      · next hno => rwa [if_pos hno] at h
      -- a tag would make it quoted text
      · next hno =>
        rw [if_neg hno] at h
        cases hbody : bodyLength? ('$' :: tag ++ ['$']) (body ++ r) with
        | none =>
          rw [hbody] at h
          cases h
        | some k =>
          rw [hbody] at h
          exact absurd (Prod.mk.inj (Except.ok.inj h)).1.symm hkind
    · rw [dollar_append_of_partsDollars (hbase List.mem_cons_self) hmem] at h
      rw [dollar_append_of_partsDollars (hkeeps List.mem_cons_self) hmem]
      exact h

/-! ## Comments -/

/-- The end of a block comment before the end of a text. -/
theorem commentLength?_append_stop {opening closing : Char × Char} {depth n : Nat}
    (h : commentLength? opening closing depth (u ++ r) = some n) (hn : n ≤ u.length)
    (s : List Char) : commentLength? opening closing depth (u ++ s) = some n := by
  obtain ⟨t, v, rfl, rfl⟩ := exists_append_of_le_length hn
  rw [List.append_assoc] at h ⊢
  exact commentLength?_append h (v ++ s)

/-- The end of a line comment before the end of a text. -/
theorem takeWhile_line_append {p : Char → Bool} (hx : p x = true)
    (h : ((u ++ x :: r).takeWhile p).length ≤ u.length) (s : List Char) :
    (u ++ s).takeWhile p = (u ++ x :: r).takeWhile p := by
  induction u with
  | nil =>
    rw [List.nil_append, List.takeWhile_cons_of_pos hx] at h
    exact absurd h (by simp)
  | cons c u ih =>
    rw [List.cons_append, List.cons_append, List.takeWhile_cons, List.takeWhile_cons]
    by_cases hc : p c = true
    · rw [List.cons_append, List.takeWhile_cons_of_pos hc, List.length_cons, List.length_cons] at h
      rw [if_pos hc, if_pos hc, ih (Nat.le_of_succ_le_succ h)]
    · rw [if_neg hc, if_neg hc]

/-- A comment that ends before punctuation. -/
theorem comment?_append_stop {c : Char} {kind : LexemeKind} {n : Nat}
    (hx : isPunctuation x = true) (h : comment? c (u ++ x :: r) = some (.ok (kind, n)))
    (hn : n ≤ u.length) (s : List Char) : comment? c (u ++ s) = some (.ok (kind, n)) := by
  -- the second mark of the comment is no punctuation, so it stands in `u`
  have hcons {d : Char} {cs : List Char} (hd : isRunChar d = true) (heq : u ++ x :: r = d :: cs) :
      ∃ v, u = d :: v ∧ cs = v ++ x :: r := by
    cases u with
    | nil =>
      rw [← (List.cons.inj heq).1, isRunChar_of_isPunctuation hx] at hd
      cases hd
    | cons y v =>
      obtain ⟨rfl, rfl⟩ := List.cons.inj heq
      exact ⟨v, rfl, rfl⟩
  rw [comment?.eq_def] at h
  split at h
  · next cs heq =>
    obtain ⟨v, rfl, rfl⟩ := hcons (by decide) heq
    obtain ⟨rfl, rfl⟩ := Prod.mk.inj (Except.ok.inj (Option.some.inj h))
    have hline : (x != '\n' && x != '\r') = true := by
      simp only [isPunctuation, Bool.or_eq_true, beq_iff_eq] at hx
      rcases hx with ((rfl | rfl) | rfl) | rfl <;> decide
    have hle : ((v ++ x :: r).takeWhile fun c => c != '\n' && c != '\r').length ≤ v.length := by
      rw [List.length_cons] at hn
      omega
    rw [List.cons_append, comment?, takeWhile_line_append hline hle s]
  · next cs heq =>
    obtain ⟨v, rfl, rfl⟩ := hcons (by decide) heq
    dsimp only at h
    split at h
    · next k hlength =>
      obtain ⟨rfl, rfl⟩ := Prod.mk.inj (Except.ok.inj (Option.some.inj h))
      simp only [List.cons_append, comment?,
        commentLength?_append_stop hlength (Nat.le_of_succ_le_succ hn) s]
    · cases h
  · next cs heq =>
    obtain ⟨v, rfl, rfl⟩ := hcons (by decide) heq
    dsimp only at h
    split at h
    · next k hlength =>
      obtain ⟨rfl, rfl⟩ := Prod.mk.inj (Except.ok.inj (Option.some.inj h))
      simp only [List.cons_append, comment?,
        commentLength?_append_stop hlength (Nat.le_of_succ_le_succ hn) s]
    · cases h
  · cases h

/-! ## Numbers and operators -/

theorem number_firstRun (afterParameter : Bool) (c : Char) (cs : List Char) :
    number afterParameter c (firstRun cs) = number afterParameter c cs := by
  rw [number, number, head?_firstRun_any isRunChar_of_baseMark, numberLength_firstRun,
    takeWhile_firstRun fun _ => isRunChar_of_isDigitsChar]

theorem number_append_stop (afterParameter : Bool) (c : Char) (hx : isPunctuation x = true)
    (hs : IsStop s) (u r : List Char) :
    number afterParameter c (u ++ x :: r) = number afterParameter c (u ++ s) := by
  rw [← number_firstRun, firstRun_append_stop hx hs, number_firstRun]

theorem operator?_append_stop (hx : isPunctuation x = true) (hs : IsStop s) (u r : List Char) :
    operator? (u ++ x :: r) = operator? (u ++ s) := by
  rw [← operator?_firstRun, firstRun_append_stop hx hs, operator?_firstRun]

/-! ## Keywords of several words -/

/-- Holds when what is left of a text behind a word or a phrase stops at the stop behind the text,
or nothing is found, whichever stop it is. -/
def StopsBefore (drop? : List Char → Option (List Char)) (u : List Char) : Prop :=
  (∀ s, IsStop s → drop? (u ++ s) = none) ∨
    ∃ v, ∀ s, IsStop s → drop? (u ++ s) = some (v ++ s)

theorem stopsBefore_dropWord? {word : List Char} (hword : word.all isRunChar = true)
    (u : List Char) : StopsBefore (dropWord? word) u := by
  induction word generalizing u with
  | nil => exact .inr ⟨u, fun s _ => rfl⟩
  | cons w word ih =>
    cases u with
    | nil => exact .inl fun s hs => dropWord?_of_startsOff (by simp) hword hs.startsOff
    | cons c u =>
      rw [List.all_cons, Bool.and_eq_true] at hword
      by_cases hc : (upperChar c == [w]) = true
      · have hstep (cs : List Char) : dropWord? (w :: word) (c :: cs) = dropWord? word cs := by
          rw [dropWord?, if_pos hc]
        simp only [StopsBefore, List.cons_append, hstep]
        exact ih hword.2 u
      · exact .inl fun s _ => by rw [List.cons_append, dropWord?, if_neg hc]

/-- No phrase starts at a stop, nor behind the white space in it. -/
theorem IsStop.dropPhrase?_dropWhile (hs : IsStop s) {word : List Char} {words : List (List Char)}
    (hwords : ArePhrase (word :: words)) :
    dropPhrase? (word :: words) (s.dropWhile isBlank) = none := by
  refine dropPhrase?_of_startsOff hwords ?_
  obtain ⟨c, r, hc, hr⟩ := hs
  have hblank : ¬ isBlank c = true := by simp [isBlank_of_isPunctuation hc]
  have hdrop : s.dropWhile isBlank = c :: r := by
    rcases hr with rfl | rfl
    · exact List.dropWhile_cons_of_neg hblank
    · rw [List.dropWhile_cons_of_pos (by decide), List.dropWhile_cons_of_neg hblank]
  rw [hdrop]
  exact (isStop_punctuation hc r).startsOff

theorem stopsBefore_dropApart? {word : List Char} {words : List (List Char)}
    (hwords : ArePhrase (word :: words))
    (ih : ∀ v, StopsBefore (dropPhrase? (word :: words)) v) (v : List Char) :
    StopsBefore (dropApart? (word :: words)) v := by
  cases v with
  | nil =>
    refine .inl fun s hs => ?_
    have hnone := hs.dropPhrase?_dropWhile hwords
    obtain ⟨c, r, hc, rfl | rfl⟩ := hs
    · rw [List.nil_append, dropApart?, if_neg (by simp [isBlank_of_isPunctuation hc])]
    · rw [List.dropWhile_cons_of_pos (by decide)] at hnone
      rwa [List.nil_append, dropApart?, if_pos (by decide)]
  | cons b v =>
    by_cases hb : isBlank b = true
    · have hapart (s : List Char) : dropApart? (word :: words) (b :: v ++ s) =
          dropPhrase? (word :: words) ((v ++ s).dropWhile isBlank) := by
        rw [List.cons_append, dropApart?, if_pos hb]
      simp only [StopsBefore, hapart, List.dropWhile_append]
      -- the next word starts in `v`, or the white space goes on to the stop
      cases hv : (v.dropWhile isBlank).isEmpty with
      | true => exact .inl fun s hs => hs.dropPhrase?_dropWhile hwords
      | false =>
        simp only [Bool.false_eq_true, if_false]
        exact ih (v.dropWhile isBlank)
    · exact .inl fun s _ => by rw [List.cons_append, dropApart?, if_neg hb]

theorem stopsBefore_dropPhrase? {words : List (List Char)} (hwords : ArePhrase words)
    (u : List Char) : StopsBefore (dropPhrase? words) u := by
  induction words generalizing u with
  | nil => exact .inr ⟨u, fun s _ => rfl⟩
  | cons word words ih =>
    have hword := stopsBefore_dropWord? (hwords word List.mem_cons_self).2 u
    cases words with
    | nil => exact hword
    | cons word' words =>
      have htail : ArePhrase (word' :: words) := fun w hw => hwords w (List.mem_cons_of_mem _ hw)
      simp only [StopsBefore, dropPhrase?_cons_cons]
      obtain hnone | ⟨v, hv⟩ := hword
      · exact .inl fun s hs => by rw [hnone s hs, Option.bind_none]
      · obtain hapart | ⟨w, hw⟩ := stopsBefore_dropApart? htail (ih htail) v
        · exact .inl fun s hs => by rw [hv s hs, Option.bind_some, hapart s hs]
        · exact .inr ⟨w, fun s hs => by rw [hv s hs, Option.bind_some, hw s hs]⟩

theorem stopsBefore_findSome? {candidates : List (List (List Char))}
    (hcandidates : ∀ words ∈ candidates, ArePhrase words) (u : List Char) :
    StopsBefore (fun cs => candidates.findSome? fun phrase => dropPhrase? phrase cs) u := by
  induction candidates with
  | nil => exact .inl fun s _ => rfl
  | cons words candidates ih =>
    obtain ⟨hwords, htail⟩ := List.forall_mem_cons.1 hcandidates
    simp only [StopsBefore, List.findSome?_cons] at ih ⊢
    obtain hnone | ⟨v, hv⟩ := stopsBefore_dropPhrase? hwords u
    · obtain hrest | ⟨v, hrest⟩ := ih htail
      · exact .inl fun s hs => by rw [hnone s hs]; exact hrest s hs
      · exact .inr ⟨v, fun s hs => by rw [hnone s hs]; exact hrest s hs⟩
    · exact .inr ⟨v, fun s hs => by rw [hv s hs]⟩

/-- A word may end where a stop starts. -/
theorem IsStop.ends (hs : IsStop s) :
    (s.head?.all fun c => isBlank c || marks.contains c) = true := by
  obtain ⟨c, r, hc, rfl | rfl⟩ := hs
  · rw [List.head?_cons, Option.all_some, contains_marks_of_isPunctuation hc, Bool.or_true]
  · rw [List.head?_cons, Option.all_some]
    decide

theorem stopsBefore_dropKeyword? (u : List Char) : StopsBefore dropKeyword? u := by
  have hfound := stopsBefore_findSome?
    (fun words hwords => (arePhrase_of_mem_phrases words hwords).2) u
  simp only [StopsBefore] at hfound
  have hword := stopsBefore_dropWord? isRunChar_hyphenated u
  -- a phrase counts only if a word may end behind it; otherwise a hyphenated word is looked for
  obtain hnone | ⟨v, hv⟩ := hfound
  · have hkeyword (s : List Char) (hs : IsStop s) :
        dropKeyword? (u ++ s) = dropWord? hyphenated (u ++ s) := by
      rw [dropKeyword?, hnone s hs]
    obtain hnone | ⟨w, hw⟩ := hword
    · exact .inl fun s hs => (hkeyword s hs).trans (hnone s hs)
    · exact .inr ⟨w, fun s hs => (hkeyword s hs).trans (hw s hs)⟩
  · have hkeyword (s : List Char) (hs : IsStop s) : dropKeyword? (u ++ s) =
        if (v ++ s).head?.all fun c => isBlank c || marks.contains c then some (v ++ s)
        else dropWord? hyphenated (u ++ s) := by
      rw [dropKeyword?, hv s hs]
    cases v with
    | nil =>
      refine .inr ⟨[], fun s hs => ?_⟩
      rw [hkeyword s hs, List.nil_append, if_pos hs.ends]
    | cons c v =>
      by_cases hc : (isBlank c || marks.contains c) = true
      · exact .inr ⟨c :: v, fun s hs => (hkeyword s hs).trans (if_pos hc)⟩
      · have helse (s : List Char) (hs : IsStop s) :
            dropKeyword? (u ++ s) = dropWord? hyphenated (u ++ s) :=
          (hkeyword s hs).trans (if_neg hc)
        obtain hnone | ⟨w, hw⟩ := hword
        · exact .inl fun s hs => (helse s hs).trans (hnone s hs)
        · exact .inr ⟨w, fun s hs => (helse s hs).trans (hw s hs)⟩

/-- A keyword of several words before punctuation. -/
theorem phrase?_append_stop (hx : isPunctuation x = true) (hs : IsStop s) (u r : List Char) :
    phrase? (u ++ x :: r) = phrase? (u ++ s) := by
  have hr := isStop_punctuation hx r
  rw [phrase?_eq_dropKeyword?, phrase?_eq_dropKeyword?]
  obtain hnone | ⟨v, hv⟩ := stopsBefore_dropKeyword? u
  · rw [hnone _ hr, hnone _ hs, Option.map_none, Option.map_none]
  · rw [hv _ hr, hv _ hs, Option.map_some, Option.map_some]
    simp only [List.length_append, Option.some.injEq]
    omega

/-! ## Tokens -/

/-- A token before punctuation is found whichever stop stands in the place of that. -/
theorem next_append_stop {p : Bool} {c : Char} {kind : LexemeKind} {n : Nat}
    (hx : isPunctuation x = true) (hs : IsStop s) (hbase : KeepsDollars (c :: u) (x :: r))
    (hkeeps : KeepsDollars (c :: u) s) (h : next p c (u ++ x :: r) = .ok (kind, n))
    (hn : n ≤ u.length) : next p c (u ++ s) = .ok (kind, n) := by
  have hrun := firstRun_append_stop hx hs u r
  rw [next] at h ⊢
  by_cases hspace : isSpaceOrTab c = true
  · rw [if_pos hspace,
      takeWhile_append_left fun c hc => ((isStop_punctuation hx r).head c hc).2] at h
    rw [if_pos hspace, takeWhile_append_left fun c hc => (hs.head c hc).2]
    exact h
  rw [if_neg hspace] at h ⊢
  by_cases hblank : isBlank c = true
  · rwa [if_pos hblank] at h ⊢
  rw [if_neg hblank] at h ⊢
  by_cases hdigit : c.isDigit = true
  · rw [if_pos hdigit] at h ⊢
    rwa [← number_append_stop p c hx hs u r]
  rw [if_neg hdigit] at h ⊢
  by_cases hquote : (c == '"') = true
  · rw [if_pos hquote] at h ⊢
    exact quotedAfter_append_stop (by decide) hx hs h (by omega)
  rw [if_neg hquote] at h ⊢
  cases hstring : string? c (u ++ x :: r) with
  | some result =>
    simp only [hstring] at h
    subst h
    simp only [string?_append_stop hx hs hstring hn]
  | none =>
    simp only [hstring] at h
    simp only [string?_eq_none_of_firstRun_eq hrun hstring]
    by_cases hdollar : (c == '$') = true
    · rw [if_pos hdollar] at h ⊢
      rw [beq_iff_eq.1 hdollar] at hbase hkeeps
      exact dollar_append_stop hbase hkeeps h hn
    rw [if_neg hdollar] at h ⊢
    cases hcomment : comment? c (u ++ x :: r) with
    | some result =>
      simp only [hcomment] at h
      subst h
      simp only [comment?_append_stop hx hcomment hn s]
    | none =>
      simp only [hcomment] at h
      simp only [comment?_eq_none_of_firstRun_eq hrun hcomment]
      -- operators, phrases and words are read within the run, and the run ends at the stop
      have hword := takeWhile_append_stop (fun _ => isRunChar_of_isWordChar) hx hs u r
      have htake : (u ++ x :: r).take ((u ++ s).takeWhile isWordChar).length =
          (u ++ s).take ((u ++ s).takeWhile isWordChar).length := by
        rw [← List.prefix_iff_eq_take.1 (List.takeWhile_prefix _), ← hword,
          ← List.prefix_iff_eq_take.1 (List.takeWhile_prefix _)]
      rw [hword, htake, ← List.cons_append, operator?_append_stop hx hs,
        phrase?_append_stop hx hs] at h
      exact h

/-! ## Texts -/

/-- The token of a semicolon. -/
def semicolon : Lexeme := ⟨.semicolon, [';']⟩

theorem afterParameter_markKind (hx : isPunctuation x = true) (p : Bool) :
    LexemeKind.afterParameter p (markKind x) = false := by
  simp only [isPunctuation, Bool.or_eq_true, beq_iff_eq] at hx
  rcases hx with ((rfl | rfl) | rfl) | rfl <;> rfl

/-- What stands behind punctuation is read as if it stood alone. -/
theorem scanFrom_punctuation (hx : isPunctuation x = true) (p : Bool) (cs : List Char) :
    scanFrom p 0 (x :: cs) = (scanFrom false 0 cs).map (⟨markKind x, [x]⟩ :: ·) := by
  rw [scanFrom, next_punctuation hx]
  simp only [bind, Except.bind, afterParameter_markKind hx]
  cases scanFrom false 0 cs <;> rfl

theorem scanFrom_lineFeed (p : Bool) (cs : List Char) :
    scanFrom p 0 ('\n' :: cs) = (scanFrom p 0 cs).map (⟨.lineBreak, ['\n']⟩ :: ·) := by
  rw [scanFrom, next_of_isBlank (by decide), if_neg (by decide)]
  simp only [bind, Except.bind, LexemeKind.afterParameter]
  cases scanFrom p 0 cs <;> rfl

/-- A stop is read as if it stood alone. -/
theorem IsStop.scanFrom_eq (hs : IsStop s) (p : Bool) :
    scanFrom p 0 s = scanFrom false 0 s := by
  obtain ⟨c, r, hc, rfl | rfl⟩ := hs
  · rw [scanFrom_punctuation hc, scanFrom_punctuation hc]
  · rw [scanFrom_lineFeed, scanFrom_lineFeed, scanFrom_punctuation hc, scanFrom_punctuation hc]

/-- The lexemes of a text before punctuation are the same when it goes on with another stop, which
is read as if it stood alone. -/
theorem scanFrom_append_stop {p : Bool} {ℓs ms : List Lexeme} (hx : isPunctuation x = true)
    (hs : IsStop s) (hbase : KeepsDollars u (x :: r)) (hkeeps : KeepsDollars u s)
    (h : scanFrom p 0 (u ++ x :: r) = .ok (ℓs ++ ms)) (hu : u = ℓs.flatMap (·.text)) :
    scanFrom p 0 (u ++ s) = (scanFrom false 0 s).map (ℓs ++ ·) := by
  induction ℓs generalizing p u with
  | nil =>
    subst hu
    rw [List.flatMap_nil, List.nil_append, hs.scanFrom_eq p]
    cases scanFrom false 0 s <;> rfl
  | cons ℓ ℓs ih =>
    cases u with
    | nil =>
      obtain ⟨kind, n, rest, -, -, heq⟩ := scanFrom_cons_eq_ok_iff.1 h
      rw [(List.cons.inj heq).1] at hu
      cases hu
    | cons c u =>
      rw [List.cons_append, List.cons_append] at h
      obtain ⟨kind, n, rest, hnext, hrest, heq⟩ := scanFrom_cons_eq_ok_iff.1 h
      obtain ⟨rfl, rfl⟩ := List.cons.inj heq
      -- the token ends before the stop
      have htail : u = (u ++ x :: r).take n ++ ℓs.flatMap (·.text) := (List.cons.inj hu).2
      have hn : n ≤ u.length := by
        have hlength := congrArg List.length htail
        rw [List.length_append, List.length_take, List.length_append, List.length_cons] at hlength
        omega
      obtain ⟨t, v, rfl, rfl⟩ := exists_append_of_le_length hn
      rw [List.append_assoc, List.take_left, List.append_cancel_left_eq] at htail
      rw [List.append_assoc, List.drop_left] at hrest
      have hv : ∀ d ∈ v, d ∈ c :: (t ++ v) :=
        fun d hd => List.mem_cons_of_mem c (List.mem_append_right t hd)
      have hgo := ih (hbase.of_subset hv) (hkeeps.of_subset hv) hrest htail
      have hnext' := next_append_stop hx hs hbase hkeeps hnext hn
      rw [List.cons_append, scanFrom, hnext', List.append_assoc, List.append_assoc]
      simp only [bind, Except.bind]
      rw [scanFrom_eq_drop, List.drop_left, hgo, List.take_left, List.take_left]
      cases scanFrom false 0 s <;> rfl

theorem exists_append_of_scanFrom_semicolon {p : Bool} {cs : List Char} {ℓs : List Lexeme}
    (h : scanFrom p 0 cs = .ok (ℓs ++ [semicolon])) :
    ∃ u, cs = u ++ [';'] ∧ u = ℓs.flatMap (·.text) := by
  refine ⟨_, ?_, rfl⟩
  rw [← flatMap_text_of_scanFrom h, List.flatMap_append]
  rfl

/-- A text that ends with the token of a semicolon has the same lexemes when it goes on, and what
stands behind it is read as if it stood alone. -/
theorem scanFrom_append {p : Bool} {cs : List Char} {ℓs : List Lexeme}
    (h : scanFrom p 0 cs = .ok (ℓs ++ [semicolon])) (hkeeps : KeepsDollars cs (';' :: r)) :
    scanFrom p 0 (cs ++ r) = (scanFrom false 0 r).map (ℓs ++ [semicolon] ++ ·) := by
  obtain ⟨u, rfl, hu⟩ := exists_append_of_scanFrom_semicolon h
  have hsub : u ⊆ u ++ [';'] := List.subset_append_left u _
  have hbase : KeepsDollars u [';'] := fun _ => partsDollars_singleton (by decide)
  rw [List.append_assoc, List.singleton_append, scanFrom_append_stop (by decide)
    (isStop_punctuation (by decide) r) hbase (hkeeps.of_subset hsub) h hu,
    scanFrom_punctuation (by decide)]
  cases scanFrom false 0 r with
  | error e => rfl
  | ok ms => exact congrArg Except.ok (by simp [semicolon, markKind])

end PgSchema.Sql.Lexeme
