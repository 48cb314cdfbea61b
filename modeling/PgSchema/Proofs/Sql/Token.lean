/-
# Tokens of loose text

The token that starts at a character is found again in another text with the same ink.  Keywords
of several words and strings with `U&` in front may be respaced themselves.

* `closesLike_of_ink_eq` : a closing quote is found at the same place of the ink;
* `next_of_ink_eq` : a token of loose text is found in a text with the same ink.
-/
import PgSchema.Proofs.Sql.Run

namespace PgSchema.Sql.Lexeme

open Text Layout

/-! ## The same start of two texts -/

/-- Holds for a text that is empty or ends with a character of a run. -/
def IsTail (cs : List Char) : Prop := cs = [] ∨ EndsInRun cs

/-- Holds when the first `n` characters of one text and the first `m` of another have the same
ink, behind a character of a run, and neither part ends with white space or punctuation. -/
structure SameHead (cs : List Char) (n : Nat) (ds : List Char) (m : Nat) : Prop where
  le_left : n ≤ cs.length
  le_right : m ≤ ds.length
  tail_left : IsTail (cs.take n)
  tail_right : IsTail (ds.take m)
  ink_eq : ink .joined (cs.take n) = ink .joined (ds.take m)

theorem sameHead_zero (cs ds : List Char) : SameHead cs 0 ds 0 where
  le_left := Nat.zero_le _
  le_right := Nat.zero_le _
  tail_left := .inl rfl
  tail_right := .inl rfl
  ink_eq := rfl

theorem isTail_of_all {cs : List Char} (h : cs.all isRunChar = true) : IsTail cs := by
  by_cases hne : cs = []
  · exact .inl hne
  · exact .inr (endsInRun_of_all hne h)

theorem isTail_cons {c : Char} {cs : List Char} (hc : isRunChar c = true) (h : IsTail cs) :
    IsTail (c :: cs) := by
  obtain rfl | h := h
  · exact .inr ⟨[], c, rfl, hc⟩
  · exact .inr (endsInRun_append [c] h)

/-- Within the first run two texts with equal ink are the same. -/
theorem sameHead_of_le {cs ds : List Char} (h : ink .joined cs = ink .joined ds) {n : Nat}
    (hn : n ≤ (firstRun cs).length) : SameHead cs n ds n := by
  obtain ⟨htake, hall, -⟩ := take_of_ink_eq h hn
  have hlength : ∀ es : List Char, (firstRun es).length ≤ es.length :=
    fun es => (List.takeWhile_prefix _).length_le
  have hds := hlength ds
  rw [← firstRun_eq_of_ink_eq h] at hds
  exact {
    le_left := Nat.le_trans hn (hlength cs)
    le_right := Nat.le_trans hn hds
    tail_left := isTail_of_all hall
    tail_right := htake ▸ isTail_of_all hall
    ink_eq := by rw [htake] }

theorem sameHead_append {w w' : List Char} (hw : IsTail w) (hw' : IsTail w')
    (h : ink .joined w = ink .joined w') (r r' : List Char) :
    SameHead (w ++ r) w.length (w' ++ r') w'.length where
  le_left := by simp
  le_right := by simp
  tail_left := by rwa [List.take_left]
  tail_right := by rwa [List.take_left]
  ink_eq := by rw [List.take_left, List.take_left, h]

theorem sameHead_cons {c : Char} (hc : isRunChar c = true) {cs ds : List Char} {n m : Nat}
    (h : SameHead cs n ds m) : SameHead (c :: cs) (n + 1) (c :: ds) (m + 1) where
  le_left := Nat.succ_le_succ h.le_left
  le_right := Nat.succ_le_succ h.le_right
  tail_left := isTail_cons hc h.tail_left
  tail_right := isTail_cons hc h.tail_right
  ink_eq := by
    rw [List.take_succ_cons, List.take_succ_cons, ink_joined_run hc, ink_joined_run hc, h.ink_eq]

theorem after_of_endsInRun {cs : List Char} (h : EndsInRun cs) (j : Joint) :
    j.after cs = .joined := by
  obtain ⟨front, c, rfl, hc⟩ := h
  rw [Joint.after_append, Joint.after_cons (isBlank_of_isRunChar hc), behind_of_isRunChar hc,
    Joint.after_nil]

/-- A text that ends with a character of a run ends so behind its first character, unless it has
no other. -/
theorem isTail_of_endsInRun_cons {c : Char} {cs : List Char} (h : EndsInRun (c :: cs)) :
    IsTail cs := by
  obtain ⟨front, d, heq, hd⟩ := h
  cases front with
  | nil => exact .inl (List.cons.inj heq).2
  | cons e front => exact .inr ⟨front, d, (List.cons.inj heq).2, hd⟩

theorem exists_cons_of_endsInRun {c : Char} {cs w r : List Char} (hw : EndsInRun w)
    (h : c :: cs = w ++ r) : ∃ v, w = c :: v ∧ cs = v ++ r := by
  cases w with
  | nil =>
    obtain ⟨front, d, hnil, -⟩ := hw
    simp at hnil
  | cons x v =>
    obtain ⟨rfl, rfl⟩ := List.cons.inj h
    exact ⟨v, rfl, rfl⟩

/-! ## Closing quotes -/

theorem closingQuote?_cons_ne {q c : Char} (h : (c == q) = false) (cs : List Char) :
    closingQuote? q false (c :: cs) = (closingQuote? q false cs).map (· + 1) := by
  cases cs with
  | nil => simp [closingQuote?, h]
  | cons d cs => simp [closingQuote?, h]

theorem closingQuote?_pair (q : Char) (backslash : Bool) (cs : List Char) :
    closingQuote? q backslash (q :: q :: cs) = (closingQuote? q backslash cs).map (· + 2) := by
  simp [closingQuote?]

theorem closingQuote?_closed {q : Char} {backslash : Bool} {cs : List Char}
    (h : cs.head? ≠ some q) : closingQuote? q backslash (q :: cs) = some 1 := by
  cases cs with
  | nil => simp [closingQuote?]
  | cons d cs =>
    have hd : (d == q) = false := by simpa using h
    simp [closingQuote?, hd]

/-- Holds when a closing quote ends the first `n` characters of one text and a part of another
text with the same ink. -/
def ClosesLike (q : Char) (j k : Joint) (cs : List Char) (n : Nat) (ds : List Char) : Prop :=
  ∃ w r w' r', cs = w ++ r ∧ n = w.length ∧ ds = w' ++ r' ∧
    closingQuote? q false ds = some w'.length ∧ EndsInRun w ∧ EndsInRun w' ∧ ink j w = ink k w'

theorem beq_eq_false_of_isBlank {b q : Char} (hq : isRunChar q = true) (hb : isBlank b = true) :
    (b == q) = false := by
  rw [beq_eq_false_iff_ne]
  rintro rfl
  rw [isBlank_of_isRunChar hq] at hb
  exact absurd hb (by decide)

section ClosesLike

variable {q : Char} {j k : Joint} {cs ds : List Char} {n : Nat}

theorem closesLike_blank_left {b : Char} (hb : isBlank b = true)
    (h : ClosesLike q j.blank k cs n ds) : ClosesLike q j k (b :: cs) (n + 1) ds := by
  obtain ⟨w, r, w', r', rfl, rfl, hds, hclose, hend, hend', hink⟩ := h
  exact ⟨b :: w, r, w', r', rfl, rfl, hds, hclose, endsInRun_append [b] hend, hend',
    (ink_cons_blank hb).trans hink⟩

theorem closesLike_blank_right (hq : isRunChar q = true) {b : Char} (hb : isBlank b = true)
    (h : ClosesLike q j k.blank cs n ds) : ClosesLike q j k cs n (b :: ds) := by
  obtain ⟨w, r, w', r', hcs, hn, rfl, hclose, hend, hend', hink⟩ := h
  refine ⟨w, r, b :: w', r', hcs, hn, rfl, ?_, hend, endsInRun_append [b] hend',
    hink.trans (ink_cons_blank hb).symm⟩
  rw [closingQuote?_cons_ne (beq_eq_false_of_isBlank hq hb), hclose]
  rfl

theorem closesLike_cons {c : Char} (hc : isBlank c = false) (hcq : (c == q) = false)
    (hflag : (j == .parted && !isPunctuation c) = (k == .parted && !isPunctuation c))
    (h : ClosesLike q (.behind c) (.behind c) cs n ds) :
    ClosesLike q j k (c :: cs) (n + 1) (c :: ds) := by
  obtain ⟨w, r, w', r', rfl, rfl, rfl, hclose, hend, hend', hink⟩ := h
  refine ⟨c :: w, r, c :: w', r', rfl, rfl, rfl, ?_, endsInRun_append [c] hend,
    endsInRun_append [c] hend', ?_⟩
  · rw [closingQuote?_cons_ne hcq, hclose]
    rfl
  · rw [ink_cons hc, ink_cons hc, hflag, hink]

theorem closesLike_pair (hq : isRunChar q = true)
    (hflag : (j == .parted && !isPunctuation q) = (k == .parted && !isPunctuation q))
    (h : ClosesLike q .joined .joined cs n ds) :
    ClosesLike q j k (q :: q :: cs) (n + 2) (q :: q :: ds) := by
  obtain ⟨w, r, w', r', rfl, rfl, rfl, hclose, hend, hend', hink⟩ := h
  refine ⟨q :: q :: w, r, q :: q :: w', r', rfl, rfl, rfl, ?_,
    endsInRun_append [q, q] hend, endsInRun_append [q, q] hend', ?_⟩
  · rw [closingQuote?_pair, hclose]
    rfl
  · simp only [ink_cons (isBlank_of_isRunChar hq), behind_of_isRunChar hq, hflag, hink]

theorem closesLike_closed (hq : isRunChar q = true)
    (hflag : (j == .parted && !isPunctuation q) = (k == .parted && !isPunctuation q))
    (hds : ds.head? ≠ some q) : ClosesLike q j k (q :: cs) 1 (q :: ds) := by
  have hend : EndsInRun [q] := ⟨[], q, rfl, hq⟩
  refine ⟨[q], cs, [q], ds, rfl, rfl, rfl, closingQuote?_closed hds, hend, hend, ?_⟩
  rw [ink_cons (isBlank_of_isRunChar hq), ink_cons (isBlank_of_isRunChar hq), hflag]

/-- A quote closes the text, or it is the first of a pair in both texts. -/
theorem closesLike_quote (hq : isRunChar q = true)
    (hflag : (j == .parted && !isPunctuation q) = (k == .parted && !isPunctuation q))
    (hink : ink .joined cs = ink .joined ds) (hn : closingQuote? q false (q :: cs) = some n)
    (ih : ∀ {cs' ds' n}, cs = q :: cs' → ink .joined cs' = ink .joined ds' →
      closingQuote? q false cs' = some n → ClosesLike q .joined .joined cs' n ds') :
    ClosesLike q j k (q :: cs) n (q :: ds) := by
  have hclosed : cs.head? ≠ some q → ds.head? ≠ some q →
      ClosesLike q j k (q :: cs) n (q :: ds) := by
    intro hcs hds
    rw [closingQuote?_closed hcs] at hn
    obtain rfl := Option.some.inj hn
    exact closesLike_closed hq hflag hds
  obtain ⟨e, cs', ds', he, rfl, rfl, hink'⟩ | ⟨hcs, hds⟩ := run_cases hink
  · by_cases heq : e = q
    · subst heq
      rw [closingQuote?_pair, Option.map_eq_some_iff] at hn
      obtain ⟨n, hn, rfl⟩ := hn
      exact closesLike_pair hq hflag (ih rfl hink' hn)
    · exact hclosed (by simpa using heq) (by simpa using heq)
  · have hne : ∀ {es : List Char}, StartsOff es → es.head? ≠ some q := by
      intro es hes heq
      rw [hes q heq] at hq
      exact absurd hq (by decide)
    exact hclosed (hne hcs) (hne hds)

end ClosesLike

/-- Texts with equal ink have a closing quote at the same place of their ink. -/
theorem closesLike_of_ink_eq {q : Char} (hq : isRunChar q = true) {j k : Joint}
    {cs ds : List Char} (h : ink j cs = ink k ds) {n : Nat}
    (hn : closingQuote? q false cs = some n) : ClosesLike q j k cs n ds := by
  induction hlength : cs.length using Nat.strongRecOn generalizing j k cs ds n with
  | _ l ih =>
    subst hlength
    cases cs with
    | nil => simp [closingQuote?] at hn
    | cons c cs =>
      have ihtail : ∀ {j k ds n}, ink j cs = ink k ds → closingQuote? q false cs = some n →
          ClosesLike q j k cs n ds := fun h hn => ih _ (Nat.lt_succ_self _) h hn rfl
      by_cases hc : isBlank c = true
      · rw [ink_cons_blank hc] at h
        rw [closingQuote?_cons_ne (beq_eq_false_of_isBlank hq hc), Option.map_eq_some_iff] at hn
        obtain ⟨n, hn, rfl⟩ := hn
        exact closesLike_blank_left hc (ihtail h hn)
      · rw [Bool.not_eq_true] at hc
        rw [ink_cons hc] at h
        -- in the other text white space may stand before the character
        induction ds generalizing k with
        | nil => simp at h
        | cons d ds ihds =>
          by_cases hd : isBlank d = true
          · rw [ink_cons_blank hd] at h
            exact closesLike_blank_right hq hd (ihds h)
          · rw [Bool.not_eq_true] at hd
            rw [ink_cons hd, List.cons.injEq, Prod.mk.injEq] at h
            obtain ⟨⟨hflag, rfl⟩, hink⟩ := h
            by_cases hcq : (c == q) = true
            · obtain rfl := beq_iff_eq.1 hcq
              rw [behind_of_isRunChar hq] at hink
              refine closesLike_quote hq hflag hink hn fun heq hink' hn => ih _ ?_ hink' hn rfl
              rw [heq]
              exact Nat.lt_succ_of_lt (Nat.lt_succ_self _)
            · rw [Bool.not_eq_true] at hcq
              rw [closingQuote?_cons_ne hcq, Option.map_eq_some_iff] at hn
              obtain ⟨n, hn, rfl⟩ := hn
              exact closesLike_cons hc hcq hflag (ihtail hink hn)

theorem sameHead_of_closesLike {q : Char} {cs ds : List Char} {n : Nat}
    (h : ClosesLike q .joined .joined cs n ds) :
    ∃ m, closingQuote? q false ds = some m ∧ SameHead cs n ds m := by
  obtain ⟨w, r, w', r', rfl, rfl, rfl, hclose, hend, hend', hink⟩ := h
  exact ⟨w'.length, hclose, sameHead_append (.inr hend) (.inr hend') hink r r'⟩

/-! ## Strings and comments -/

theorem quotedAfter_eq_ok_iff {kind kind' : LexemeKind} {q : Char} {backslash : Bool}
    {skipped n : Nat} {cs : List Char} :
    quotedAfter kind q backslash skipped cs = .ok (kind', n) ↔
      ∃ k, closingQuote? q backslash cs = some k ∧ kind' = kind ∧ n = skipped + k := by
  rw [quotedAfter]
  cases closingQuote? q backslash cs with
  | none => simp
  | some k => simp [eq_comm]

theorem bitsAfter_eq_ok_iff {base : Nat} {baseMarks cs : List Char} {kind : LexemeKind} {n : Nat} :
    bitsAfter base baseMarks cs = .ok (kind, n) ↔
      ∃ k, closingQuote? '\'' false cs = some k ∧ kind = .quoted ∧ n = 1 + k ∧
        ((cs.take (k - 1)).isEmpty ||
          Number.isNumeral base baseMarks (cs.take (k - 1))) = true := by
  rw [bitsAfter, quotedAfter]
  cases closingQuote? '\'' false cs with
  | none => simp [bind, Except.bind]
  | some k =>
    have hk : 1 + k - 2 = k - 1 := by omega
    simp only [bind, Except.bind, hk]
    by_cases h : ((cs.take (k - 1)).isEmpty ||
        Number.isNumeral base baseMarks (cs.take (k - 1))) = true
    · rw [if_pos h]
      constructor
      · rintro ⟨⟩
        exact ⟨k, rfl, rfl, rfl, h⟩
      · rintro ⟨_, ⟨⟩, rfl, rfl, -⟩
        rfl
    · rw [if_neg h]
      constructor
      · rintro ⟨⟩
      · rintro ⟨_, ⟨⟩, -, -, h'⟩
        exact absurd h' h

/-- The letters that mark a string when a quote stands right behind them. -/
def stringMarks : List Char := ['n', 'N', 'e', 'E', 'b', 'B', 'x', 'X']

/-- Where a string starts: a quote, a letter before a quote, or a letter before `&` and a
quote. -/
theorem string?_eq_none_iff {c : Char} {cs : List Char} : string? c cs = none ↔
    c ≠ '\'' ∧ (cs.head? = some '\'' → c ∉ stringMarks) ∧
      ∀ ds, cs = '&' :: ds → ds.head? = some '\'' → c ∉ ['u', 'U'] := by
  by_cases hc : c = '\''
  · subst hc
    simp [string?]
  · simp only [ne_eq, hc, not_false_eq_true, true_and]
    cases cs with
    | nil => simp [string?]
    | cons d ds =>
      by_cases hd : d = '\''
      · subst hd
        simp only [string?, stringMarks, List.head?_cons, List.mem_cons, List.not_mem_nil, or_false,
          Bool.or_eq_true, beq_iff_eq, forall_const]
        grind
      · by_cases hamp : d = '&' ∧ ds.head? = some '\''
        · obtain ⟨rfl, hhead⟩ := hamp
          obtain ⟨es, rfl⟩ := List.head?_eq_some_iff.1 hhead
          by_cases hu : c = 'u' ∨ c = 'U' <;> simp [string?, hu]
        · have hnone : string? c (d :: ds) = none := by
            rw [string?.eq_def]
            split <;> simp_all
          simp only [hnone, List.head?_cons, Option.some.injEq, hd, false_implies, true_and,
            true_iff]
          rintro _ ⟨⟩ hhead
          exact absurd ⟨rfl, hhead⟩ hamp

/-- Where a comment starts: two characters. -/
theorem comment?_eq_none_iff {c : Char} {cs : List Char} : comment? c cs = none ↔
    (c = '-' → cs.head? ≠ some '-') ∧ (c = '/' → cs.head? ≠ some '*') ∧
      (c = '\x7b' → cs.head? ≠ some '#') := by
  rw [comment?.eq_def]
  simp only
  split
  · simp
  · simp
  · simp
  · next c cs h₁ h₂ h₃ =>
    refine ⟨fun _ => ⟨?_, ?_, ?_⟩, fun _ => rfl⟩ <;>
    · rintro rfl hhead
      obtain ⟨ds, rfl⟩ := List.head?_eq_some_iff.1 hhead
      simp_all

theorem kind_of_comment? {c : Char} {cs : List Char} {kind : LexemeKind} {n : Nat}
    (h : comment? c cs = some (.ok (kind, n))) : kind = .comment := by
  rw [comment?.eq_def] at h
  simp only at h
  repeat' split at h
  all_goals simp_all

/-- The strings that are loose text: those with `U&` in front. -/
theorem string?_loose {c : Char} {cs : List Char} {kind : LexemeKind} {n : Nat}
    (h : string? c cs = some (.ok (kind, n))) (hkind : kind ≠ .quoted) :
    ∃ ds k, (c = 'u' ∨ c = 'U') ∧ cs = '&' :: '\'' :: ds ∧
      closingQuote? '\'' false ds = some k ∧ kind = .plain ∧ n = 2 + k := by
  rw [string?.eq_def] at h
  split at h
  · obtain ⟨k, -, hquoted, -⟩ := quotedAfter_eq_ok_iff.1 (Option.some.inj h)
    exact absurd hquoted hkind
  · split at h
    · obtain ⟨k, -, hquoted, -⟩ := quotedAfter_eq_ok_iff.1 (Option.some.inj h)
      exact absurd hquoted hkind
    · split at h
      · obtain ⟨k, -, hquoted, -⟩ := quotedAfter_eq_ok_iff.1 (Option.some.inj h)
        exact absurd hquoted hkind
      · split at h
        · obtain ⟨k, -, hquoted, -⟩ := bitsAfter_eq_ok_iff.1 (Option.some.inj h)
          exact absurd hquoted hkind
        · split at h
          · obtain ⟨k, -, hquoted, -⟩ := bitsAfter_eq_ok_iff.1 (Option.some.inj h)
            exact absurd hquoted hkind
          · simp at h
  · next ds _ =>
    split at h
    · next hc =>
      obtain ⟨k, hk, hplain, hn⟩ := quotedAfter_eq_ok_iff.1 (Option.some.inj h)
      exact ⟨ds, k, by simpa using hc, rfl, hk, hplain, hn⟩
    · simp at h
  · simp at h

/-! ## Tokens of loose text -/

/-- Holds for the kinds of loose text other than white space. -/
def isLoose : LexemeKind → Bool
  | .plain | .parameter | .semicolon | .opening | .command => true
  | .blank | .lineBreak | .comment | .quoted => false

section Respaced

variable {afterParameter : Bool} {c : Char} {cs ds : List Char} {kind : LexemeKind} {n : Nat}

theorem isSpaceOrTab_eq_false {c : Char} (h : isBlank c = false) : isSpaceOrTab c = false := by
  rw [← Bool.not_eq_true]
  intro htab
  rw [isBlank_of_isSpaceOrTab htab] at h
  exact absurd h (by decide)

/-- What stands behind white space or punctuation does not matter for it. -/
theorem next_punctuation (h : isPunctuation c = true) (afterParameter : Bool) (cs : List Char) :
    next afterParameter c cs = .ok (markKind c, 0) := by
  have hblank := isBlank_of_isPunctuation h
  have hstart : StartsOff (c :: cs) := by
    rintro _ ⟨⟩
    rw [isRunChar, h, Bool.not_true, Bool.and_false]
  have hoperator : operator? (c :: cs) = none := by
    rw [← operator?_firstRun, firstRun_of_startsOff hstart]
    decide
  have hstring : string? c cs = none := by
    rw [string?_eq_none_iff]
    simp only [isPunctuation, Bool.or_eq_true, beq_iff_eq] at h
    rcases h with ((rfl | rfl) | rfl) | rfl <;> simp [stringMarks]
  have hcomment : comment? c cs = none := by
    rw [comment?_eq_none_iff]
    simp only [isPunctuation, Bool.or_eq_true, beq_iff_eq] at h
    rcases h with ((rfl | rfl) | rfl) | rfl <;> simp
  have hdigit : c.isDigit = false := by
    rw [← Bool.not_eq_true]
    intro hdigit
    have hrun := hstart c rfl
    rw [isRunChar_of_isDigit hdigit] at hrun
    exact absurd hrun (by decide)
  have hne : (c == '"') = false ∧ (c == '$') = false := by
    simp only [isPunctuation, Bool.or_eq_true, beq_iff_eq] at h
    rcases h with ((rfl | rfl) | rfl) | rfl <;> decide
  simp only [next, isSpaceOrTab_eq_false hblank, hblank, hdigit, hne.1, hne.2, hstring, hcomment,
    hoperator, contains_marks_of_isPunctuation h, Bool.false_eq_true, if_false, if_true]

/-- Where no string starts depends on the run behind the first character only. -/
theorem string?_eq_none_of_firstRun_eq (h : firstRun cs = firstRun ds)
    (hnone : string? c cs = none) : string? c ds = none := by
  rw [string?_eq_none_iff] at hnone ⊢
  obtain ⟨hc, hquote, hamp⟩ := hnone
  refine ⟨hc, fun hhead => hquote (head?_of_firstRun_eq h (by decide) hhead), ?_⟩
  rintro ds' rfl hhead
  obtain ⟨cs', rfl, hrun⟩ := exists_cons_of_firstRun_eq (c := '&') (by decide) h.symm
  exact hamp cs' rfl (head?_of_firstRun_eq (e := '\'') hrun.symm (by decide) hhead)

theorem comment?_eq_none_of_firstRun_eq (h : firstRun cs = firstRun ds)
    (hnone : comment? c cs = none) : comment? c ds = none := by
  rw [comment?_eq_none_iff] at hnone ⊢
  obtain ⟨hline, hblock, hother⟩ := hnone
  exact ⟨fun hc hhead => hline hc (head?_of_firstRun_eq h (by decide) hhead),
    fun hc hhead => hblock hc (head?_of_firstRun_eq h (by decide) hhead),
    fun hc hhead => hother hc (head?_of_firstRun_eq h (by decide) hhead)⟩

/-- A string that is loose text is found again. -/
theorem string?_loose_of_ink_eq (h : ink .joined cs = ink .joined ds)
    (hstring : string? c cs = some (.ok (kind, n))) (hkind : kind ≠ .quoted) :
    ∃ m, string? c ds = some (.ok (kind, m)) ∧ SameHead cs n ds m := by
  obtain ⟨cs, k, hc, rfl, hk, rfl, rfl⟩ := string?_loose hstring hkind
  obtain ⟨ds, rfl, hamp⟩ := exists_cons_of_ink_eq (c := '&') (by decide) h
  obtain ⟨ds, rfl, hink⟩ := exists_cons_of_ink_eq (c := '\'') (by decide) hamp
  obtain ⟨m, hm, hhead⟩ := sameHead_of_closesLike
    (closesLike_of_ink_eq (q := '\'') (by decide) hink hk)
  refine ⟨2 + m, ?_, ?_⟩
  · have hquoted : quotedAfter .plain '\'' false 2 ds = .ok (.plain, 2 + m) :=
      quotedAfter_eq_ok_iff.2 ⟨m, hm, rfl, rfl⟩
    rw [← hquoted]
    rcases hc with rfl | rfl <;> rfl
  · rw [Nat.add_comm 2 k, Nat.add_comm 2 m]
    exact sameHead_cons (by decide) (sameHead_cons (by decide) hhead)

theorem numberLength_eq_of_ink_eq (afterParameter : Bool) (h : ink .joined cs = ink .joined ds) :
    numberLength afterParameter false 0 ds = numberLength afterParameter false 0 cs ∧
      numberLength afterParameter false 0 cs ≤ (firstRun cs).length := by
  rw [← numberLength_firstRun, ← numberLength_firstRun _ _ _ cs, firstRun_eq_of_ink_eq h]
  exact ⟨rfl, numberLength_le ..⟩

theorem operator?_le {m : Nat} (hc : isRunChar c = true) (h : operator? (c :: cs) = some m) :
    m ≤ (firstRun cs).length := by
  rw [← operator?_firstRun, firstRun_cons hc, operator?, Option.map_eq_some_iff] at h
  obtain ⟨op, hop, rfl⟩ := h
  have hprefix := List.isPrefixOf_iff_prefix.1 (List.find?_eq_some_iff_append.1 hop).1
  have hle := hprefix.length_le
  rw [List.length_cons] at hle
  omega

theorem operator?_eq_of_ink_eq (hc : isRunChar c = true) (h : ink .joined cs = ink .joined ds) :
    operator? (c :: ds) = operator? (c :: cs) := by
  rw [← operator?_firstRun, ← operator?_firstRun (c :: cs), firstRun_cons hc, firstRun_cons hc,
    firstRun_eq_of_ink_eq h]

/-- A keyword of several words is found again, with other white space between its words. -/
theorem phrase?_of_ink_eq (hc : isRunChar c = true) (h : ink .joined cs = ink .joined ds) :
    (phrase? (c :: cs) = none ∧ phrase? (c :: ds) = none) ∨
      ∃ n m, phrase? (c :: cs) = some n ∧ phrase? (c :: ds) = some m ∧ SameHead cs n ds m := by
  have hink : ink .joined (c :: cs) = ink .joined (c :: ds) := by
    rw [ink_joined_run hc, ink_joined_run hc, h]
  have hsame := sameRest_dropKeyword? hink
  rw [phrase?_eq_dropKeyword?, phrase?_eq_dropKeyword?]
  cases hcs : dropKeyword? (c :: cs) with
  | none =>
    cases hds : dropKeyword? (c :: ds) with
    | none => exact .inl ⟨rfl, rfl⟩
    | some ds' => simp [hcs, hds, SameRest] at hsame
  | some cs' =>
    cases hds : dropKeyword? (c :: ds) with
    | none => simp [hcs, hds, SameRest] at hsame
    | some ds' =>
      rw [hcs, hds] at hsame
      obtain ⟨w, hw, hend⟩ := dropKeyword?_endsInRun hcs
      obtain ⟨w', hw', hend'⟩ := dropKeyword?_endsInRun hds
      -- the rests have equal ink, and so have the keywords before them
      have hwords : ink .joined w = ink .joined w' := by
        rw [hw, hw', ink_append, ink_append, after_of_endsInRun hend, after_of_endsInRun hend',
          show ink .joined cs' = ink .joined ds' from hsame] at hink
        exact List.append_cancel_right hink
      refine .inr ⟨_, _, rfl, rfl, ?_⟩
      obtain ⟨v, rfl, rfl⟩ := exists_cons_of_endsInRun hend hw
      obtain ⟨v', rfl, rfl⟩ := exists_cons_of_endsInRun hend' hw'
      have hlength : ∀ v r : List Char, (c :: (v ++ r)).length - r.length - 1 = v.length := by
        intro v r
        rw [List.length_cons, List.length_append]
        omega
      simp only [hlength]
      rw [ink_joined_run hc, ink_joined_run hc] at hwords
      exact sameHead_append (isTail_of_endsInRun_cons hend) (isTail_of_endsInRun_cons hend')
        (List.cons.inj hwords).2 cs' ds'

theorem isRunChar_of_isWordChar {c : Char} (h : isWordChar c = true) : isRunChar c = true := by
  rw [isWordChar, Bool.and_eq_true, Bool.not_eq_true'] at h
  rw [isRunChar, h.1, Bool.not_false, Bool.true_and, Bool.not_eq_true', ← Bool.not_eq_true]
  intro hp
  have hmark := contains_marks_of_isPunctuation hp
  rw [hmark, Bool.not_true, Bool.or_false, beq_iff_eq] at h
  rw [h.2] at hp
  exact absurd hp (by decide)

theorem length_takeWhile_isWordChar (cs : List Char) :
    (cs.takeWhile isWordChar).length ≤ (firstRun cs).length := by
  rw [← takeWhile_firstRun fun _ => isRunChar_of_isWordChar]
  exact (List.takeWhile_prefix _).length_le

theorem isLoose_markKind (c : Char) : isLoose (markKind c) = true := by
  rw [markKind]
  split
  · rfl
  · split <;> rfl

theorem isRunChar_of_baseMark (c : Char) (h : ['b', 'B', 'x', 'X'].contains c = true) :
    isRunChar c = true := by
  simp only [List.contains_cons, List.contains_nil, Bool.or_eq_true, beq_iff_eq, Bool.or_false] at h
  rcases h with rfl | rfl | rfl | rfl <;> decide

theorem isLoose_wordKind (afterParameter : Bool) (word : List Char) :
    isLoose (wordKind afterParameter word) = true := by
  rw [wordKind]
  split
  · rfl
  · split
    · rfl
    · split <;> rfl

/-- A number that is loose text is found again. -/
theorem number_of_ink_eq (h : ink .joined cs = ink .joined ds)
    (hnumber : number afterParameter c cs = (kind, n)) (hkind : kind ≠ .quoted) :
    ∃ m, number afterParameter c ds = (kind, m) ∧ SameHead cs n ds m := by
  -- the mark of another base stands in the first run
  rw [number, ← head?_firstRun_any isRunChar_of_baseMark] at hnumber ⊢
  rw [← firstRun_eq_of_ink_eq h]
  by_cases hbase : (c == '0' && (firstRun cs).head?.any ['b', 'B', 'x', 'X'].contains) = true
  · rw [if_pos hbase] at hnumber
    exact absurd (Prod.mk.inj hnumber).1.symm hkind
  · rw [if_neg hbase] at hnumber ⊢
    obtain ⟨rfl, rfl⟩ := Prod.mk.inj hnumber
    obtain ⟨hlength, hle⟩ := numberLength_eq_of_ink_eq afterParameter h
    refine ⟨_, rfl, ?_⟩
    rw [hlength]
    exact sameHead_of_le h hle

/-- A word is found again, letter by letter. -/
theorem word_of_ink_eq (h : ink .joined cs = ink .joined ds)
    (hn : n = (cs.takeWhile isWordChar).length) :
    (ds.takeWhile isWordChar).length = n ∧ cs.take n = ds.take n ∧ SameHead cs n ds n := by
  have hle := length_takeWhile_isWordChar cs
  rw [← hn] at hle
  refine ⟨?_, (take_of_ink_eq h hle).1, sameHead_of_le h hle⟩
  rw [hn, ← takeWhile_firstRun fun _ => isRunChar_of_isWordChar,
    ← takeWhile_firstRun (fun _ => isRunChar_of_isWordChar) cs, firstRun_eq_of_ink_eq h]

/-- A token of loose text is found again in a text with the same ink. -/
theorem next_of_ink_eq_run (hc : isRunChar c = true) (hdollar : c ≠ '$')
    (h : ink .joined cs = ink .joined ds) (hnext : next afterParameter c cs = .ok (kind, n))
    (hloose : isLoose kind = true) :
    ∃ m, next afterParameter c ds = .ok (kind, m) ∧ SameHead cs n ds m := by
  have hcomment : kind ≠ .comment := by
    rintro rfl
    exact absurd hloose (by decide)
  have hquoted : kind ≠ .quoted := by
    rintro rfl
    exact absurd hloose (by decide)
  have hblank := isBlank_of_isRunChar hc
  have htab := isSpaceOrTab_eq_false hblank
  simp only [next, htab, hblank, Bool.false_eq_true, if_false] at hnext ⊢
  by_cases hdigit : c.isDigit = true
  · rw [if_pos hdigit] at hnext ⊢
    obtain ⟨m, hm, hhead⟩ := number_of_ink_eq h (Except.ok.inj hnext) hquoted
    exact ⟨m, congrArg Except.ok hm, hhead⟩
  rw [if_neg hdigit] at hnext ⊢
  by_cases hidentifier : (c == '"') = true
  · rw [if_pos hidentifier] at hnext
    obtain ⟨k, -, hkind, -⟩ := quotedAfter_eq_ok_iff.1 hnext
    exact absurd hkind hquoted
  rw [if_neg hidentifier] at hnext ⊢
  cases hstring : string? c cs with
  | some result =>
    rw [hstring] at hnext
    obtain rfl : result = .ok (kind, n) := hnext
    obtain ⟨m, hm, hhead⟩ := string?_loose_of_ink_eq h hstring hquoted
    exact ⟨m, by rw [hm], hhead⟩
  | none =>
    have hdollar' : ¬ (c == '$') = true := by simpa using hdollar
    simp only [hstring, string?_eq_none_of_firstRun_eq (firstRun_eq_of_ink_eq h) hstring,
      if_neg hdollar'] at hnext ⊢
    cases hcomment? : comment? c cs with
    | some result =>
      rw [hcomment?] at hnext
      obtain rfl : result = .ok (kind, n) := hnext
      exact absurd (kind_of_comment? hcomment?) hcomment
    | none =>
      simp only [hcomment?, comment?_eq_none_of_firstRun_eq (firstRun_eq_of_ink_eq h) hcomment?,
        operator?_eq_of_ink_eq hc h] at hnext ⊢
      cases hoperator : operator? (c :: cs) with
      | some k =>
        simp only [hoperator, Except.ok.injEq, Prod.mk.injEq] at hnext ⊢
        obtain ⟨rfl, rfl⟩ := hnext
        exact ⟨k, ⟨rfl, rfl⟩, sameHead_of_le h (operator?_le hc hoperator)⟩
      | none =>
        simp only [hoperator] at hnext ⊢
        by_cases hmark : marks.contains c = true
        · rw [if_pos hmark] at hnext ⊢
          obtain ⟨rfl, rfl⟩ := Prod.mk.inj (Except.ok.inj hnext)
          exact ⟨0, rfl, sameHead_zero cs ds⟩
        · rw [if_neg hmark] at hnext ⊢
          obtain ⟨hcs, hds⟩ | ⟨k, m, hcs, hds, hhead⟩ := phrase?_of_ink_eq hc h
          · simp only [hcs, hds] at hnext ⊢
            obtain ⟨hlength, htake, hhead⟩ := word_of_ink_eq h rfl
            rw [hlength, ← htake]
            obtain ⟨rfl, rfl⟩ := Prod.mk.inj (Except.ok.inj hnext)
            exact ⟨_, rfl, hhead⟩
          · simp only [hcs, hds] at hnext ⊢
            obtain ⟨rfl, rfl⟩ := Prod.mk.inj (Except.ok.inj hnext)
            exact ⟨m, rfl, hhead⟩

/-- A token of loose text is found again in a text with the same ink. -/
theorem next_of_ink_eq (hc : isBlank c = false) (hdollar : c ≠ '$')
    (h : ink (.behind c) cs = ink (.behind c) ds)
    (hnext : next afterParameter c cs = .ok (kind, n)) (hloose : isLoose kind = true) :
    ∃ m, next afterParameter c ds = .ok (kind, m) ∧ SameHead cs n ds m := by
  by_cases hp : isPunctuation c = true
  · rw [next_punctuation hp] at hnext ⊢
    obtain ⟨rfl, rfl⟩ := Prod.mk.inj (Except.ok.inj hnext)
    exact ⟨0, rfl, sameHead_zero cs ds⟩
  · have hrun : isRunChar c = true := by simp [isRunChar, hc, hp]
    rw [behind_of_isRunChar hrun] at h
    exact next_of_ink_eq_run hrun hdollar h hnext hloose

end Respaced

end PgSchema.Sql.Lexeme
