/-
# Words and plain names

A plain name is a word of letters, digits and underscores.  The tokenizer reads such a word as one
token, unless a keyword of several words starts with it.

* `isAsciiName` : plain names;
* `phrase?_append_eq_none`, `phrase?_name_eq_none` : words that start no keyword of several words;
* `scanFrom_name` : the token of such a word.
-/
import Mathlib.Data.List.Basic
import PgSchema.Proofs.Sql.Token
import PgSchema.Proofs.Text.Span

namespace PgSchema.Sql

open Text

/-! ## Plain names -/

/-- Holds for the letters of the English alphabet, the digits and the underscore. -/
def isNameChar (c : Char) : Bool := c.isAlphanum || c == '_'

/-- Holds for a word of such characters that starts with no digit. -/
def isAsciiWord : List Char → Bool
  | [] => false
  | c :: cs => !c.isDigit && (c :: cs).all isNameChar

/-- Holds for a name that is such a word. -/
def isAsciiName (name : String) : Bool := isAsciiWord name.toList

theorem of_isAsciiWord {cs : List Char} (h : isAsciiWord cs = true) :
    ∃ c ds, cs = c :: ds ∧ c.isDigit = false ∧ ∀ d ∈ c :: ds, isNameChar d = true := by
  cases cs with
  | nil => cases h
  | cons c ds =>
    rw [isAsciiWord, Bool.and_eq_true, Bool.not_eq_true', List.all_eq_true] at h
    exact ⟨c, ds, rfl, h.1, h.2⟩

theorem toNat_lt_of_isNameChar {c : Char} (hc : isNameChar c = true) : c.toNat < 128 := by
  rw [isNameChar, Bool.or_eq_true, beq_iff_eq] at hc
  rcases hc with hc | rfl
  · change (decide (65 ≤ c.val ∧ c.val ≤ 90) || decide (97 ≤ c.val) && decide (c.val ≤ 122)
      || decide (48 ≤ c.val) && decide (c.val ≤ 57)) = true at hc
    simp only [Bool.or_eq_true, Bool.and_eq_true, decide_eq_true_eq, UInt32.le_iff_toNat_le] at hc
    change ((65 ≤ c.toNat ∧ c.toNat ≤ 90) ∨ (97 ≤ c.toNat ∧ c.toNat ≤ 122)) ∨
      (48 ≤ c.toNat ∧ c.toNat ≤ 57) at hc
    omega
  · decide

/-- What holds for the characters of names among the ASCII characters holds for all of them. -/
theorem of_isNameChar {p : Char → Bool}
    (h : (List.range 128).all (fun n => !isNameChar (Char.ofNat n) || p (Char.ofNat n)) = true)
    {c : Char} (hc : isNameChar c = true) : p c = true := by
  have hp := List.all_eq_true.1 h c.toNat (List.mem_range.2 (toNat_lt_of_isNameChar hc))
  rw [Char.ofNat_toNat, hc] at hp
  simpa using hp

namespace Lexeme

theorem isRunChar_of_isNameChar {c : Char} (hc : isNameChar c = true) : isRunChar c = true :=
  of_isNameChar (by decide) hc

theorem isWordChar_of_isNameChar {c : Char} (hc : isNameChar c = true) : isWordChar c = true :=
  of_isNameChar (by decide) hc

theorem isBlank_of_isNameChar {c : Char} (hc : isNameChar c = true) : isBlank c = false :=
  isBlank_of_isRunChar (isRunChar_of_isNameChar hc)

theorem notMem_marks_of_isNameChar {c : Char} (hc : isNameChar c = true) :
    marks.contains c = false := by
  have hmark := @of_isNameChar (!marks.contains ·) (by decide) c hc
  simpa using hmark

theorem ne_of_isNameChar {c d : Char} (hc : isNameChar c = true) (hd : isNameChar d = false) :
    c ≠ d := by
  rintro rfl
  rw [hc] at hd
  cases hd

/-! ## Keywords of several words -/

/-- A word that differs from the start of a text is not found in it. -/
theorem dropWord?_append_eq_none {word : List Char} (start : List Char)
    (h : dropWord? (word.take start.length) start = none) (cs : List Char) :
    dropWord? word (start ++ cs) = none := by
  induction start generalizing word with
  | nil => simp [dropWord?] at h
  | cons c start ih =>
    cases word with
    | nil => simp [dropWord?] at h
    | cons w word =>
      rw [List.length_cons, List.take_succ_cons, dropWord?] at h
      rw [List.cons_append, dropWord?]
      split
      · next hc =>
        rw [if_pos hc] at h
        exact ih h
      · rfl

theorem phrase?_eq_none {cs : List Char} (hhyphenated : dropWord? hyphenated cs = none)
    (hphrases : ∀ words ∈ phrases, dropPhrase? words cs = none) : phrase? cs = none := by
  rw [phrase?, List.findSome?_eq_none_iff.2 hphrases, hhyphenated]
  rfl

/-- Holds when no word among `words` starts as a text does. -/
def differsFrom (words : List (List Char)) (start : List Char) : Bool :=
  words.all fun word => (dropWord? (word.take start.length) start).isNone

theorem dropWord?_of_differsFrom {words : List (List Char)} {start : List Char}
    (h : differsFrom words start = true) {word : List Char} (hmem : word ∈ words)
    (cs : List Char) : dropWord? word (start ++ cs) = none :=
  dropWord?_append_eq_none start (Option.isNone_iff_eq_none.1 (List.all_eq_true.1 h word hmem)) cs

/-- The first words of the keywords of several words. -/
def firstWords : List (List Char) := hyphenated :: phrases.filterMap List.head?

/-- The other words of the keywords of several words. -/
def secondWords : List (List Char) := phrases.flatMap List.tail

/-- A text whose start no keyword of several words shares starts with none. -/
theorem phrase?_append_eq_none {start : List Char} (h : differsFrom firstWords start = true)
    (cs : List Char) : phrase? (start ++ cs) = none := by
  have hword : ∀ word ∈ firstWords, dropWord? word (start ++ cs) = none := fun word hmem =>
    dropWord?_of_differsFrom h hmem cs
  refine phrase?_eq_none (hword _ List.mem_cons_self) fun words hwords => ?_
  obtain ⟨hne, -⟩ := arePhrase_of_mem_phrases words hwords
  cases words with
  | nil => exact absurd rfl hne
  | cons word words =>
    have hfirst := hword word (List.mem_cons_of_mem _ (List.mem_filterMap.2 ⟨_, hwords, rfl⟩))
    cases words with
    | nil => exact hfirst
    | cons word' words => rw [dropPhrase?_cons_cons, hfirst, Option.bind_none]

/-- A word that needs a character is not found in a text that ends before a space without it. -/
theorem dropWord?_space_eq_none {word w : List Char} {x : Char} (hx : x ∈ word)
    (hw : ∀ c ∈ w, (upperChar c == [x]) = false) (hspace : ' ' ∉ word) (cs : List Char) :
    dropWord? word (w ++ ' ' :: cs) = none := by
  -- on the text before the space: the word may match it, but `x` is still to come
  induction w generalizing word with
  | nil =>
    cases word with
    | nil => cases hx
    | cons y word =>
      have hne : (upperChar ' ' == [y]) = false := by
        have hupper : upperChar ' ' = [' '] := upperChar_of_isRunChar_eq_false (by decide)
        rw [hupper, beq_eq_false_iff_ne]
        intro heq
        exact hspace ((List.cons.inj heq).1 ▸ List.mem_cons_self)
      rw [List.nil_append, dropWord?, hne]
      rfl
  | cons c w ih =>
    obtain ⟨hc, htail⟩ := List.forall_mem_cons.1 hw
    cases word with
    | nil => cases hx
    | cons y word =>
      rw [List.cons_append, dropWord?]
      split
      · next hy =>
        have hrest : x ∈ word := by
          rcases List.mem_cons.1 hx with rfl | hrest
          · rw [hc] at hy
            cases hy
          · exact hrest
        exact ih hrest htail fun hmem => hspace (List.mem_cons_of_mem y hmem)
      · rfl

/-- A name starts no keyword of several words if no second word of these starts as the text
behind it. -/
theorem phrase?_name_eq_none {w : List Char} (hw : ∀ c ∈ w, isNameChar c = true) {e : Char}
    (he : isBlank e = false) (h : differsFrom secondWords [e] = true) (cs : List Char) :
    phrase? (w ++ ' ' :: e :: cs) = none := by
  have hupper : ∀ c ∈ w, (upperChar c == ['-']) = false := fun c hc => by
    have hp := @of_isNameChar (fun c => !(upperChar c == ['-'])) (by decide) c (hw c hc)
    rwa [Bool.not_eq_true'] at hp
  have htwo : phrases.all (·.length == 2) = true := by decide
  refine phrase?_eq_none (dropWord?_space_eq_none (by decide) hupper (by decide) _)
    fun words hwords => ?_
  obtain ⟨word, word', rfl⟩ :=
    List.length_eq_two.1 (by simpa using List.all_eq_true.1 htwo _ hwords)
  obtain ⟨-, hrun⟩ := arePhrase_of_mem_phrases _ hwords
  rw [dropPhrase?_cons_cons]
  cases hdrop : dropWord? word (w ++ ' ' :: e :: cs) with
  | none => rfl
  | some rest =>
    obtain ⟨v, hsplit, -, hv⟩ := dropWord?_eq_some (hrun word List.mem_cons_self).2 hdrop
    rw [Option.bind_some]
    cases rest with
    | nil => rfl
    | cons b rest =>
      rw [dropApart?]
      split
      · next hb =>
        -- the first word ends where the name does
        have hname := dropWhile_append_cons (fun c hc => isRunChar_of_isNameChar (hw c hc))
          (by decide : isRunChar ' ' = false) (e :: cs)
        have hfirst := dropWhile_append_cons (List.all_eq_true.1 hv)
          (by rw [isRunChar, hb]; rfl : isRunChar b = false) rest
        rw [hsplit, hfirst] at hname
        obtain ⟨-, rfl⟩ := List.cons.inj hname
        rw [List.dropWhile_cons_of_neg (by simp [he])]
        exact dropWord?_of_differsFrom h
          (List.mem_flatMap.2 ⟨_, hwords, List.mem_cons_self⟩) cs
      · rfl

/-! ## Tokens -/

theorem operator?_name_eq_none {c : Char} (hc : isNameChar c = true) (cs : List Char) :
    operator? (c :: cs) = none := by
  have hmarks : operators.all (fun op => op.head?.any marks.contains) = true := by decide
  rw [operator?, Option.map_eq_none_iff, List.find?_eq_none]
  intro op hop hprefix
  have hhead := List.all_eq_true.1 hmarks op hop
  cases op with
  | nil => cases hhead
  | cons d op =>
    obtain ⟨rfl, -⟩ := List.cons_prefix_cons.1 (List.isPrefixOf_iff_prefix.1 hprefix)
    have hmark : marks.contains d = true := hhead
    rw [notMem_marks_of_isNameChar hc] at hmark
    cases hmark

/-- A word of a name is one token, unless a keyword of several words starts with it. -/
theorem next_name {c d : Char} {w rest : List Char} (hdigit : c.isDigit = false)
    (hw : ∀ e ∈ c :: w, isNameChar e = true) (hd : d = ' ' ∨ d = ';')
    (hphrase : phrase? (c :: (w ++ d :: rest)) = none) :
    next false c (w ++ d :: rest) = .ok (wordKind false (c :: w), w.length) := by
  obtain ⟨hc, htail⟩ := List.forall_mem_cons.1 hw
  -- a letter starts a string only before a quote or an ampersand
  have hhead : ∀ x, (w ++ d :: rest).head? = some x → x ≠ '\'' ∧ x ≠ '&' := by
    intro x hx
    cases w with
    | nil =>
      obtain rfl : d = x := Option.some.inj hx
      rcases hd with rfl | rfl <;> decide
    | cons e w =>
      obtain rfl : e = x := Option.some.inj hx
      exact ⟨ne_of_isNameChar (htail e List.mem_cons_self) (by decide),
        ne_of_isNameChar (htail e List.mem_cons_self) (by decide)⟩
  have hstring : string? c (w ++ d :: rest) = none := by
    refine string?_eq_none_iff.2 ⟨ne_of_isNameChar hc (by decide), fun h => ?_, fun ds h => ?_⟩
    · exact absurd rfl (hhead _ h).1
    · rw [h] at hhead
      exact absurd rfl (hhead _ rfl).2
  have hcomment : comment? c (w ++ d :: rest) = none := by
    refine comment?_eq_none_iff.2 ⟨fun h => ?_, fun h => ?_, fun h => ?_⟩
    all_goals exact absurd h (ne_of_isNameChar hc (by decide))
  have hrun := isRunChar_of_isNameChar hc
  have hspan : (w ++ d :: rest).takeWhile isWordChar = w :=
    takeWhile_append_cons (fun e he => isWordChar_of_isNameChar (htail e he))
      (by rcases hd with rfl | rfl <;> decide) rest
  have hquote : (c == '"') = false := beq_eq_false_iff_ne.2 (ne_of_isNameChar hc (by decide))
  have hdollar : (c == '$') = false := beq_eq_false_iff_ne.2 (ne_of_isNameChar hc (by decide))
  have hblank := isBlank_of_isNameChar hc
  simp only [next, isSpaceOrTab_eq_false hblank, hblank, hdigit, hquote, hstring, hdollar, hcomment,
    operator?_name_eq_none hc, notMem_marks_of_isNameChar hc, hphrase, hspan, List.take_left,
    Bool.false_eq_true, if_false]

/-- No word is a parameter mark. -/
theorem wordKind_cases (word : List Char) : wordKind false word = .plain ∨
    wordKind false word = .opening ∨ wordKind false word = .command := by
  simp only [wordKind, Bool.false_eq_true, if_false]
  split
  · exact .inr (.inr rfl)
  · split
    · exact .inr (.inl rfl)
    · exact .inl rfl

theorem scanFrom_name {c d : Char} {w rest : List Char} {ℓs : List Lexeme}
    (hdigit : c.isDigit = false) (hw : ∀ e ∈ c :: w, isNameChar e = true) (hd : d = ' ' ∨ d = ';')
    (hphrase : phrase? (c :: (w ++ d :: rest)) = none)
    (h : scanFrom false 0 (d :: rest) = .ok ℓs) :
    scanFrom false 0 (c :: (w ++ d :: rest)) = .ok (⟨wordKind false (c :: w), c :: w⟩ :: ℓs) := by
  refine scanFrom_cons_eq_ok_iff.2
    ⟨wordKind false (c :: w), w.length, ℓs, next_name hdigit hw hd hphrase, ?_, ?_⟩
  · have hkind : LexemeKind.afterParameter false (wordKind false (c :: w)) = false := by
      rcases wordKind_cases (c :: w) with hkind | hkind | hkind <;> rw [hkind] <;> rfl
    rw [hkind, List.drop_left]
    exact h
  · rw [List.take_left]

theorem scanFrom_space {rest : List Char} {ℓs : List Lexeme}
    (hrest : ∀ e, rest.head? = some e → isBlank e = false)
    (h : scanFrom false 0 rest = .ok ℓs) :
    scanFrom false 0 (' ' :: rest) = .ok (⟨.blank, [' ']⟩ :: ℓs) := by
  refine scanFrom_cons_eq_ok_iff.2 ⟨.blank, 0, ℓs, ?_, h, rfl⟩
  have hspan : rest.takeWhile isSpaceOrTab = [] := by
    cases rest with
    | nil => rfl
    | cons e rest =>
      rw [List.takeWhile_cons_of_neg (by simp [isSpaceOrTab_eq_false (hrest e rfl)])]
  rw [next_of_isBlank (by decide), hspan]
  rfl

/-- The tokens of words, each with a space behind it. -/
def wordLexemes (ws : List (List Char)) : List Lexeme :=
  ws.flatMap fun w => [⟨wordKind false w, w⟩, ⟨.blank, [' ']⟩]

/-- Words that start no keyword of several words are tokens of their own. -/
theorem scanFrom_words {ws : List (List Char)}
    (hws : ∀ w ∈ ws, isAsciiWord w = true ∧ differsFrom firstWords (w ++ [' ']) = true)
    {rest : List Char} {ℓs : List Lexeme} (hrest : ∀ e, rest.head? = some e → isBlank e = false)
    (h : scanFrom false 0 rest = .ok ℓs) :
    scanFrom false 0 (ws.flatMap (· ++ [' ']) ++ rest) = .ok (wordLexemes ws ++ ℓs) := by
  induction ws with
  | nil => exact h
  | cons w ws ih =>
    obtain ⟨⟨hword, hdiffers⟩, htail⟩ := List.forall_mem_cons.1 hws
    obtain ⟨c, cs, rfl, hdigit, hchars⟩ := of_isAsciiWord hword
    -- the next word or the rest ends the white space
    have hhead : ∀ e, (ws.flatMap (· ++ [' ']) ++ rest).head? = some e → isBlank e = false := by
      cases ws with
      | nil => exact hrest
      | cons v ws =>
        obtain ⟨d, ds, rfl, -, hds⟩ := of_isAsciiWord (htail _ List.mem_cons_self).1
        intro e he
        obtain rfl := Option.some.inj he
        exact isBlank_of_isNameChar (hds d List.mem_cons_self)
    have hsplit : ((c :: cs) :: ws).flatMap (· ++ [' ']) ++ rest =
        c :: (cs ++ ' ' :: (ws.flatMap (· ++ [' ']) ++ rest)) := by
      simp
    rw [hsplit]
    refine scanFrom_name hdigit hchars (.inl rfl) ?_ (scanFrom_space hhead (ih htail))
    have hphrase := phrase?_append_eq_none hdiffers (ws.flatMap (· ++ [' ']) ++ rest)
    rwa [List.append_assoc] at hphrase

end Lexeme
end PgSchema.Sql
