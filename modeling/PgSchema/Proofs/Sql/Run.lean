/-
# Runs

Which lexeme starts at a character depends on the run of characters up to the next white space
or punctuation, and for keywords of several words on the ink of what follows.  So texts with
equal ink start with the same numbers, operators, words and keywords.

* `firstRun_eq_of_ink_eq` : texts with equal ink start with the same run;
* `take_of_ink_eq` : they start with the same characters of it;
* `sameRest_dropKeyword?` : behind the same keyword of several words their rests have equal ink.
-/
import PgSchema.Proofs.Layout.Glyph
import PgSchema.Proofs.Sql.Lexeme

namespace PgSchema.Sql.Lexeme

open Text Layout

/-! ## Runs -/

/-- Holds for the characters other than white space and punctuation. -/
def isRunChar (c : Char) : Bool := !isBlank c && !isPunctuation c

/-- The characters at the start of a text up to white space or punctuation. -/
def firstRun (cs : List Char) : List Char := cs.takeWhile isRunChar

theorem isBlank_of_isRunChar {c : Char} (h : isRunChar c = true) : isBlank c = false := by
  rw [isRunChar, Bool.and_eq_true] at h
  simpa using h.1

theorem behind_of_isRunChar {c : Char} (h : isRunChar c = true) : Joint.behind c = .joined := by
  rw [isRunChar, Bool.and_eq_true, Bool.not_eq_true', Bool.not_eq_true'] at h
  rw [Joint.behind, h.2]
  rfl

theorem ink_joined_run {c : Char} (h : isRunChar c = true) (cs : List Char) :
    ink .joined (c :: cs) = (false, c) :: ink .joined cs := by
  rw [ink_cons (isBlank_of_isRunChar h), behind_of_isRunChar h]
  rfl

/-- Behind white space a run starts with a parted stroke. -/
theorem ink_parted_ne {c : Char} (h : isRunChar c = true) (cs : List Char)
    (strokes : List (Bool × Char)) : ink .parted cs ≠ (false, c) :: strokes := by
  rw [isRunChar, Bool.and_eq_true, Bool.not_eq_true', Bool.not_eq_true'] at h
  induction cs with
  | nil => simp
  | cons d cs ih =>
    by_cases hd : isBlank d = true
    · rw [ink_cons_blank hd]
      exact ih
    · rw [Bool.not_eq_true] at hd
      rw [ink_cons hd]
      intro heq
      obtain ⟨hflag, rfl⟩ := Prod.mk.inj (List.cons.inj heq).1
      simp [h.2] at hflag

theorem exists_cons_of_ink_eq {c : Char} {cs ds : List Char} (hc : isRunChar c = true)
    (h : ink .joined (c :: cs) = ink .joined ds) :
    ∃ ds', ds = c :: ds' ∧ ink .joined cs = ink .joined ds' := by
  rw [ink_joined_run hc] at h
  cases ds with
  | nil => simp at h
  | cons d ds =>
    by_cases hd : isBlank d = true
    · rw [ink_cons_blank hd] at h
      exact absurd h.symm (ink_parted_ne hc ds _)
    · rw [Bool.not_eq_true] at hd
      rw [ink_cons hd] at h
      obtain ⟨hflag, hrest⟩ := List.cons.inj h
      obtain ⟨-, rfl⟩ := Prod.mk.inj hflag
      rw [behind_of_isRunChar hc] at hrest
      exact ⟨ds, rfl, hrest⟩

/-- Holds for a text that does not start with a run. -/
def StartsOff (cs : List Char) : Prop := ∀ c, cs.head? = some c → isRunChar c = false

theorem startsOff_of_ink_eq {cs ds : List Char} (h : ink .joined cs = ink .joined ds)
    (hcs : StartsOff cs) : StartsOff ds := by
  intro d hd
  rw [← Bool.not_eq_true]
  intro hrun
  obtain ⟨ds, rfl⟩ := List.head?_eq_some_iff.1 hd
  obtain ⟨cs', rfl, -⟩ := exists_cons_of_ink_eq hrun h.symm
  rw [hcs d rfl] at hrun
  exact absurd hrun (by decide)

/-- Texts with equal ink start with the same character of a run, or neither starts with one. -/
theorem run_cases {cs ds : List Char} (h : ink .joined cs = ink .joined ds) :
    (∃ c cs' ds', isRunChar c = true ∧ cs = c :: cs' ∧ ds = c :: ds' ∧
      ink .joined cs' = ink .joined ds') ∨ StartsOff cs ∧ StartsOff ds := by
  cases cs with
  | nil => exact .inr ⟨by simp [StartsOff], startsOff_of_ink_eq h (by simp [StartsOff])⟩
  | cons c cs =>
    by_cases hc : isRunChar c = true
    · obtain ⟨ds', rfl, hink⟩ := exists_cons_of_ink_eq hc h
      exact .inl ⟨c, cs, ds', hc, rfl, rfl, hink⟩
    · have hoff : StartsOff (c :: cs) := by
        rintro _ ⟨⟩
        simpa using hc
      exact .inr ⟨hoff, startsOff_of_ink_eq h hoff⟩

theorem firstRun_of_startsOff {cs : List Char} (h : StartsOff cs) : firstRun cs = [] := by
  cases cs with
  | nil => rfl
  | cons c cs => rw [firstRun, List.takeWhile_cons_of_neg (by simp [h c rfl])]

theorem firstRun_cons {c : Char} (h : isRunChar c = true) (cs : List Char) :
    firstRun (c :: cs) = c :: firstRun cs :=
  List.takeWhile_cons_of_pos h

/-- A text that starts with the run of another one starts with the first character of that run. -/
theorem exists_cons_of_firstRun_eq {c : Char} (hc : isRunChar c = true) {cs ds : List Char}
    (h : firstRun (c :: cs) = firstRun ds) :
    ∃ ds', ds = c :: ds' ∧ firstRun cs = firstRun ds' := by
  rw [firstRun_cons hc] at h
  cases ds with
  | nil => cases h
  | cons d ds =>
    by_cases hd : isRunChar d = true
    · rw [firstRun_cons hd] at h
      obtain ⟨rfl, htail⟩ := List.cons.inj h
      exact ⟨ds, rfl, htail⟩
    · have hoff : StartsOff (d :: ds) := by
        rintro _ ⟨⟩
        exact Bool.eq_false_iff.2 hd
      rw [firstRun_of_startsOff hoff] at h
      cases h

theorem head?_of_firstRun_eq {cs ds : List Char} (h : firstRun cs = firstRun ds) {e : Char}
    (he : isRunChar e = true) (hds : ds.head? = some e) : cs.head? = some e := by
  obtain ⟨ds, rfl⟩ := List.head?_eq_some_iff.1 hds
  obtain ⟨cs', rfl, -⟩ := exists_cons_of_firstRun_eq he h.symm
  rfl

/-- Texts with equal ink start with the same run. -/
theorem firstRun_eq_of_ink_eq {cs ds : List Char} (h : ink .joined cs = ink .joined ds) :
    firstRun cs = firstRun ds := by
  induction cs generalizing ds with
  | nil =>
    obtain ⟨c, cs', ds', -, hcs, -⟩ | ⟨hcs, hds⟩ := run_cases h
    · simp at hcs
    · rw [firstRun_of_startsOff hcs, firstRun_of_startsOff hds]
  | cons c cs ih =>
    obtain ⟨c', cs', ds', hc, hcs, rfl, hink⟩ | ⟨hcs, hds⟩ := run_cases h
    · obtain ⟨rfl, rfl⟩ := List.cons.inj hcs
      rw [firstRun_cons hc, firstRun_cons hc, ih hink]
    · rw [firstRun_of_startsOff hcs, firstRun_of_startsOff hds]

/-! ## What a run decides -/

/-- A class of characters in runs is read off the first run. -/
theorem takeWhile_firstRun {p : Char → Bool} (hp : ∀ c, p c = true → isRunChar c = true)
    (cs : List Char) : (firstRun cs).takeWhile p = cs.takeWhile p := by
  induction cs with
  | nil => rfl
  | cons c cs ih =>
    by_cases hc : isRunChar c = true
    · rw [firstRun_cons hc, List.takeWhile_cons, List.takeWhile_cons, ih]
    · have hc' : p c = false := by
        rw [← Bool.not_eq_true]
        exact fun h => hc (hp c h)
      rw [firstRun, List.takeWhile_cons_of_neg hc, List.takeWhile_cons_of_neg (by simp [hc'])]
      rfl

theorem isPrefixOf_firstRun {w : List Char} (hw : w.all isRunChar = true) (cs : List Char) :
    w.isPrefixOf (firstRun cs) = w.isPrefixOf cs := by
  induction w generalizing cs with
  | nil => rfl
  | cons x w ih =>
    rw [List.all_cons, Bool.and_eq_true] at hw
    cases cs with
    | nil => rfl
    | cons c cs =>
      by_cases hc : isRunChar c = true
      · rw [firstRun_cons hc]
        exact congrArg (x == c && ·) (ih hw.2 cs)
      · have hx : (x == c) = false := by
          rw [beq_eq_false_iff_ne]
          rintro rfl
          exact hc hw.1
        rw [firstRun_of_startsOff (by rintro _ ⟨⟩; simpa using hc)]
        simp [List.isPrefixOf, hx]

theorem all_isRunChar_of_mem_operators : ∀ op ∈ operators, op.all isRunChar = true := by
  decide

theorem operator?_firstRun (cs : List Char) : operator? (firstRun cs) = operator? cs := by
  have hfind : ∀ ops : List (List Char), (∀ op ∈ ops, op.all isRunChar = true) →
      ops.find? (fun op => op.isPrefixOf (firstRun cs)) = ops.find? fun op => op.isPrefixOf cs := by
    intro ops hops
    induction ops with
    | nil => rfl
    | cons op ops ih =>
      obtain ⟨hop, htail⟩ := List.forall_mem_cons.1 hops
      rw [List.find?_cons, List.find?_cons, isPrefixOf_firstRun hop, ih htail]
  rw [operator?, operator?, hfind operators all_isRunChar_of_mem_operators]

theorem beq_eq_false_of_isRunChar {c d : Char} (hc : isRunChar c = false)
    (hd : isRunChar d = true) : (c == d) = false := by
  rw [beq_eq_false_iff_ne]
  rintro rfl
  rw [hc] at hd
  exact absurd hd (by decide)

theorem isRunChar_of_isDigit {c : Char} (h : c.isDigit = true) : isRunChar c = true := by
  have hdigit : isDecimalDigit c = true := by
    rw [isDecimalDigit, Number.digitValue?_of_isDigit h]
    rfl
  have hpunct : isPunctuation c = false := by
    rw [← Bool.not_eq_true]
    intro hp
    simp only [isPunctuation, Bool.or_eq_true, beq_iff_eq] at hp
    rcases hp with ((rfl | rfl) | rfl) | rfl <;> exact absurd h (by decide)
  rw [isRunChar, isBlank_of_isDecimalDigit hdigit, hpunct]
  rfl

theorem head?_firstRun_any {p : Char → Bool} (hp : ∀ c, p c = true → isRunChar c = true)
    (cs : List Char) : (firstRun cs).head?.any p = cs.head?.any p := by
  cases cs with
  | nil => rfl
  | cons c cs =>
    by_cases hc : isRunChar c = true
    · rw [firstRun_cons hc]
      rfl
    · have hc' : p c = false := by
        rw [← Bool.not_eq_true]
        exact fun h => hc (hp c h)
      rw [firstRun_of_startsOff (by rintro _ ⟨⟩; simpa using hc)]
      simp [hc']

/-- The further length of a number is read off the first run. -/
theorem numberLength_firstRun (afterParameter point : Bool) (exponentMarks : Nat)
    (cs : List Char) : numberLength afterParameter point exponentMarks (firstRun cs) =
      numberLength afterParameter point exponentMarks cs := by
  induction cs generalizing point exponentMarks with
  | nil => rfl
  | cons c cs ih =>
    by_cases hc : isRunChar c = true
    · rw [firstRun_cons hc]
      simp only [numberLength, ih, head?_firstRun_any (fun _ => isRunChar_of_isDigit)]
    · -- neither white space nor punctuation belongs to a number
      have hne : ∀ d, isRunChar d = true → (c == d) = false :=
        fun d => beq_eq_false_of_isRunChar (by simpa using hc)
      have hdigit : c.isDigit = false := by
        rw [← Bool.not_eq_true]
        exact fun h => hc (isRunChar_of_isDigit h)
      rw [firstRun_of_startsOff (by rintro _ ⟨⟩; simpa using hc), numberLength, numberLength,
        hdigit, hne '.' (by decide), hne '-' (by decide), hne '+' (by decide),
        hne 'e' (by decide), hne 'E' (by decide)]
      rfl

theorem numberLength_le (afterParameter point : Bool) (exponentMarks : Nat) (cs : List Char) :
    numberLength afterParameter point exponentMarks cs ≤ cs.length := by
  fun_induction numberLength afterParameter point exponentMarks cs <;>
    simp only [List.length_cons, List.length_nil] <;> omega

/-- Texts with equal ink start with the same characters of their first run. -/
theorem take_of_ink_eq {cs ds : List Char} (h : ink .joined cs = ink .joined ds) {n : Nat}
    (hn : n ≤ (firstRun cs).length) : cs.take n = ds.take n ∧
      (cs.take n).all isRunChar = true ∧ ink .joined (cs.drop n) = ink .joined (ds.drop n) := by
  induction n generalizing cs ds with
  | zero => exact ⟨rfl, rfl, h⟩
  | succ n ih =>
    obtain ⟨c, cs', ds', hc, rfl, rfl, hink⟩ | ⟨hcs, -⟩ := run_cases h
    · rw [firstRun_cons hc, List.length_cons] at hn
      obtain ⟨htake, hall, hdrop⟩ := ih hink (Nat.le_of_succ_le_succ hn)
      refine ⟨by rw [List.take_succ_cons, List.take_succ_cons, htake], ?_, hdrop⟩
      rw [List.take_succ_cons, List.all_cons, hc, hall, Bool.and_self]
    · rw [firstRun_of_startsOff hcs] at hn
      exact absurd hn (by simp)

/-! ## Keywords of several words -/

theorem upperRuns_disjoint_blanks :
    ∀ run ∈ upperRuns, ∀ range ∈ blanks, range.2 < run.first ∨ run.last < range.1 := by
  decide +kernel

theorem upperExpansions_disjoint_blanks :
    ∀ entry ∈ upperExpansions, ∀ range ∈ blanks, range.2 < entry.1 ∨ entry.1 < range.1 := by
  decide

/-- White space and punctuation have no case. -/
theorem upperChar_of_isRunChar_eq_false {c : Char} (h : isRunChar c = false) :
    upperChar c = [c] := by
  by_cases hc : isBlank c = true
  · rw [isBlank, CharSet.contains_iff] at hc
    obtain ⟨range, hrange, hle⟩ := hc
    have hexpansion : upperExpansions.find? (fun entry => entry.1 == c.toNat) = none := by
      rw [List.find?_eq_none]
      intro entry hentry
      have := upperExpansions_disjoint_blanks entry hentry range hrange
      rw [beq_iff_eq]
      omega
    have hrun : CaseRun.find? upperRuns c.toNat = none := by
      rw [CaseRun.find?, List.find?_eq_none]
      intro run hrun
      have := upperRuns_disjoint_blanks run hrun range hrange
      simp only [Bool.and_eq_true, decide_eq_true_eq]
      omega
    rw [upperChar, convertCase, hexpansion, hrun]
  · have hpunct : isPunctuation c = true := by
      rw [isRunChar] at h
      simpa [hc] using h
    simp only [isPunctuation, Bool.or_eq_true, beq_iff_eq] at hpunct
    rcases hpunct with ((rfl | rfl) | rfl) | rfl <;> decide

theorem isRunChar_of_upperChar {c w : Char} (hw : isRunChar w = true)
    (h : (upperChar c == [w]) = true) : isRunChar c = true := by
  rw [← Bool.not_eq_false]
  intro hc
  rw [upperChar_of_isRunChar_eq_false hc, beq_iff_eq, List.cons.injEq] at h
  rw [h.1, hw] at hc
  exact absurd hc (by decide)

/-- Holds for rests of texts with equal ink, or for no rests. -/
def SameRest : Option (List Char) → Option (List Char) → Prop
  | none, none => True
  | some cs, some ds => ink .joined cs = ink .joined ds
  | _, _ => False

theorem dropWord?_of_startsOff {word cs : List Char} (hne : word ≠ [])
    (hword : word.all isRunChar = true) (h : StartsOff cs) : dropWord? word cs = none := by
  cases word with
  | nil => exact absurd rfl hne
  | cons w word =>
    rw [List.all_cons, Bool.and_eq_true] at hword
    cases cs with
    | nil => rfl
    | cons c cs =>
      have hc := h c rfl
      rw [dropWord?, if_neg]
      intro hupper
      rw [isRunChar_of_upperChar hword.1 hupper] at hc
      exact absurd hc (by decide)

theorem sameRest_dropWord? {word : List Char} (hword : word.all isRunChar = true)
    {cs ds : List Char} (h : ink .joined cs = ink .joined ds) :
    SameRest (dropWord? word cs) (dropWord? word ds) := by
  induction word generalizing cs ds with
  | nil => exact h
  | cons w word ih =>
    obtain ⟨c, cs', ds', hc, rfl, rfl, hink⟩ | ⟨hcs, hds⟩ := run_cases h
    · rw [List.all_cons, Bool.and_eq_true] at hword
      rw [dropWord?, dropWord?]
      split
      · exact ih hword.2 hink
      · trivial
    · rw [dropWord?_of_startsOff (by simp) hword hcs, dropWord?_of_startsOff (by simp) hword hds]
      trivial

/-- Holds for a text that starts with white space and a run behind it. -/
def StartsApart (cs : List Char) : Prop :=
  ∃ bs c cs', bs ≠ [] ∧ bs.all isBlank = true ∧ isRunChar c = true ∧ cs = bs ++ c :: cs'

theorem startsApart_of_ink_eq {bs cs ds : List Char} {c : Char} (hne : bs ≠ [])
    (hbs : bs.all isBlank = true) (hc : isRunChar c = true)
    (h : ink .joined (bs ++ c :: cs) = ink .joined ds) :
    ∃ bs' ds', bs' ≠ [] ∧ bs'.all isBlank = true ∧ ds = bs' ++ c :: ds' ∧
      ink .joined cs = ink .joined ds' := by
  have hcs : ink .joined (bs ++ c :: cs) = (true, c) :: ink .joined cs := by
    rw [ink_append, ink_of_all_blank hbs, List.nil_append, Joint.after_of_all_blank hbs,
      ink_cons (isBlank_of_isRunChar hc), behind_of_isRunChar hc]
    rw [isRunChar, Bool.and_eq_true] at hc
    cases bs with
    | nil => exact absurd rfl hne
    | cons b bs => simp [hc.2, Joint.blank]
  obtain ⟨bs', ds', hbs', -, rfl, hflag, hink⟩ := of_ink_eq_cons (h.symm.trans hcs)
  rw [behind_of_isRunChar hc] at hink
  refine ⟨bs', ds', ?_, hbs', rfl, hink.symm⟩
  rintro rfl
  simp at hflag

/-- The rest of a text after white space and the words of a phrase. -/
def dropApart? (words : List (List Char)) : List Char → Option (List Char)
  | [] => none
  | c :: cs => if isBlank c then dropPhrase? words (cs.dropWhile isBlank) else none

theorem dropPhrase?_cons_cons (word word' : List Char) (words : List (List Char))
    (cs : List Char) : dropPhrase? (word :: word' :: words) cs =
      (dropWord? word cs).bind (dropApart? (word' :: words)) := by
  rw [dropPhrase?]
  · cases dropWord? word cs with
    | none => rfl
    | some rest => cases rest <;> rfl
  · simp

/-- Holds for phrases whose words are runs. -/
def ArePhrase (words : List (List Char)) : Prop := ∀ w ∈ words, w ≠ [] ∧ w.all isRunChar = true

theorem dropPhrase?_of_startsOff {word : List Char} {words : List (List Char)} {cs : List Char}
    (hwords : ArePhrase (word :: words)) (h : StartsOff cs) :
    dropPhrase? (word :: words) cs = none := by
  obtain ⟨hne, hrun⟩ := hwords word List.mem_cons_self
  have hword := dropWord?_of_startsOff hne hrun h
  cases words with
  | nil => exact hword
  | cons word' words => rw [dropPhrase?_cons_cons, hword, Option.bind_none]

theorem dropApart?_append {bs : List Char} {c : Char} (hne : bs ≠ []) (hbs : bs.all isBlank = true)
    (hc : isRunChar c = true) (words : List (List Char)) (cs : List Char) :
    dropApart? words (bs ++ c :: cs) = dropPhrase? words (c :: cs) := by
  cases bs with
  | nil => exact absurd rfl hne
  | cons b bs =>
    rw [List.all_cons, Bool.and_eq_true, List.all_eq_true] at hbs
    rw [List.cons_append, dropApart?, if_pos hbs.1, List.dropWhile_append_of_pos hbs.2,
      List.dropWhile_cons_of_neg (by simp [isBlank_of_isRunChar hc])]

theorem dropApart?_eq_none {word : List Char} {words : List (List Char)} {cs : List Char}
    (hwords : ArePhrase (word :: words)) (h : ¬ StartsApart cs) :
    dropApart? (word :: words) cs = none := by
  cases cs with
  | nil => rfl
  | cons b cs =>
    rw [dropApart?]
    split
    · next hb =>
      apply dropPhrase?_of_startsOff hwords
      intro c hc
      rw [← Bool.not_eq_true]
      intro hrun
      obtain ⟨cs', hcs'⟩ := List.head?_eq_some_iff.1 hc
      refine h ⟨b :: cs.takeWhile isBlank, c, cs', by simp, ?_, hrun, ?_⟩
      · rw [List.all_cons, hb, List.all_takeWhile, Bool.and_self]
      · rw [← hcs', List.cons_append, List.takeWhile_append_dropWhile]
    · rfl

theorem sameRest_dropPhrase? {word : List Char} {words : List (List Char)}
    (hwords : ArePhrase (word :: words)) {cs ds : List Char}
    (h : ink .joined cs = ink .joined ds) :
    SameRest (dropPhrase? (word :: words) cs) (dropPhrase? (word :: words) ds) := by
  induction words generalizing word cs ds with
  | nil => exact sameRest_dropWord? (hwords word List.mem_cons_self).2 h
  | cons word' words ih =>
    have htail : ArePhrase (word' :: words) := fun w hw => hwords w (List.mem_cons_of_mem _ hw)
    have hfirst := sameRest_dropWord? (hwords word List.mem_cons_self).2 h
    rw [dropPhrase?_cons_cons, dropPhrase?_cons_cons]
    cases hcs : dropWord? word cs with
    | none =>
      cases hds : dropWord? word ds with
      | none => trivial
      | some ds' => simp [hcs, hds, SameRest] at hfirst
    | some cs' =>
      cases hds : dropWord? word ds with
      | none => simp [hcs, hds, SameRest] at hfirst
      | some ds' =>
        rw [hcs, hds] at hfirst
        rw [Option.bind_some, Option.bind_some]
        -- the next word stands apart in both texts or in neither, since their ink tells
        by_cases hapart : StartsApart cs'
        · obtain ⟨bs, c, cs'', hne, hbs, hc, rfl⟩ := hapart
          obtain ⟨bs', ds'', hne', hbs', rfl, hink⟩ := startsApart_of_ink_eq hne hbs hc hfirst
          rw [dropApart?_append hne hbs hc, dropApart?_append hne' hbs' hc]
          exact ih htail (by rw [ink_joined_run hc, ink_joined_run hc, hink])
        · have hapart' : ¬ StartsApart ds' := by
            rintro ⟨bs, c, ds'', hne, hbs, hc, rfl⟩
            obtain ⟨bs', cs'', hne', hbs', rfl, -⟩ := startsApart_of_ink_eq hne hbs hc hfirst.symm
            exact hapart ⟨bs', c, cs'', hne', hbs', hc, rfl⟩
          rw [dropApart?_eq_none htail hapart, dropApart?_eq_none htail hapart']
          trivial

/-- Holds for a text that ends with a character of a run. -/
def EndsInRun (cs : List Char) : Prop := ∃ front c, cs = front ++ [c] ∧ isRunChar c = true

theorem endsInRun_append (cs : List Char) {ds : List Char} (h : EndsInRun ds) :
    EndsInRun (cs ++ ds) := by
  obtain ⟨front, c, rfl, hc⟩ := h
  exact ⟨cs ++ front, c, by rw [List.append_assoc], hc⟩

theorem endsInRun_of_all {cs : List Char} (hne : cs ≠ []) (h : cs.all isRunChar = true) :
    EndsInRun cs :=
  ⟨cs.dropLast, cs.getLast hne, (List.dropLast_concat_getLast hne).symm,
    List.all_eq_true.1 h _ (List.getLast_mem hne)⟩

/-- A word is a run at the start of the text. -/
theorem dropWord?_eq_some {word cs rest : List Char} (hword : word.all isRunChar = true)
    (h : dropWord? word cs = some rest) :
    ∃ w, cs = w ++ rest ∧ w.length = word.length ∧ w.all isRunChar = true := by
  induction word generalizing cs with
  | nil => exact ⟨[], Option.some.inj h, rfl, rfl⟩
  | cons x word ih =>
    rw [List.all_cons, Bool.and_eq_true] at hword
    cases cs with
    | nil => simp [dropWord?] at h
    | cons c cs =>
      rw [dropWord?] at h
      split at h
      · next hupper =>
        obtain ⟨w, rfl, hlength, hall⟩ := ih hword.2 h
        refine ⟨c :: w, rfl, congrArg (· + 1) hlength, ?_⟩
        rw [List.all_cons, isRunChar_of_upperChar hword.1 hupper, hall, Bool.and_self]
      · simp at h

theorem dropWord?_endsInRun {word cs rest : List Char} (hne : word ≠ [])
    (hword : word.all isRunChar = true) (h : dropWord? word cs = some rest) :
    ∃ w, cs = w ++ rest ∧ EndsInRun w := by
  obtain ⟨w, hcs, hlength, hall⟩ := dropWord?_eq_some hword h
  refine ⟨w, hcs, endsInRun_of_all ?_ hall⟩
  rintro rfl
  exact hne (List.length_eq_zero_iff.1 hlength.symm)

theorem dropPhrase?_endsInRun {word : List Char} {words : List (List Char)}
    (hwords : ArePhrase (word :: words)) {cs rest : List Char}
    (h : dropPhrase? (word :: words) cs = some rest) : ∃ w, cs = w ++ rest ∧ EndsInRun w := by
  induction words generalizing word cs with
  | nil =>
    obtain ⟨hne, hrun⟩ := hwords word List.mem_cons_self
    exact dropWord?_endsInRun hne hrun h
  | cons word' words ih =>
    rw [dropPhrase?_cons_cons, Option.bind_eq_some_iff] at h
    obtain ⟨cs', hword, hrest⟩ := h
    obtain ⟨w, rfl, -, -⟩ := dropWord?_eq_some (hwords word List.mem_cons_self).2 hword
    cases cs' with
    | nil => simp [dropApart?] at hrest
    | cons b cs' =>
      rw [dropApart?] at hrest
      split at hrest
      · obtain ⟨w', hcs', hw'⟩ := ih (fun w hw => hwords w (List.mem_cons_of_mem _ hw)) hrest
        refine ⟨w ++ b :: cs'.takeWhile isBlank ++ w', ?_, endsInRun_append _ hw'⟩
        rw [List.append_assoc, ← hcs']
        simp
      · simp at hrest

theorem arePhrase_of_mem_phrases : ∀ words ∈ phrases, words ≠ [] ∧ ArePhrase words := by
  have hall : phrases.all (fun words => !words.isEmpty &&
      words.all fun w => !w.isEmpty && w.all isRunChar) = true := by decide
  intro words hwords
  have h := List.all_eq_true.1 hall words hwords
  rw [Bool.and_eq_true, Bool.not_eq_true', List.isEmpty_eq_false_iff, List.all_eq_true] at h
  refine ⟨h.1, fun w hw => ?_⟩
  have hw' := h.2 w hw
  rwa [Bool.and_eq_true, Bool.not_eq_true', List.isEmpty_eq_false_iff] at hw'

/-- What is left behind a keyword of several words. -/
def dropKeyword? (cs : List Char) : Option (List Char) :=
  match phrases.findSome? fun phrase => dropPhrase? phrase cs with
  | some rest =>
    if rest.head?.all fun c => isBlank c || marks.contains c then some rest
    else dropWord? hyphenated cs
  | none => dropWord? hyphenated cs

theorem phrase?_eq_dropKeyword? (cs : List Char) :
    phrase? cs = (dropKeyword? cs).map fun rest => cs.length - rest.length - 1 := by
  rw [phrase?, dropKeyword?]
  cases phrases.findSome? fun phrase => dropPhrase? phrase cs with
  | none => rfl
  | some rest =>
    simp only
    split <;> rfl

theorem sameRest_findSome? {cs ds : List Char} (h : ink .joined cs = ink .joined ds)
    {candidates : List (List (List Char))}
    (hcandidates : ∀ words ∈ candidates, words ≠ [] ∧ ArePhrase words) :
    SameRest (candidates.findSome? fun phrase => dropPhrase? phrase cs)
      (candidates.findSome? fun phrase => dropPhrase? phrase ds) := by
  induction candidates with
  | nil => trivial
  | cons words candidates ih =>
    obtain ⟨⟨hne, hwords⟩, htail⟩ := List.forall_mem_cons.1 hcandidates
    cases words with
    | nil => exact absurd rfl hne
    | cons word words =>
      have hfirst := sameRest_dropPhrase? hwords h
      rw [List.findSome?_cons, List.findSome?_cons]
      cases hcs : dropPhrase? (word :: words) cs with
      | none =>
        cases hds : dropPhrase? (word :: words) ds with
        | none => exact ih htail
        | some ds' => simp [hcs, hds, SameRest] at hfirst
      | some cs' =>
        cases hds : dropPhrase? (word :: words) ds with
        | none => simp [hcs, hds, SameRest] at hfirst
        | some ds' =>
          rw [hcs, hds] at hfirst
          exact hfirst

theorem contains_marks_of_isPunctuation {c : Char} (h : isPunctuation c = true) :
    marks.contains c = true := by
  simp only [isPunctuation, Bool.or_eq_true, beq_iff_eq] at h
  rcases h with ((rfl | rfl) | rfl) | rfl <;> decide

/-- White space, a mark or the end of the text stands behind both of two texts or behind none. -/
theorem boundary_of_ink_eq {cs ds : List Char} (h : ink .joined cs = ink .joined ds) :
    (cs.head?.all fun c => isBlank c || marks.contains c) =
      ds.head?.all fun c => isBlank c || marks.contains c := by
  obtain ⟨c, cs', ds', hc, rfl, rfl, hink⟩ | ⟨hcs, hds⟩ := run_cases h
  · rfl
  · have hoff : ∀ {es : List Char}, StartsOff es →
        (es.head?.all fun c => isBlank c || marks.contains c) = true := by
      intro es hes
      cases es with
      | nil => rfl
      | cons e es =>
        have he := hes e rfl
        rw [isRunChar, Bool.and_eq_false_iff, Bool.not_eq_false', Bool.not_eq_false'] at he
        have hmark : (isBlank e || marks.contains e) = true := by
          rcases he with he | he
          · rw [he, Bool.true_or]
          · rw [contains_marks_of_isPunctuation he, Bool.or_true]
        exact hmark
    rw [hoff hcs, hoff hds]

theorem isRunChar_hyphenated : hyphenated.all isRunChar = true := by decide

theorem sameRest_dropKeyword? {cs ds : List Char} (h : ink .joined cs = ink .joined ds) :
    SameRest (dropKeyword? cs) (dropKeyword? ds) := by
  have hfind := sameRest_findSome? h arePhrase_of_mem_phrases
  have hword := sameRest_dropWord? isRunChar_hyphenated h
  rw [dropKeyword?, dropKeyword?]
  cases hcs : phrases.findSome? fun phrase => dropPhrase? phrase cs with
  | none =>
    cases hds : phrases.findSome? fun phrase => dropPhrase? phrase ds with
    | none => exact hword
    | some ds' => simp [hcs, hds, SameRest] at hfind
  | some cs' =>
    cases hds : phrases.findSome? fun phrase => dropPhrase? phrase ds with
    | none => simp [hcs, hds, SameRest] at hfind
    | some ds' =>
      rw [hcs, hds] at hfind
      have hboundary := boundary_of_ink_eq hfind
      simp only [hboundary]
      split
      · exact hfind
      · exact hword

theorem dropKeyword?_endsInRun {cs rest : List Char} (h : dropKeyword? cs = some rest) :
    ∃ w, cs = w ++ rest ∧ EndsInRun w := by
  have hword : dropWord? hyphenated cs = some rest → ∃ w, cs = w ++ rest ∧ EndsInRun w :=
    dropWord?_endsInRun (by decide) isRunChar_hyphenated
  rw [dropKeyword?] at h
  cases hfind : phrases.findSome? fun phrase => dropPhrase? phrase cs with
  | none =>
    rw [hfind] at h
    exact hword h
  | some rest' =>
    simp only [hfind] at h
    split at h
    · obtain rfl := Option.some.inj h
      obtain ⟨words, hwords, hphrase⟩ := List.exists_of_findSome?_eq_some hfind
      obtain ⟨hne, hrun⟩ := arePhrase_of_mem_phrases words hwords
      cases words with
      | nil => exact absurd rfl hne
      | cons word words => exact dropPhrase?_endsInRun hrun hphrase
    · exact hword h

end PgSchema.Sql.Lexeme
