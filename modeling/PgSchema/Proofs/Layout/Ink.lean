/-
# The ink of a text

The ink of a text is the sequence of its characters other than white space.  `ink` keeps with
each character whether white space parts it from the character before, except beside
punctuation, where white space is free.  Texts with equal ink differ in free white space only.

* `ink_append` : the ink of a text is read from left to right;
* `respaced_of_ink_eq` : texts with equal ink have the same words, in the sense of `Respaced`.
-/
import PgSchema.Layout.Mask

namespace PgSchema.Layout

open Text

/-! ## Respaced texts -/

/-- The punctuation beside which white space is free. -/
def isPunctuation (c : Char) : Bool := c == '(' || c == ')' || c == ',' || c == ';'

/-- The characters other than white space, each with whether white space stands right before
it; `blank` tells this of the first one. -/
def strokes (blank : Bool) : List Char → List (Bool × Char)
  | [] => []
  | c :: cs => if isBlank c then strokes true cs else (blank, c) :: strokes false cs

/-- Two texts differ in white space only, and white space stands between two neighbouring
characters of one where it stands between them in the other, unless one of them is
punctuation. -/
def Respaced (cs ds : List Char) : Prop :=
  (strokes false cs).map Prod.snd = (strokes false ds).map Prod.snd ∧
  ∀ (i : Nat) (b b' : Bool) (c d : Char),
    (strokes false cs)[i]? = some (b, c) → (strokes false cs)[i + 1]? = some (b', d) →
    isPunctuation c = false → isPunctuation d = false →
    (strokes false ds)[i + 1]? = some (b', d)

/-! ## Joints -/

/-- What the next character of a text follows. -/
inductive Joint
  /-- Punctuation or the start of the text: white space is free. -/
  | free
  /-- Another character, directly. -/
  | joined
  /-- Another character and white space after it. -/
  | parted
deriving DecidableEq, Repr

namespace Joint

/-- The joint behind white space. -/
def blank : Joint → Joint
  | free => free
  | joined => parted
  | parted => parted

/-- The joint behind a character other than white space. -/
def behind (c : Char) : Joint := if isPunctuation c then free else joined

/-- The joint behind a text. -/
def after (j : Joint) : List Char → Joint
  | [] => j
  | c :: cs => (if isBlank c then j.blank else behind c).after cs

end Joint

/-- The ink of a text that starts at a joint. -/
def ink (j : Joint) : List Char → List (Bool × Char)
  | [] => []
  | c :: cs =>
    if isBlank c then ink j.blank cs
    else (j == .parted && !isPunctuation c, c) :: ink (.behind c) cs

/-! ## Steps -/

theorem isBlank_of_isPunctuation {c : Char} (h : isPunctuation c = true) : isBlank c = false := by
  simp only [isPunctuation, Bool.or_eq_true, beq_iff_eq] at h
  rcases h with ((rfl | rfl) | rfl) | rfl <;> decide

theorem strokes_cons_blank {b : Bool} {c : Char} {cs : List Char} (h : isBlank c = true) :
    strokes b (c :: cs) = strokes true cs :=
  if_pos h

theorem strokes_cons {b : Bool} {c : Char} {cs : List Char} (h : isBlank c = false) :
    strokes b (c :: cs) = (b, c) :: strokes false cs :=
  if_neg (Bool.eq_false_iff.1 h)

@[simp] theorem ink_nil (j : Joint) : ink j [] = [] := rfl

@[simp] theorem Joint.after_nil (j : Joint) : j.after [] = j := rfl

theorem ink_cons_blank {j : Joint} {c : Char} {cs : List Char} (h : isBlank c = true) :
    ink j (c :: cs) = ink j.blank cs :=
  if_pos h

theorem ink_cons {j : Joint} {c : Char} {cs : List Char} (h : isBlank c = false) :
    ink j (c :: cs) = (j == .parted && !isPunctuation c, c) :: ink (.behind c) cs :=
  if_neg (Bool.eq_false_iff.1 h)

/-- Punctuation is never marked as parted, and what follows it is free. -/
theorem ink_punctuation {j : Joint} {c : Char} {cs : List Char} (h : isPunctuation c = true) :
    ink j (c :: cs) = (false, c) :: ink .free cs := by
  rw [ink_cons (isBlank_of_isPunctuation h)]
  simp [h, Joint.behind]

theorem Joint.after_cons_blank {j : Joint} {c : Char} {cs : List Char} (h : isBlank c = true) :
    j.after (c :: cs) = j.blank.after cs :=
  congrArg (Joint.after · cs) (if_pos h)

theorem Joint.after_cons {j : Joint} {c : Char} {cs : List Char} (h : isBlank c = false) :
    j.after (c :: cs) = (Joint.behind c).after cs :=
  congrArg (Joint.after · cs) (if_neg (Bool.eq_false_iff.1 h))

@[simp] theorem Joint.blank_blank (j : Joint) : j.blank.blank = j.blank := by cases j <;> rfl

@[simp] theorem Joint.blank_ne_joined (j : Joint) : j.blank ≠ .joined := by
  cases j <;> simp [Joint.blank]

/-- More white space does not change a joint behind white space. -/
theorem Joint.blank_of_ne_joined {j : Joint} (h : j ≠ .joined) : j.blank = j := by
  cases j with
  | free => rfl
  | joined => exact absurd rfl h
  | parted => rfl

/-! ## Appended texts -/

theorem Joint.after_append (j : Joint) (cs ds : List Char) :
    j.after (cs ++ ds) = (j.after cs).after ds := by
  induction cs generalizing j with
  | nil => rfl
  | cons c cs ih => exact ih _

/-- The ink of an append: the ink of the left text, then that of the right text from the joint
that the left one ends at. -/
theorem ink_append (j : Joint) (cs ds : List Char) :
    ink j (cs ++ ds) = ink j cs ++ ink (j.after cs) ds := by
  induction cs generalizing j with
  | nil => rfl
  | cons c cs ih =>
    rw [List.cons_append]
    by_cases h : isBlank c = true
    · rw [ink_cons_blank h, ink_cons_blank h, Joint.after_cons_blank h, ih]
    · rw [Bool.not_eq_true] at h
      rw [ink_cons h, ink_cons h, Joint.after_cons h, ih, List.cons_append]

/-- A character is read before texts with equal ink in the same way. -/
theorem ink_cons_congr {cs ds : List Char} (h : ∀ j, ink j cs = ink j ds) (j : Joint) (c : Char) :
    ink j (c :: cs) = ink j (c :: ds) := by
  rw [← List.singleton_append, ink_append, h, ← ink_append, List.singleton_append]

/-- White space has no ink. -/
theorem ink_of_all_blank {cs : List Char} (h : cs.all isBlank = true) (j : Joint) :
    ink j cs = [] := by
  induction cs generalizing j with
  | nil => rfl
  | cons c cs ih =>
    rw [List.all_cons, Bool.and_eq_true] at h
    rw [ink_cons_blank h.1, ih h.2]

/-- Only white space has no ink. -/
theorem all_blank_of_ink_eq_nil {cs : List Char} {j : Joint} (h : ink j cs = []) :
    cs.all isBlank = true := by
  induction cs generalizing j with
  | nil => rfl
  | cons c cs ih =>
    by_cases hc : isBlank c = true
    · rw [ink_cons_blank hc] at h
      rw [List.all_cons, hc, ih h, Bool.and_self]
    · rw [Bool.not_eq_true] at hc
      rw [ink_cons hc] at h
      exact absurd h (List.cons_ne_nil _ _)

/-- The joint behind white space only. -/
theorem Joint.after_of_all_blank {cs : List Char} (h : cs.all isBlank = true) (j : Joint) :
    j.after cs = if cs.isEmpty then j else j.blank := by
  induction cs generalizing j with
  | nil => rfl
  | cons c cs ih =>
    rw [List.all_cons, Bool.and_eq_true] at h
    rw [Joint.after_cons_blank h.1, ih h.2, Joint.blank_blank, List.isEmpty_cons]
    simp

/-- White space in front of a text is read over where it is free or stands already. -/
theorem ink_all_blank_append {bs : List Char} (h : bs.all isBlank = true) {j : Joint}
    (hj : j ≠ .joined) (cs : List Char) : ink j (bs ++ cs) = ink j cs := by
  rw [ink_append, ink_of_all_blank h, List.nil_append, Joint.after_of_all_blank h,
    Joint.blank_of_ne_joined hj, ite_self]

/-- White space at the end has no ink. -/
theorem ink_append_all_blank {bs : List Char} (h : bs.all isBlank = true) (j : Joint)
    (cs : List Char) : ink j (cs ++ bs) = ink j cs := by
  rw [ink_append, ink_of_all_blank h, List.append_nil]

/-! ## Texts with equal ink -/

theorem map_snd_ink (j : Joint) (b : Bool) (cs : List Char) :
    (ink j cs).map Prod.snd = (strokes b cs).map Prod.snd := by
  induction cs generalizing j b with
  | nil => rfl
  | cons c cs ih =>
    by_cases h : isBlank c = true
    · rw [ink_cons_blank h, strokes_cons_blank h, ih]
    · rw [Bool.not_eq_true] at h
      rw [ink_cons h, strokes_cons h, List.map_cons, List.map_cons, ih]

theorem map_snd_ink_eq_filter (j : Joint) (cs : List Char) :
    (ink j cs).map Prod.snd = cs.filter fun c => !isBlank c := by
  induction cs generalizing j with
  | nil => rfl
  | cons c cs ih =>
    by_cases hc : isBlank c = true
    · rw [ink_cons_blank hc, ih, List.filter_cons_of_neg (by simp [hc])]
    · rw [Bool.not_eq_true] at hc
      rw [ink_cons hc, List.map_cons, ih, List.filter_cons_of_pos (by simp [hc])]

/-- Behind a character other than punctuation the ink starts as the strokes do. -/
theorem head_ink_iff {j : Joint} {b b' : Bool} {d : Char} {cs : List Char}
    (hj : j = if b then .parted else .joined) (hd : isPunctuation d = false) :
    (ink j cs)[0]? = some (b', d) ↔ (strokes b cs)[0]? = some (b', d) := by
  induction cs generalizing j b with
  | nil => exact Iff.rfl
  | cons c cs ih =>
    by_cases h : isBlank c = true
    · rw [ink_cons_blank h, strokes_cons_blank h]
      apply ih
      cases b <;> simp [hj, Joint.blank]
    · rw [Bool.not_eq_true] at h
      rw [ink_cons h, strokes_cons h]
      simp only [List.getElem?_cons_zero, Option.some.injEq, Prod.mk.injEq]
      have hparted : (j == Joint.parted) = b := by cases b <;> simp [hj]
      constructor
      · rintro ⟨hb, rfl⟩
        exact ⟨by simpa [hparted, hd] using hb, rfl⟩
      · rintro ⟨hb, rfl⟩
        exact ⟨by simpa [hparted, hd] using hb, rfl⟩

/-- Between two characters other than punctuation the ink says what the strokes say. -/
theorem ink_succ_iff {j : Joint} {b b₁ b₂ : Bool} {c d : Char} {cs : List Char} {i : Nat}
    (hi : (strokes b cs)[i]? = some (b₁, c)) (hc : isPunctuation c = false)
    (hd : isPunctuation d = false) :
    (ink j cs)[i + 1]? = some (b₂, d) ↔ (strokes b cs)[i + 1]? = some (b₂, d) := by
  induction cs generalizing j b i with
  | nil => cases hi
  | cons e cs ih =>
    by_cases h : isBlank e = true
    · rw [strokes_cons_blank h] at hi ⊢
      rw [ink_cons_blank h]
      exact ih hi
    · rw [Bool.not_eq_true] at h
      rw [strokes_cons h] at hi ⊢
      rw [ink_cons h]
      simp only [List.getElem?_cons_succ]
      cases i with
      | zero =>
        simp only [List.getElem?_cons_zero, Option.some.injEq, Prod.mk.injEq] at hi
        obtain ⟨-, rfl⟩ := hi
        apply head_ink_iff _ hd
        simp [Joint.behind, hc]
      | succ i => exact ih (by simpa using hi)

/-- Texts with equal ink differ in free white space only. -/
theorem respaced_of_ink_eq {cs ds : List Char} (h : ink .free cs = ink .free ds) :
    Respaced cs ds := by
  have hink : (strokes false cs).map Prod.snd = (strokes false ds).map Prod.snd := by
    rw [← map_snd_ink .free, ← map_snd_ink .free, h]
  refine ⟨hink, ?_⟩
  intro i b b' c d hi hi' hc hd
  -- the same character stands before in the other text, with or without white space
  obtain ⟨b₁, hb₁⟩ : ∃ b₁, (strokes false ds)[i]? = some (b₁, c) := by
    have hget := congrArg (·[i]?) hink
    simp only [List.getElem?_map, hi, Option.map_some] at hget
    obtain ⟨⟨b₁, c₁⟩, hds, rfl⟩ := Option.map_eq_some_iff.1 hget.symm
    exact ⟨b₁, hds⟩
  rw [← ink_succ_iff (j := .free) hb₁ hc hd, ← h]
  exact (ink_succ_iff hi hc hd).2 hi'

end PgSchema.Layout
