/-
# The numbers that unmasking looks up

Unmasking a text looks up the number of each mask in it.  `lookups` reads these numbers off
from left to right, whatever else the text holds.

* `unmask_eq_ok_iff` : unmasking gives a text exactly when each number looked up is readable and
  the number of a segment;
* `lookups_eq_of_ink_eq` : the numbers depend on the ink of the text only.
-/
import PgSchema.Proofs.Layout.Ink

namespace PgSchema.Layout

open Text

/-! ## Numbers between marks -/

theorem isDecimalDigit_of_isMark {c : Char} (h : isMark c = true) : isDecimalDigit c = false := by
  simp only [isMark, Bool.or_eq_true, beq_iff_eq] at h
  rcases h with (rfl | rfl) | rfl <;> decide

theorem isBlank_of_isMark {c : Char} (h : isMark c = true) : isBlank c = false := by
  simp only [isMark, Bool.or_eq_true, beq_iff_eq] at h
  rcases h with (rfl | rfl) | rfl <;> decide

theorem isPunctuation_of_isMark {c : Char} (h : isMark c = true) : isPunctuation c = false := by
  simp only [isMark, Bool.or_eq_true, beq_iff_eq] at h
  rcases h with (rfl | rfl) | rfl <;> decide

/-- No range of blanks meets the ten digits behind a zero. -/
theorem zeros_disjoint_blanks :
    ∀ z ∈ zeros, ∀ range ∈ blanks, range.2 < z ∨ z + 10 ≤ range.1 := by
  decide

theorem isBlank_of_isDecimalDigit {c : Char} (h : isDecimalDigit c = true) : isBlank c = false := by
  rw [isDecimalDigit, digitValue?, Option.isSome_map, List.find?_isSome] at h
  obtain ⟨z, hz, hc⟩ := h
  simp only [Bool.and_eq_true, decide_eq_true_eq] at hc
  rw [← Bool.not_eq_true, isBlank, CharSet.contains_iff]
  rintro ⟨range, hrange, hle⟩
  have := zeros_disjoint_blanks z hz range hrange
  omega

/-- The number that a mark completes: the digits since the mark before. -/
def completed (begun : Option (List Char)) (c : Char) : List (List Char) :=
  if isMark c then
    match begun with
    | some (d :: digits) => [d :: digits]
    | _ => []
  else []

theorem completed_none (c : Char) : completed none c = [] := ite_self []

theorem completed_some_nil (c : Char) : completed (some []) c = [] := ite_self []

theorem completed_some_cons {c : Char} (h : isMark c = true) (d : Char) (digits : List Char) :
    completed (some (d :: digits)) c = [d :: digits] := if_pos h

theorem completed_of_isMark_eq_false {c : Char} (h : isMark c = false)
    (begun : Option (List Char)) : completed begun c = [] :=
  if_neg (Bool.eq_false_iff.1 h)

/-- The digits of a mask begun, behind one more character. -/
def advance (begun : Option (List Char)) (c : Char) : Option (List Char) :=
  if isMark c then if (completed begun c).isEmpty then some [] else none
  else if isDecimalDigit c then begun.map (· ++ [c])
  else none

theorem advance_of_isMark {c : Char} (h : isMark c = true) (begun : Option (List Char)) :
    advance begun c = if (completed begun c).isEmpty then some [] else none := if_pos h

theorem advance_of_isMark_eq_false {c : Char} (h : isMark c = false)
    (begun : Option (List Char)) :
    advance begun c = if isDecimalDigit c then begun.map (· ++ [c]) else none :=
  if_neg (Bool.eq_false_iff.1 h)

/-- The numbers between marks in a text, read from left to right behind a mask begun so far. -/
def lookupsFrom (begun : Option (List Char)) : List Char → List (List Char)
  | [] => []
  | c :: cs => completed begun c ++ lookupsFrom (advance begun c) cs

theorem lookupsFrom_nil (begun : Option (List Char)) : lookupsFrom begun [] = [] := rfl

theorem lookupsFrom_cons (begun : Option (List Char)) (c : Char) (cs : List Char) :
    lookupsFrom begun (c :: cs) = completed begun c ++ lookupsFrom (advance begun c) cs := rfl

/-- The numbers that unmasking looks up in a text. -/
def lookups (cs : List Char) : List (List Char) := lookupsFrom none cs

/-- Holds for the characters that masks are made of. -/
def isMaskChar (c : Char) : Bool := isMark c || isDecimalDigit c

theorem isMark_eq_false_of_all {cs : List Char} (h : (cs.all fun c => !isMark c) = true) :
    ∀ c ∈ cs, isMark c = false := by
  simpa using h

theorem isMaskChar_of_isBlank {c : Char} (h : isBlank c = true) : isMaskChar c = false := by
  rw [isMaskChar, Bool.or_eq_false_iff, ← Bool.not_eq_true, ← Bool.not_eq_true]
  refine ⟨fun hmark => ?_, fun hdigit => ?_⟩
  · simp [isBlank_of_isMark hmark] at h
  · simp [isBlank_of_isDecimalDigit hdigit] at h

theorem isMaskChar_of_isPunctuation {c : Char} (h : isPunctuation c = true) :
    isMaskChar c = false := by
  simp only [isPunctuation, Bool.or_eq_true, beq_iff_eq] at h
  rcases h with ((rfl | rfl) | rfl) | rfl <;> decide

/-- Any other character breaks a mask off. -/
theorem lookupsFrom_cons_of_not_isMaskChar {c : Char} (h : isMaskChar c = false)
    (begun : Option (List Char)) (cs : List Char) :
    lookupsFrom begun (c :: cs) = lookupsFrom none cs := by
  rw [isMaskChar, Bool.or_eq_false_iff] at h
  rw [lookupsFrom_cons, completed_of_isMark_eq_false h.1, advance_of_isMark_eq_false h.1, h.2,
    if_neg Bool.false_ne_true, List.nil_append]

/-- A digit carries a mask on. -/
theorem lookupsFrom_digit {d : Char} (h : isDecimalDigit d = true) (begun : Option (List Char))
    (cs : List Char) : lookupsFrom begun (d :: cs) = lookupsFrom (begun.map (· ++ [d])) cs := by
  have hmark : isMark d = false := by
    rw [← Bool.not_eq_true]
    intro hmark
    rw [isDecimalDigit_of_isMark hmark] at h
    exact Bool.false_ne_true h
  rw [lookupsFrom_cons, completed_of_isMark_eq_false hmark, advance_of_isMark_eq_false hmark,
    if_pos h, List.nil_append]

/-- Digits carry a mask on. -/
theorem lookupsFrom_digits_append {digits : List Char} (h : digits.all isDecimalDigit = true)
    (begun : Option (List Char)) (cs : List Char) :
    lookupsFrom begun (digits ++ cs) = lookupsFrom (begun.map (· ++ digits)) cs := by
  induction digits generalizing begun with
  | nil => cases begun <;> simp
  | cons d digits ih =>
    rw [List.all_cons, Bool.and_eq_true] at h
    rw [List.cons_append, lookupsFrom_digit h.1, ih h.2]
    cases begun <;> simp

/-- A mark that completes no number starts a mask. -/
theorem lookupsFrom_mark {c : Char} (h : isMark c = true) {begun : Option (List Char)}
    (hnone : completed begun c = []) (cs : List Char) :
    lookupsFrom begun (c :: cs) = lookupsFrom (some []) cs := by
  rw [lookupsFrom_cons, advance_of_isMark h, hnone]
  rfl

theorem lookupsFrom_none_mark {c : Char} (h : isMark c = true) (cs : List Char) :
    lookupsFrom none (c :: cs) = lookupsFrom (some []) cs :=
  lookupsFrom_mark h (completed_none c) cs

/-- A mark behind digits completes their number. -/
theorem lookupsFrom_some_cons_mark {c : Char} (h : isMark c = true) (d : Char)
    (digits cs : List Char) :
    lookupsFrom (some (d :: digits)) (c :: cs) = (d :: digits) :: lookups cs := by
  rw [lookupsFrom_cons, advance_of_isMark h, completed_some_cons h]
  rfl

/-- A run of digits ends at a mark. -/
theorem span_digits {digits : List Char} (h : digits.all isDecimalDigit = true) {d : Char}
    (hd : isMark d = true) (rest : List Char) :
    (digits ++ d :: rest).takeWhile isDecimalDigit = digits ∧
      (digits ++ d :: rest).dropWhile isDecimalDigit = d :: rest := by
  rw [List.all_eq_true] at h
  rw [List.takeWhile_append_of_pos h, List.dropWhile_append_of_pos h]
  simp [isDecimalDigit_of_isMark hd]

/-- A mask is made of two marks and digits between them. -/
theorem maskDigits?_eq_some_iff {cs digits : List Char} :
    maskDigits? cs = some digits ↔ ∃ m d rest, cs = m :: (digits ++ d :: rest) ∧
      isMark m = true ∧ isMark d = true ∧ digits ≠ [] ∧ digits.all isDecimalDigit = true := by
  constructor
  · intro h
    cases cs with
    | nil => simp [maskDigits?] at h
    | cons c cs =>
      rw [maskDigits?] at h
      split at h
      · next hmask =>
        obtain rfl := Option.some.inj h
        simp only [Bool.and_eq_true, Bool.not_eq_true', List.isEmpty_eq_false_iff] at hmask
        obtain ⟨⟨hc, hne⟩, hclose⟩ := hmask
        cases hrest : cs.dropWhile isDecimalDigit with
        | nil => simp [hrest] at hclose
        | cons d rest =>
          refine ⟨c, d, rest, ?_, hc, by simpa [hrest] using hclose, hne, List.all_takeWhile⟩
          rw [← hrest, List.takeWhile_append_dropWhile]
      · simp at h
  · rintro ⟨m, d, rest, rfl, hm, hd, hne, hdigits⟩
    obtain ⟨htake, hdrop⟩ := span_digits hdigits hd rest
    simp [maskDigits?, htake, hdrop, hm, hd, hne]

/-- A text is read by masks: it is empty, starts with a mask, or starts with a character that
starts no mask. -/
theorem mask_induction {motive : List Char → Prop} (nil : motive [])
    (mask : ∀ m d digits rest, isMark m = true → isMark d = true → digits ≠ [] →
      digits.all isDecimalDigit = true → motive rest → motive (m :: (digits ++ d :: rest)))
    (char : ∀ c cs, maskDigits? (c :: cs) = none → motive cs → motive (c :: cs))
    (cs : List Char) : motive cs := by
  induction hn : cs.length using Nat.strongRecOn generalizing cs with
  | _ n ih =>
    cases cs with
    | nil => exact nil
    | cons c cs =>
      cases h : maskDigits? (c :: cs) with
      | none => exact char c cs h (ih cs.length (by simp [← hn]) cs rfl)
      | some digits =>
        obtain ⟨m, d, rest, heq, hm, hd, hne, hdigits⟩ := maskDigits?_eq_some_iff.1 h
        rw [heq] at hn ⊢
        exact mask m d digits rest hm hd hne hdigits
          (ih rest.length (by simp [← hn]; omega) rest rfl)

/-- The mask at the start of a text is looked up first. -/
theorem lookups_mask_append {m d : Char} {digits : List Char} (hm : isMark m = true)
    (hd : isMark d = true) (hne : digits ≠ []) (hdigits : digits.all isDecimalDigit = true)
    (rest : List Char) : lookups (m :: (digits ++ d :: rest)) = digits :: lookups rest := by
  rw [lookups, lookupsFrom_none_mark hm, lookupsFrom_digits_append hdigits, Option.map_some,
    List.nil_append]
  cases digits with
  | nil => exact absurd rfl hne
  | cons e digits => exact lookupsFrom_some_cons_mark hd e digits rest

/-- Where no mask starts, the numbers are those of the text behind. -/
theorem lookups_of_maskDigits?_eq_none {c : Char} {cs : List Char}
    (h : maskDigits? (c :: cs) = none) : lookups (c :: cs) = lookups cs := by
  by_cases hc : isMark c = true
  · rw [lookups, lookupsFrom_none_mark hc, lookups]
    have hcs := List.takeWhile_append_dropWhile (p := isDecimalDigit) (l := cs)
    -- the digits behind the mark are carried on, but no mark closes them
    rw [← hcs, lookupsFrom_digits_append List.all_takeWhile,
      lookupsFrom_digits_append List.all_takeWhile]
    cases hrest : cs.dropWhile isDecimalDigit with
    | nil => rw [lookupsFrom_nil, lookupsFrom_nil]
    | cons d rest =>
      have hdigit : isDecimalDigit d = false := by
        have hstop := List.head?_dropWhile_not isDecimalDigit cs
        rw [hrest] at hstop
        simpa using hstop
      by_cases hd : isMark d = true
      · cases hdigits : cs.takeWhile isDecimalDigit with
        | nil =>
          rw [Option.map_some, Option.map_none, List.nil_append,
            lookupsFrom_mark hd (completed_some_nil d), lookupsFrom_none_mark hd]
        | cons e digits =>
          rw [maskDigits?] at h
          simp [hrest, hc, hd, hdigits] at h
      · rw [Bool.not_eq_true] at hd
        rw [lookupsFrom_cons_of_not_isMaskChar (by simp [isMaskChar, hd, hdigit]),
          lookupsFrom_cons_of_not_isMaskChar (by simp [isMaskChar, hd, hdigit])]
  · rw [Bool.not_eq_true] at hc
    by_cases hdigit : isDecimalDigit c = true
    · rw [lookups, lookupsFrom_digit hdigit]
      rfl
    · rw [Bool.not_eq_true] at hdigit
      rw [lookups, lookupsFrom_cons_of_not_isMaskChar (by simp [isMaskChar, hc, hdigit])]
      rfl

/-- Numbers are looked up on the two sides of another character independently. -/
theorem lookupsFrom_append {c : Char} (h : isMaskChar c = false) (begun : Option (List Char))
    (cs ds : List Char) :
    lookupsFrom begun (cs ++ c :: ds) = lookupsFrom begun cs ++ lookups ds := by
  induction cs generalizing begun with
  | nil => exact lookupsFrom_cons_of_not_isMaskChar h begun ds
  | cons d cs ih => rw [List.cons_append, lookupsFrom_cons, lookupsFrom_cons, ih, List.append_assoc]

/-! ## Unmasking -/

theorem unmaskFrom_eq_drop (segments : List (List Char)) (skip : Nat) (cs : List Char) :
    unmaskFrom segments skip cs = unmask segments (cs.drop skip) := by
  induction cs generalizing skip with
  | nil => rw [unmaskFrom, List.drop_nil, unmask_nil]
  | cons c cs ih =>
    cases skip with
    | zero => rfl
    | succ skip => rw [unmaskFrom, ih, List.drop_succ_cons]

/-- Unmasking puts the segment of the first mask before the rest unmasked. -/
theorem unmask_mask_append {m d : Char} {digits : List Char} (segments : List (List Char))
    (hm : isMark m = true) (hd : isMark d = true) (hne : digits ≠ [])
    (hdigits : digits.all isDecimalDigit = true) (rest : List Char) :
    unmask segments (m :: (digits ++ d :: rest)) =
      (do let segment ← segmentOf segments digits
          return segment ++ (← unmask segments rest)) := by
  have hmask : maskDigits? (m :: (digits ++ d :: rest)) = some digits :=
    maskDigits?_eq_some_iff.2 ⟨m, d, rest, rfl, hm, hd, hne, hdigits⟩
  rw [unmask, unmaskFrom]
  simp only [hmask, unmaskFrom_eq_drop]
  rw [show (digits ++ d :: rest).drop (digits.length + 1) = rest by simp [List.drop_append]]

/-- A character that starts no mask stays. -/
theorem unmask_cons_of_eq_none {c : Char} {cs : List Char} (segments : List (List Char))
    (h : maskDigits? (c :: cs) = none) :
    unmask segments (c :: cs) = (do return c :: (← unmask segments cs)) := by
  rw [unmask, unmaskFrom]
  simp only [h]
  rfl

/-- Unmasking gives a text exactly when every number looked up names a segment. -/
theorem unmask_eq_ok_iff {segments : List (List Char)} {cs : List Char} :
    (∃ text, unmask segments cs = .ok text) ↔
      ∀ digits ∈ lookups cs, ∃ segment, segmentOf segments digits = .ok segment := by
  induction cs using mask_induction with
  | nil => simp [lookups, lookupsFrom_nil]
  | mask m d digits rest hm hd hne hdigits ih =>
    rw [unmask_mask_append segments hm hd hne hdigits, lookups_mask_append hm hd hne hdigits,
      List.forall_mem_cons, ← ih]
    cases hsegment : segmentOf segments digits with
    | error e => simp [bind, Except.bind]
    | ok segment => cases unmask segments rest <;> simp [bind, Except.bind, pure, Except.pure]
  | char c cs h ih =>
    rw [unmask_cons_of_eq_none segments h, lookups_of_maskDigits?_eq_none h, ← ih]
    cases unmask segments cs <;> simp [bind, Except.bind, pure, Except.pure]

/-! ## Lookups and ink -/

/-- The numbers between marks in ink: characters that are parted make no mask together. -/
def inkLookups (begun : Option (List Char)) : List (Bool × Char) → List (List Char)
  | [] => []
  | (parted, c) :: strokes =>
    let begun := if parted then none else begun
    completed begun c ++ inkLookups (advance begun c) strokes

/-- The numbers looked up in a text are those of its ink. -/
theorem lookupsFrom_eq_inkLookups {j : Joint} {begun : Option (List Char)}
    (h : j = .free → begun = none) (cs : List Char) :
    lookupsFrom (if j = .joined then begun else none) cs = inkLookups begun (ink j cs) := by
  induction cs generalizing j begun with
  | nil => rfl
  | cons c cs ih =>
    by_cases hc : isBlank c = true
    · rw [lookupsFrom_cons_of_not_isMaskChar (isMaskChar_of_isBlank hc), ink_cons_blank hc, ← ih,
        if_neg (Joint.blank_ne_joined j)]
      cases j <;> simp_all [Joint.blank]
    · rw [Bool.not_eq_true] at hc
      by_cases hp : isPunctuation c = true
      · have hmask := isMaskChar_of_isPunctuation hp
        rw [lookupsFrom_cons_of_not_isMaskChar hmask, ink_punctuation hp, inkLookups]
        rw [isMaskChar, Bool.or_eq_false_iff] at hmask
        rw [completed_of_isMark_eq_false hmask.1, advance_of_isMark_eq_false hmask.1, hmask.2,
          if_neg Bool.false_ne_true, List.nil_append, ← ih (fun _ => rfl), if_neg (by decide)]
      · rw [Bool.not_eq_true] at hp
        have hbegun : (if (j == .parted) = true then none else begun) =
            if j = .joined then begun else none := by
          cases j <;> simp_all
        have hbehind : Joint.behind c = .joined := by simp [Joint.behind, hp]
        rw [ink_cons hc, inkLookups, hp, Bool.not_false, Bool.and_true, hbegun, lookupsFrom_cons,
          hbehind, ← ih (by simp), if_pos (rfl : Joint.joined = .joined)]

/-- The numbers looked up in a text depend on its ink only. -/
theorem lookups_eq_of_ink_eq {cs ds : List Char} (h : ink .free cs = ink .free ds) :
    lookups cs = lookups ds := by
  have hinks (cs : List Char) : lookups cs = inkLookups none (ink .free cs) := by
    rw [← lookupsFrom_eq_inkLookups (fun _ => rfl), if_neg (by decide), lookups]
  rw [hinks, hinks, h]

end PgSchema.Layout
