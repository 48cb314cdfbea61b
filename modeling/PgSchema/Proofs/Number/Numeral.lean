/-
# Numerals read back

The decimal digits of a natural number are read back as the number, if they are not too many.

* `readInteger_toDigits` : reading what is written for a number gives the number;
* `natAbs_lt_of_readInteger` : what is read has no more digits than are allowed.
-/
import Mathlib.Algebra.GroupWithZero.Nat
import PgSchema.Number.Numeral
import PgSchema.Proofs.Text.Span

namespace PgSchema.Number

open Text

/-- The value of an ASCII digit. -/
theorem digitValue?_of_isDigit {c : Char} (h : c.isDigit = true) :
    digitValue? c = some (c.toNat - '0'.toNat) := by
  have hc : 48 ≤ c.toNat ∧ c.toNat < 48 + 10 := by
    simp only [Char.isDigit, Bool.and_eq_true, decide_eq_true_eq, UInt32.le_iff_toNat_le] at h
    exact ⟨h.1, Nat.lt_succ_of_le h.2⟩
  simp [digitValue?, zeros, hc.1, hc.2]

theorem isBlank_of_isDigit {c : Char} (h : c.isDigit = true) : isBlank c = false := by
  have hc : 48 ≤ c.toNat ∧ c.toNat ≤ 57 := by
    simp only [Char.isDigit, Bool.and_eq_true, decide_eq_true_eq, UInt32.le_iff_toNat_le] at h
    exact h
  rw [← Bool.not_eq_true, isBlank, CharSet.contains_iff]
  rintro ⟨range, hrange, hle⟩
  have hapart : ∀ range ∈ blanks, range.2 < 48 ∨ 57 < range.1 := by decide
  have := hapart range hrange
  omega

theorem isWhiteSpace_of_isDigit {c : Char} (h : c.isDigit = true) : isWhiteSpace c = false := by
  simp [isWhiteSpace, isBlank_of_isDigit h]

/-- A text without white space is trimmed to itself. -/
theorem trimWhere_eq_self {p : Char → Bool} {cs : List Char} (h : ∀ c ∈ cs, p c = false) :
    trimWhere p cs = cs :=
  trimWhere_of_ends (fun c hc => h c (List.mem_of_head? hc))
    fun c hc => h c (List.mem_of_getLast? hc)

/-- Digits are read one by one. -/
theorem digitValuesFrom_digits {digits : List Char} (h : ∀ c ∈ digits, c.isDigit = true)
    {afterDigit : Bool} (hne : digits ≠ [] ∨ afterDigit = true) :
    digitValuesFrom digitValue? afterDigit digits =
      some (digits.map fun c => c.toNat - '0'.toNat) := by
  induction digits generalizing afterDigit with
  | nil => simpa [digitValuesFrom] using hne
  | cons d digits ih =>
    have hd := h d (by simp)
    have hunderscore : (d == '_') = false := by
      rw [beq_eq_false_iff_ne]
      rintro rfl
      exact absurd hd (by decide)
    rw [digitValuesFrom, hunderscore, digitValue?_of_isDigit hd,
      ih (fun c hc => h c (by simp [hc])) (.inr rfl)]
    simp

/-- A sign is no digit. -/
theorem splitSign_digits {digits : List Char} (h : ∀ c ∈ digits, c.isDigit = true) :
    splitSign digits = (false, digits) := by
  cases digits with
  | nil => rfl
  | cons d digits =>
    have hd := h d (by simp)
    rw [splitSign]
    · intro cs heq
      rw [(List.cons.inj heq).1] at hd
      exact absurd hd (by decide)
    · intro cs heq
      rw [(List.cons.inj heq).1] at hd
      exact absurd hd (by decide)

/-- The decimal digits of a number are read back as the number, if they are not too many. -/
theorem readInteger_toDigits (n : Nat) :
    readInteger (String.ofList (Nat.toDigits 10 n)) =
      if n < 10 ^ maxDigits then .ok (n : Int)
      else .error (.tooLong (Nat.toDigits 10 n).length) := by
  have hdigits : ∀ c ∈ Nat.toDigits 10 n, c.isDigit = true :=
    fun c hc => Nat.isDigit_of_mem_toDigits (by decide) (by decide) hc
  have hvalue : ofDigitValues 10 ((Nat.toDigits 10 n).map fun c => c.toNat - '0'.toNat) = n := by
    rw [ofDigitValues, List.foldl_map]
    conv => rhs; rw [← Nat.ofDigitChars_ten_toDigits (n := n), Nat.ofDigitChars_eq_foldl]
    congr 1
    funext m c
    rw [Nat.mul_comm]
  have hlength : (Nat.toDigits 10 n).length > maxDigits ↔ ¬ n < 10 ^ maxDigits := by
    rw [← Nat.length_toDigits_le_iff (by decide) (by decide), Nat.not_le]
  rw [readInteger, String.toList_ofList,
    trimWhere_eq_self fun c hc => isWhiteSpace_of_isDigit (hdigits c hc)]
  simp only [splitSign_digits hdigits, digitValues?,
    digitValuesFrom_digits hdigits (.inl Nat.toDigits_ne_nil), List.length_map, hlength,
    ofSignedDigits, hvalue]
  by_cases h : n < 10 ^ maxDigits
  · simp only [h, not_true_eq_false, if_false, if_true, Bool.false_eq_true]
  · simp only [h, not_false_eq_true, if_false, if_true]

/-! ## Bounds -/

theorem digitValue?_lt {c : Char} {v : Nat} (h : digitValue? c = some v) : v < 10 := by
  obtain ⟨z, hfind, rfl⟩ := Option.map_eq_some_iff.1 h
  have hrange := List.find?_some hfind
  simp only [Bool.and_eq_true, decide_eq_true_eq] at hrange
  omega

theorem lt_of_mem_digitValuesFrom {cs : List Char} {afterDigit : Bool} {values : List Nat}
    (h : digitValuesFrom digitValue? afterDigit cs = some values) : ∀ v ∈ values, v < 10 := by
  induction cs generalizing afterDigit values with
  | nil =>
    unfold digitValuesFrom at h
    split at h
    · obtain rfl := Option.some.inj h
      simp
    · simp at h
  | cons c cs ih =>
    unfold digitValuesFrom at h
    split at h
    · -- an underscore has no value
      split at h
      · exact ih h
      · simp at h
    · obtain ⟨v, hv, hrest⟩ := Option.bind_eq_some_iff.1 h
      obtain ⟨others, hothers, rfl⟩ := Option.map_eq_some_iff.1 hrest
      exact List.forall_mem_cons.2 ⟨digitValue?_lt hv, ih hothers⟩

/-- Digits below ten spell a number below the power of ten for their count. -/
theorem foldl_digits_lt {values : List Nat} (h : ∀ v ∈ values, v < 10) {n k : Nat}
    (hn : n < 10 ^ k) :
    values.foldl (fun n v => n * 10 + v) n < 10 ^ (k + values.length) := by
  induction values generalizing n k with
  | nil => simpa using hn
  | cons v values ih =>
    obtain ⟨hv, hrest⟩ := List.forall_mem_cons.1 h
    have hstep : n * 10 + v < 10 ^ (k + 1) := by
      rw [Nat.pow_succ]
      omega
    have hlength : k + (v :: values).length = (k + 1) + values.length := by
      rw [List.length_cons]
      omega
    rw [List.foldl_cons, hlength]
    exact ih hrest hstep

/-- An integer that is read has no more digits than are allowed. -/
theorem natAbs_lt_of_readInteger {s : String} {n : Int} (h : readInteger s = .ok n) :
    n.natAbs < 10 ^ maxDigits := by
  unfold readInteger at h
  generalize splitSign (trimWhere isWhiteSpace s.toList) = signed at h
  obtain ⟨negative, digits⟩ := signed
  cases hvalues : digitValues? digitValue? digits with
  | none => simp [hvalues] at h
  | some values =>
    simp only [hvalues] at h
    split at h
    · simp at h
    · next hshort =>
      have hbound : ofDigitValues 10 values < 10 ^ values.length := by
        have := foldl_digits_lt (lt_of_mem_digitValuesFrom hvalues) (n := 0) (k := 0) (by simp)
        rwa [Nat.zero_add] at this
      have hle : 10 ^ values.length ≤ 10 ^ maxDigits :=
        Nat.pow_le_pow_right (by decide) (Nat.le_of_not_lt hshort)
      have hn : n.natAbs = ofDigitValues 10 values := by
        rw [← Except.ok.inj h, ofSignedDigits]
        split <;> simp
      omega

end PgSchema.Number
