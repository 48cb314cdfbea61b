/-
# Counting occurrences

The number of places of a text where another text stands, overlapping ones counted each.  A
character that is not in the text looked for parts the places: those before it and those behind it
are counted by themselves.

* `occurrences_append_cons` : the places on the two sides of such a character;
* `occurrences_intercalate` : the places of a joined text.
-/
import Mathlib.Algebra.GroupWithZero.Nat
import PgSchema.Text.Search

namespace PgSchema.Text

/-- The number of places where `needle` stands in a text. -/
def occurrences (needle : List Char) : List Char → Nat
  | [] => 0
  | c :: cs => (if needle.isPrefixOf (c :: cs) then 1 else 0) + occurrences needle cs

/-- A start of a text without a character does not reach behind its first occurrence. -/
theorem prefix_of_prefix_append_cons {p cs ds : List Char} {x : Char}
    (h : p <+: cs ++ x :: ds) (hx : x ∉ p) : p <+: cs := by
  induction p generalizing cs with
  | nil => exact List.nil_prefix
  | cons c p ih =>
    rw [List.mem_cons, not_or] at hx
    cases cs with
    | nil => exact absurd (List.cons_prefix_cons.1 h).1.symm hx.1
    | cons d cs =>
      rw [List.cons_append] at h
      obtain ⟨rfl, hrest⟩ := List.cons_prefix_cons.1 h
      exact List.cons_prefix_cons.2 ⟨rfl, ih hrest hx.2⟩

variable {needle : List Char}

/-- A text stands nowhere in another exactly when it does not occur in it. -/
theorem occurrences_eq_zero_iff (hne : needle ≠ []) {cs : List Char} :
    occurrences needle cs = 0 ↔ occursIn needle cs = false := by
  induction cs with
  | nil => simpa [occurrences, occursIn] using hne
  | cons c cs ih =>
    rw [occurrences, occursIn, Bool.or_eq_false_iff, ← ih, Nat.add_eq_zero_iff]
    cases needle.isPrefixOf (c :: cs) <;> simp

theorem occurrences_append_cons (hne : needle ≠ []) {c : Char} (hc : c ∉ needle)
    (cs ds : List Char) :
    occurrences needle (cs ++ c :: ds) = occurrences needle cs + occurrences needle ds := by
  have hstart (xs : List Char) : needle.isPrefixOf (xs ++ c :: ds) = needle.isPrefixOf xs := by
    rw [Bool.eq_iff_iff, List.isPrefixOf_iff_prefix, List.isPrefixOf_iff_prefix]
    exact ⟨fun h => prefix_of_prefix_append_cons h hc, fun h => h.trans (List.prefix_append ..)⟩
  induction cs with
  | nil =>
    have hnil : needle.isPrefixOf (c :: ds) = false := by
      have hempty := hstart []
      rw [List.nil_append] at hempty
      rw [hempty]
      cases needle with
      | nil => exact absurd rfl hne
      | cons n ns => rfl
    simp [occurrences, hnil]
  | cons x cs ih =>
    have hx := hstart (x :: cs)
    rw [List.cons_append] at hx ⊢
    rw [occurrences, hx, ih, occurrences, Nat.add_assoc]

/-! ## Texts around others -/

variable (hne : needle ≠ [])
include hne

/-- A text that shares no character with the one looked for counts nothing before another. -/
theorem occurrences_append_left {sep : List Char} (h : ∀ c ∈ sep, c ∉ needle) (ds : List Char) :
    occurrences needle (sep ++ ds) = occurrences needle ds := by
  induction sep with
  | nil => rfl
  | cons s sep ih =>
    obtain ⟨hs, hrest⟩ := List.forall_mem_cons.1 h
    have hsplit := occurrences_append_cons hne hs [] (sep ++ ds)
    rw [List.nil_append, occurrences, Nat.zero_add, ih hrest] at hsplit
    exact hsplit

/-- Texts apart from each other are counted by themselves. -/
theorem occurrences_append_append {sep : List Char} (hsep : sep ≠ [])
    (h : ∀ c ∈ sep, c ∉ needle) (cs ds : List Char) :
    occurrences needle (cs ++ (sep ++ ds)) = occurrences needle cs + occurrences needle ds := by
  cases sep with
  | nil => exact absurd rfl hsep
  | cons s sep =>
    obtain ⟨hs, hrest⟩ := List.forall_mem_cons.1 h
    rw [List.cons_append, occurrences_append_cons hne hs, occurrences_append_left hne hrest]

/-- Nor does it count anything behind another. -/
theorem occurrences_append_right {sep : List Char} (h : ∀ c ∈ sep, c ∉ needle) (cs : List Char) :
    occurrences needle (cs ++ sep) = occurrences needle cs := by
  cases sep with
  | nil => rw [List.append_nil]
  | cons s sep =>
    have hsplit := occurrences_append_append hne (List.cons_ne_nil s sep) h cs []
    rwa [List.append_nil] at hsplit

theorem occurrences_intercalate {sep : List Char} (hsep : sep ≠ []) (h : ∀ c ∈ sep, c ∉ needle)
    (css : List (List Char)) :
    occurrences needle (sep.intercalate css) = (css.map (occurrences needle)).sum := by
  induction css with
  | nil => rfl
  | cons cs css ih =>
    cases css with
    | nil => simp
    | cons ds css =>
      rw [List.intercalate_cons_cons, List.append_assoc, occurrences_append_append hne hsep h, ih]
      simp only [List.map_cons, List.sum_cons]

end PgSchema.Text
