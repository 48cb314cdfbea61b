/-
# Texts of one class of characters

A pattern that repeats one class of characters between the start and the end of the text matches the
texts of this class.  As the end of a text is also in front of a line feed that ends it, it matches
them with a line feed behind them, too.

* `Pattern.mem_ends_repeated_iff` : what a repeated class leaves of a text;
* `Pattern.occursIn_anchored_iff` : the texts in which the whole pattern matches.
-/
import PgSchema.Pattern

namespace PgSchema.Pattern

variable {negated : Bool} {items : List ClassItem} {whole : Nat} {cs rest : List Char}

/-! ## What a match leaves -/

/-- Holds for the characters of a class. -/
def takes (negated : Bool) (items : List ClassItem) (c : Char) : Bool :=
  (items.any fun item => item.takes c) != negated

theorem mem_ends_oneOf_iff :
    rest ∈ (oneOf negated items).ends whole cs ↔
      ∃ c, cs = c :: rest ∧ takes negated items c = true := by
  cases cs with
  | nil => simp [ends]
  | cons c cs =>
    rw [ends, ← takes]
    split
    · next hc =>
      rw [List.mem_singleton]
      constructor
      · rintro rfl
        exact ⟨c, rfl, hc⟩
      · rintro ⟨_, heq, -⟩
        exact (List.cons.inj heq).2.symm
    · next hc => simp [hc]

theorem mem_ends_start_iff : rest ∈ start.ends whole cs ↔ rest = cs ∧ cs.length = whole := by
  change rest ∈ (if cs.length = whole then [cs] else []) ↔ _
  split <;> simp_all

theorem mem_ends_stop_iff : rest ∈ stop.ends whole cs ↔ rest = cs ∧ (cs = [] ∨ cs = ['\n']) := by
  change rest ∈ (if cs = [] ∨ cs = ['\n'] then [cs] else []) ↔ _
  split <;> simp_all

theorem mem_ends_seq_iff {p q : Pattern} :
    rest ∈ (seq p q).ends whole cs ↔ ∃ between ∈ p.ends whole cs, rest ∈ q.ends whole between := by
  change rest ∈ ((p.ends whole cs).flatMap (q.ends whole)).eraseDups ↔ _
  rw [List.mem_eraseDups, List.mem_flatMap]

/-- At most so many steps are exactly so many or fewer of them. -/
theorem mem_upTo_iff {step : List Char → List (List Char)} {n : Nat} {rs : List (List Char)} :
    rest ∈ upTo step n rs ↔ ∃ k ≤ n, rest ∈ exactly step k rs := by
  induction n generalizing rs with
  | zero =>
    constructor
    · exact fun hnow => ⟨0, Nat.le_refl 0, hnow⟩
    · rintro ⟨k, hk, hmem⟩
      obtain rfl := Nat.le_zero.1 hk
      exact hmem
  | succ n ih =>
    rw [upTo, List.mem_append, ih]
    constructor
    · rintro (hnow | ⟨k, hk, hlater⟩)
      · exact ⟨0, Nat.zero_le _, hnow⟩
      · exact ⟨k + 1, Nat.succ_le_succ hk, hlater⟩
    · rintro ⟨k, hk, hmem⟩
      cases k with
      | zero => exact .inl hmem
      | succ k => exact .inr ⟨k, Nat.le_of_succ_le_succ hk, hmem⟩

/-- So many characters of a class are taken off. -/
theorem mem_exactly_oneOf_iff {n : Nat} {rs : List (List Char)} :
    rest ∈ exactly ((oneOf negated items).ends whole) n rs ↔
      ∃ taken, taken.length = n ∧ taken ++ rest ∈ rs ∧
        ∀ c ∈ taken, takes negated items c = true := by
  induction n generalizing rs with
  | zero =>
    change rest ∈ rs ↔ _
    simp
  | succ n ih =>
    change rest ∈ exactly _ n _ ↔ _
    rw [ih]
    simp only [List.mem_eraseDups, List.mem_flatMap, mem_ends_oneOf_iff]
    constructor
    · rintro ⟨taken, hlength, ⟨cs, hcs, c, rfl, hc⟩, htaken⟩
      exact ⟨c :: taken, by rw [List.length_cons, hlength], hcs,
        List.forall_mem_cons.2 ⟨hc, htaken⟩⟩
    · rintro ⟨taken, hlength, hmem, htaken⟩
      cases taken with
      | nil => simp at hlength
      | cons c taken =>
        obtain ⟨hc, htail⟩ := List.forall_mem_cons.1 htaken
        exact ⟨taken, Nat.succ.inj hlength, ⟨_, hmem, c, rfl, hc⟩, htail⟩

/-- A repeated class takes one or more of its characters off, as many as there are or fewer. -/
theorem mem_ends_repeated_iff :
    rest ∈ (times (oneOf negated items) 1 none).ends whole cs ↔
      ∃ taken, taken ≠ [] ∧ cs = taken ++ rest ∧ ∀ c ∈ taken, takes negated items c = true := by
  change rest ∈ (upTo ((oneOf negated items).ends whole) cs.length
    (exactly ((oneOf negated items).ends whole) 1 [cs])).eraseDups ↔ _
  simp only [List.mem_eraseDups, mem_upTo_iff, mem_exactly_oneOf_iff, List.mem_singleton]
  constructor
  · rintro ⟨-, -, more, -, ⟨first, hfirst, hcs, hall⟩, hmore⟩
    refine ⟨first ++ more, ?_, by rw [List.append_assoc, hcs], ?_⟩
    · rintro hnil
      rw [(List.append_eq_nil_iff.1 hnil).1] at hfirst
      cases hfirst
    · intro c hc
      exact (List.mem_append.1 hc).elim (hall c) (hmore c)
  · rintro ⟨taken, hne, rfl, htaken⟩
    cases taken with
    | nil => exact absurd rfl hne
    | cons c taken =>
      obtain ⟨hc, htail⟩ := List.forall_mem_cons.1 htaken
      refine ⟨taken.length, ?_, taken, rfl, ⟨[c], rfl, rfl, by simpa using hc⟩, htail⟩
      rw [List.length_append, List.length_cons]
      omega

/-! ## Matches in a text -/

theorem not_isEmpty_ends_iff {p : Pattern} :
    (!(p.ends whole cs).isEmpty) = true ↔ ∃ rest, rest ∈ p.ends whole cs := by
  rw [Bool.not_eq_true', List.isEmpty_eq_false_iff_exists_mem]

theorem occursFrom_iff {p : Pattern} :
    p.occursFrom whole cs = true ↔ ∃ tail, tail <:+ cs ∧ ∃ rest, rest ∈ p.ends whole tail := by
  induction cs with
  | nil =>
    rw [occursFrom, not_isEmpty_ends_iff]
    simp
  | cons c cs ih =>
    rw [occursFrom, Bool.or_eq_true, not_isEmpty_ends_iff, ih]
    simp only [List.suffix_cons_iff, or_and_right, exists_or, exists_eq_left]

/-- A pattern that begins at the start of the text matches if it matches there. -/
theorem occursIn_start_iff {p : Pattern} {s : String} :
    (seq start p).occursIn s = true ↔ ∃ rest, rest ∈ p.ends s.length s.toList := by
  rw [occursIn, occursFrom_iff]
  simp only [mem_ends_seq_iff, mem_ends_start_iff]
  constructor
  · rintro ⟨tail, htail, rest, between, ⟨hbetween, hlength⟩, hrest⟩
    have hwhole : tail = s.toList := htail.eq_of_length (by rw [hlength, String.length_toList])
    rw [hbetween, hwhole] at hrest
    exact ⟨rest, hrest⟩
  · rintro ⟨rest, hrest⟩
    exact ⟨s.toList, List.suffix_refl _, rest, s.toList, ⟨rfl, String.length_toList⟩, hrest⟩

/-- A class that is repeated from the start of a text to its end takes all of it but a line feed at
the end. -/
theorem occursIn_anchored_iff {s : String} :
    (seq start (seq (times (oneOf negated items) 1 none) stop)).occursIn s = true ↔
      ∃ taken, taken ≠ [] ∧ (∀ c ∈ taken, takes negated items c = true) ∧
        (s.toList = taken ∨ s.toList = taken ++ ['\n']) := by
  rw [occursIn_start_iff]
  simp only [mem_ends_seq_iff, mem_ends_repeated_iff, mem_ends_stop_iff]
  constructor
  · rintro ⟨-, rest, ⟨taken, hne, hs, htaken⟩, -, hend⟩
    refine ⟨taken, hne, htaken, ?_⟩
    rcases hend with rfl | rfl
    · exact .inl (by rw [hs, List.append_nil])
    · exact .inr hs
  · rintro ⟨taken, hne, htaken, hs | hs⟩
    · exact ⟨[], [], ⟨taken, hne, by rw [hs, List.append_nil], htaken⟩, rfl, .inl rfl⟩
    · exact ⟨['\n'], ['\n'], ⟨taken, hne, hs, htaken⟩, rfl, .inr rfl⟩

end PgSchema.Pattern
