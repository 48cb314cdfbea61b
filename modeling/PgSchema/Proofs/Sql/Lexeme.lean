/-
# The lexemes of a text

`Lexeme.scan` reads a text from left to right: a lexeme at its start, then the rest.

* `scan_induction` : the lexemes of a text are given step by step;
* `flatMap_text_of_scanFrom` : the lexemes, joined in order, are the text;
* `startsAsKind_of_mem_scanFrom` : a lexeme is white space or starts with another character.
-/
import PgSchema.Sql.Lexeme

namespace PgSchema.Sql.Lexeme

open Text

/-! ## Reading step by step -/

theorem scanFrom_eq_drop (afterParameter : Bool) (skip : Nat) (cs : List Char) :
    scanFrom afterParameter skip cs = scanFrom afterParameter 0 (cs.drop skip) := by
  induction cs generalizing skip with
  | nil => simp [scanFrom]
  | cons c cs ih =>
    cases skip with
    | zero => rfl
    | succ skip => rw [scanFrom, ih, List.drop_succ_cons]

/-- A text that can be cut starts with a lexeme, and the rest of it can be cut. -/
theorem scanFrom_cons_eq_ok_iff {afterParameter : Bool} {c : Char} {cs : List Char}
    {ℓs : List Lexeme} :
    scanFrom afterParameter 0 (c :: cs) = .ok ℓs ↔ ∃ kind n rest,
      next afterParameter c cs = .ok (kind, n) ∧
      scanFrom (LexemeKind.afterParameter afterParameter kind) 0 (cs.drop n) = .ok rest ∧
      ℓs = ⟨kind, c :: cs.take n⟩ :: rest := by
  rw [scanFrom]
  cases hnext : next afterParameter c cs with
  | error e => simp [bind, Except.bind]
  | ok found =>
    obtain ⟨kind, n⟩ := found
    simp only [bind, Except.bind, pure, Except.pure]
    rw [scanFrom_eq_drop]
    cases hrest : scanFrom (LexemeKind.afterParameter afterParameter kind) 0 (cs.drop n) with
    | error e => simp [hrest]
    | ok rest =>
      simp only [Except.ok.injEq, Prod.mk.injEq]
      constructor
      · rintro rfl
        exact ⟨kind, n, rest, ⟨rfl, rfl⟩, hrest, rfl⟩
      · rintro ⟨_, _, rest', ⟨rfl, rfl⟩, hrest', rfl⟩
        rw [Except.ok.inj (hrest.symm.trans hrest')]

/-- The lexemes of a text are given step by step. -/
theorem scan_induction {motive : Bool → List Char → List Lexeme → Prop}
    (nil : ∀ p, motive p [] [])
    (cons : ∀ p c cs kind n rest, next p c cs = .ok (kind, n) →
      motive (LexemeKind.afterParameter p kind) (cs.drop n) rest →
      motive p (c :: cs) (⟨kind, c :: cs.take n⟩ :: rest))
    {afterParameter : Bool} {cs : List Char} {ℓs : List Lexeme}
    (h : scanFrom afterParameter 0 cs = .ok ℓs) : motive afterParameter cs ℓs := by
  induction hn : cs.length using Nat.strongRecOn generalizing cs afterParameter ℓs with
  | _ n ih =>
    cases cs with
    | nil =>
      obtain rfl := Except.ok.inj h
      exact nil _
    | cons c cs =>
      obtain ⟨kind, k, rest, hnext, hrest, rfl⟩ := scanFrom_cons_eq_ok_iff.1 h
      refine cons _ c cs kind k rest hnext (ih _ ?_ hrest rfl)
      rw [← hn, List.length_drop, List.length_cons]
      omega

/-! ## What lexemes are made of -/

/-- The lexemes of a text, joined in order, are the text. -/
theorem flatMap_text_of_scanFrom {afterParameter : Bool} {cs : List Char} {ℓs : List Lexeme}
    (h : scanFrom afterParameter 0 cs = .ok ℓs) : ℓs.flatMap (·.text) = cs := by
  refine scan_induction (motive := fun _ cs ℓs => ℓs.flatMap (·.text) = cs) ?_ ?_ h
  · exact fun _ => rfl
  · intro p c cs kind n rest _ hrest
    rw [List.flatMap_cons, hrest, List.cons_append, List.take_append_drop]

theorem isBlank_of_isSpaceOrTab {c : Char} (h : isSpaceOrTab c = true) : isBlank c = true := by
  simp only [isSpaceOrTab, Bool.or_eq_true, beq_iff_eq] at h
  rcases h with rfl | rfl <;> decide

/-- Holds for a lexeme that is white space or starts with another character. -/
def StartsAsKind (ℓ : Lexeme) : Prop :=
  ℓ.kind = .blank ∨ ℓ.kind = .lineBreak ∨ ∃ c cs, ℓ.text = c :: cs ∧ isBlank c = false

/-- White space at the start of a text is a lexeme of white space. -/
theorem next_of_isBlank {afterParameter : Bool} {c : Char} (h : isBlank c = true) (cs : List Char) :
    next afterParameter c cs = .ok (if isSpaceOrTab c then
      (.blank, (cs.takeWhile isSpaceOrTab).length) else (.lineBreak, 0)) := by
  rw [next, if_pos h]
  split <;> rfl

theorem startsAsKind_of_mem_scanFrom {afterParameter : Bool} {cs : List Char} {ℓs : List Lexeme}
    (h : scanFrom afterParameter 0 cs = .ok ℓs) : ∀ ℓ ∈ ℓs, StartsAsKind ℓ := by
  refine scan_induction (motive := fun _ _ ℓs => ∀ ℓ ∈ ℓs, StartsAsKind ℓ) ?_ ?_ h
  · simp
  · intro p c cs kind n rest hnext hrest
    refine List.forall_mem_cons.2 ⟨?_, hrest⟩
    by_cases hc : isBlank c = true
    · rw [next_of_isBlank hc] at hnext
      by_cases htab : isSpaceOrTab c = true
      · rw [if_pos htab] at hnext
        exact .inl (Prod.mk.inj (Except.ok.inj hnext)).1.symm
      · rw [if_neg htab] at hnext
        exact .inr (.inl (Prod.mk.inj (Except.ok.inj hnext)).1.symm)
    · exact .inr (.inr ⟨c, cs.take n, rfl, by simpa using hc⟩)

end PgSchema.Sql.Lexeme
