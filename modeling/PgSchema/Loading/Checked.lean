/-
# Results of reading

`Checked α` is a value or the reasons why there is none.  Parts read side by side with `<*>`
report all their faults; `andThen` makes a later check depend on an earlier value.
-/
import PgSchema.Loading.Fault

namespace PgSchema

/-- A value read from a document, or why it could not be read. -/
inductive Checked (α : Type)
  | ok (value : α)
  | failed (error : LoadError)

namespace Checked

/-- A single fault at the place of reading. -/
def fault (cause : Cause) : Checked α := failed (.faults [⟨[], cause⟩])

/-- A broken rule at the place of reading. -/
def broken (rule : BrokenRule) : Checked α := fault (.broken rule)

/-- Changes the value. -/
def map (f : α → β) : Checked α → Checked β
  | ok a => ok (f a)
  | failed e => failed e

/-- Joins two results read side by side; the faults of both are kept. -/
def seq (f : Checked (α → β)) (a : Checked α) : Checked β :=
  match f, a with
  | ok f, ok a => ok (f a)
  | ok _, failed e => failed e
  | failed e, ok _ => failed e
  | failed e, failed e' => failed (e.merge e')

instance : Applicative Checked where
  pure := ok
  map f a := a.map f
  seq f a := f.seq (a ())

/-- Goes on with the value, if there is one. -/
def andThen (a : Checked α) (next : α → Checked β) : Checked β :=
  match a with
  | ok a => next a
  | failed e => failed e

/-- The result seen from outside. -/
def under (place : Place) : Checked α → Checked α
  | ok a => ok a
  | failed e => failed (e.under place)

/-- The value, if there is one. -/
def value? : Checked α → Option α
  | ok a => some a
  | failed _ => none

/-- A rule that may be broken. -/
def ofRule : Except BrokenRule α → Checked α
  | .ok a => ok a
  | .error rule => broken rule

@[simp] theorem ok_seq_ok (f : α → β) (a : α) : (ok f <*> ok a) = ok (f a) := rfl
@[simp] theorem map_ok (f : α → β) (a : α) : (f <$> ok a) = ok (f a) := rfl
@[simp] theorem ok_andThen (a : α) (next : α → Checked β) : (ok a).andThen next = next a := rfl
@[simp] theorem under_ok (place : Place) (a : α) : (ok a).under place = ok a := rfl

/-- Two results read side by side give a value only if both do. -/
theorem seq_eq_ok_iff {f : Checked (α → β)} {a : Checked α} {b : β} :
    (f <*> a) = ok b ↔ ∃ g x, f = ok g ∧ a = ok x ∧ g x = b := by
  cases f <;> cases a <;> simp [Seq.seq, seq]

/-- One step after another gives a value only if both do. -/
theorem andThen_eq_ok_iff {a : Checked α} {next : α → Checked β} {b : β} :
    a.andThen next = ok b ↔ ∃ x, a = ok x ∧ next x = ok b := by
  constructor
  · intro h
    cases a with
    | ok x => exact ⟨x, rfl, h⟩
    | failed e => simp [andThen] at h
  · rintro ⟨x, rfl, h⟩
    exact h

end Checked
end PgSchema
