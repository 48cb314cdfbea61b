/-
# Runs

A run reports events on the way to its result.  The events before an error are kept, and
`Run.events_bind` and `Run.result_bind` say what running one thing after another does to both.
-/

namespace PgSchema

/-- The events of a run, and the value or error that it ends with. -/
structure Run (η ε α : Type) where
  events : List η
  result : Except ε α

namespace Run

/-- A run without events that succeeds. -/
def done (a : α) : Run η ε α := { events := [], result := .ok a }

/-- A run without events that fails. -/
def fail (e : ε) : Run η ε α := { events := [], result := .error e }

/-- Reports events. -/
def report (events : List η) : Run η ε Unit := { events, result := .ok () }

/-- A result as a run without events. -/
def ofResult (result : Except ε α) : Run η ε α := { events := [], result }

/-- Goes on with the value of a run; an error ends it. -/
def andThen (r : Run η ε α) (next : α → Run η ε β) : Run η ε β :=
  match r.result with
  | .ok a => { events := r.events ++ (next a).events, result := (next a).result }
  | .error e => { events := r.events, result := .error e }

instance : Monad (Run η ε) where
  pure := done
  bind := andThen

/-- The same run with its error seen as another. -/
def mapError (f : ε → ε') (r : Run η ε α) : Run η ε' α :=
  { events := r.events, result := r.result.mapError f }

/-! ## Events and results -/

@[simp] theorem events_pure (a : α) : (pure a : Run η ε α).events = [] := rfl
@[simp] theorem result_pure (a : α) : (pure a : Run η ε α).result = .ok a := rfl
@[simp] theorem events_report (es : List η) : (report es : Run η ε Unit).events = es := rfl
@[simp] theorem result_report (es : List η) : (report es : Run η ε Unit).result = .ok () := rfl
@[simp] theorem events_ofResult (x : Except ε α) : (ofResult x : Run η ε α).events = [] := rfl
@[simp] theorem result_ofResult (x : Except ε α) : (ofResult x : Run η ε α).result = x := rfl

/-- One run after another has the result of the second, given that of the first. -/
@[simp] theorem result_bind (r : Run η ε α) (next : α → Run η ε β) :
    (r >>= next).result = r.result.bind fun a => (next a).result := by
  change (r.andThen next).result = _
  unfold andThen
  cases r.result <;> rfl

/-- One run after another has the events of both, if the first succeeds. -/
theorem events_bind (r : Run η ε α) (next : α → Run η ε β) :
    (r >>= next).events =
      r.events ++ match r.result with
        | .ok a => (next a).events
        | .error _ => [] := by
  change (r.andThen next).events = _
  unfold andThen
  cases r.result <;> simp

end Run
end PgSchema
