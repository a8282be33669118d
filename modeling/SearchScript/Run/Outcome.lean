import SearchScript.Run.Store
import SearchScript.Completion.Ranking

/-!
# Steps of a run

A step of a run works on the store and ends with a value or with a signal that leaves the program
part around it. The steps of a run are counted, and a run that would take more than it was allowed
has no outcome.
-/

namespace SearchScript

/-- Why a part of a program is left before its end. -/
inductive Signal where
  /-- The function returns a value. -/
  | leave (value : Value)
  /-- The innermost loop ends. -/
  | breakLoop
  /-- The innermost loop goes on with its next round. -/
  | continueLoop
  /-- The completions at the cursor were found. -/
  | suggest (suggestions : Suggestions)
  /-- The run fails. -/
  | fail (error : RunError)

/-- A step of a run; `none` is a run that was cut off. -/
def Run (α : Type) : Type := Store → Option (Except Signal α × Store)

namespace Run

variable {α β : Type}

/-- Ends with a value. -/
@[inline] def pure (a : α) : Run α := fun st => some (.ok a, st)

/-- Goes on with another step, unless a signal ends the first. -/
@[inline] def bind (step : Run α) (next : α → Run β) : Run β := fun st =>
  match step st with
  | none => none
  | some (.ok a, st) => next a st
  | some (.error s, st) => some (.error s, st)

instance : Monad Run where
  pure := Run.pure
  bind := Run.bind

/-- A run that was cut off. -/
def cutOff : Run α := fun _ => none

/-- Ends with a signal. -/
@[inline] def raise (s : Signal) : Run α := fun st => some (.error s, st)

/-- Fails. -/
@[inline] def fail (e : RunError) : Run α := raise (.fail e)

/-- Ends with an answer or fails. -/
@[inline] def ofAnswer : Except RunError α → Run α
  | .ok a => Run.pure a
  | .error e => fail e

/-- Ends with the answer of an operation on values or fails. -/
@[inline] def ofValue : Except ValueError α → Run α
  | .ok a => Run.pure a
  | .error e => fail (.value e)

/-- Reads the store. -/
@[inline] def read (f : Store → α) : Run α := fun st => some (.ok (f st), st)

/-- Changes the store. -/
@[inline] def update (f : Store → α × Store) : Run α := fun st =>
  let (a, st) := f st
  some (.ok a, st)

/-- Changes the store. -/
@[inline] def modify (f : Store → Store) : Run Unit := fun st => some (.ok (), f st)

/-- Takes a step and makes a signal part of the result. -/
@[inline] def attempt (step : Run α) : Run (Except Signal α) := fun st =>
  match step st with
  | none => none
  | some (result, st) => some (.ok result, st)

/-- The value of a value. -/
@[inline] def snapshot (v : Value) : Run Value := read (·.snapshot v)

end Run

end SearchScript
