import SearchScript.Run.Walk

/-!
# The steps of a loop

A real run goes through a loop in rounds: if the condition holds, the body, and unless that ends the
loop, the iterator and the next round. A speculative run goes through the body once. Here the steps
have names, so that what holds of each of them can be said.

## Key definitions

- `Walk.loop`: a loop behind its initializer
- `Walk.round`, `Walk.nextRound`: what follows the condition, and what follows the body
-/

namespace SearchScript.Walk

variable (fuel : Nat) (ctx : Context) (condition : Option Expr) (iterator : Option Statement)
  (body : Statement)

/-- A loop behind its initializer. -/
def loop : Run Value :=
  match ctx.mode with
  | .real => rounds fuel ctx condition iterator body
  | .speculative _ => oneRound fuel ctx body

/-- The iterator, and then the rounds that are left. -/
def nextRound : Run Value := do
  match iterator with
  | some s => let _ ← statement fuel ctx s
  | none => pure ()
  rounds fuel ctx condition iterator body

/-- A round if the condition holds, which is the end of the loop if it does not. -/
def round (goesOn : Bool) : Run Value :=
  if goesOn then do
    match ← Run.attempt (statement fuel ctx body) with
    | .error .breakLoop => pure .null
    | .ok _ | .error .continueLoop => nextRound fuel ctx condition iterator body
    | .error s => Run.raise s
  else pure .null

theorem rounds_none :
    rounds (fuel + 1) ctx none iterator body = round fuel ctx none iterator body true := rfl

theorem rounds_some (e : Expr) : rounds (fuel + 1) ctx (some e) iterator body =
    truth fuel ctx e >>= round fuel ctx (some e) iterator body := rfl

end SearchScript.Walk
