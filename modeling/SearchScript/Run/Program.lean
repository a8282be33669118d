import SearchScript.Run.Walk
import SearchScript.Parse.Program

/-!
# Whole runs

A run evaluates a program in a new scope over an environment, or looks for the completions at a
cursor behind a new shadow of it. Either way the frames that it opened are emptied at its end, and
what it did to cells outside of it stays.
-/

namespace SearchScript

namespace Code

/-- Evaluates a program. There is no result if it takes more than `fuel` nested steps. -/
def evaluate (fuel : Nat) (env : Env) (code : Code) (st : Store) :
    Option (Except RunError Value × Store) :=
  let (run, st) := st.beginRun
  let (env, st) := st.openFrame run .scope [] env
  match Walk.code fuel ⟨.real, run, env⟩ code st with
  | none => none
  | some (result, st) =>
    match Walk.realOutcome result with
    | .ok v => some (.ok (st.snapshot v), st.endRun)
    | .error e => some (.error e, st.endRun)

/-- Runs a program speculatively behind a new shadow. -/
def speculate (fuel : Nat) (ctx : Context) (code : Code) : Run Value := do
  let ctx ← Walk.behindShadow ctx
  Walk.settleSpeculative (Walk.code fuel ctx code)

/-- Looks for the completions at a cursor. There are none if the run ends without coming to it. -/
def complete (fuel : Nat) (env : Env) (cursor : Nat) (code : Code) (st : Store) :
    Option (Except RunError (Option Suggestions) × Store) :=
  let (run, st) := st.beginRun
  match speculate fuel ⟨.speculative cursor, run, env⟩ code st with
  | none => none
  | some (.error (.suggest found), st) => some (.ok (some found), st.endRun)
  | some (.error (.fail e), st) => some (.error e, st.endRun)
  | some (_, st) => some (.ok none, st.endRun)

/-- Reads a program text as an expression or as a script. -/
def parse (mode : ParseMode) (isScript : Bool) (source : String) : Except ParseError Code :=
  if isScript then (Statement.parseScript mode source).map .statement
  else (Expr.parse mode source).map .expression

end Code

end SearchScript
