import SearchScript.Value.Coercion
import SearchScript.Text.Search
import SearchScript.Pattern.Match

/-!
# Function members of strings

Lengths and positions count characters. The arguments are values that are no cells.
-/

namespace SearchScript

-- powers are those of the core library, whatever else is imported
attribute [local instance (high)] instPowNat

/-- The argument at an index. -/
def argument (args : List Value) (index : Nat) : Except RunError Value :=
  match args[index]? with
  | some arg => .ok arg
  | none => .error (.missingArgument index)

/-- The text that the argument at an index must be. -/
def stringArgument (args : List Value) (index : Nat) : Except RunError String := do
  liftValue (← argument args index).requireString

/-- The number that the argument at an index must be. -/
def numberArgument (args : List Value) (index : Nat) : Except RunError Number := do
  liftValue (← argument args index).requireNumber

namespace TextFunction

/-- The longest text that padding may build. -/
def maxLength : Nat := 2 ^ (29 : Nat)

/-- The first `n` characters of a text that is repeated forever. -/
def cycle (fill : List Char) (n : Nat) : List Char :=
  (List.replicate (n / fill.length + 1) fill).flatten.take n

/-- A text with a filling in front that brings it to a length. -/
def pad (text fill : List Char) (target : Number) : Except RunError (List Char) :=
  let length := text.length
  if target.isNaN || target.lessEqual (Number.ofNat length) || fill.isEmpty then .ok text
  else if (Number.ofNat maxLength).less target then .error .invalidStringLength
  else
    let missing := target.clampToNat maxLength - length
    .ok (cycle fill missing ++ text)

/-- The characters between two positions, which may stand in any order and lie out of range. -/
def slice (text : List Char) (start stop : Nat) : List Char :=
  (text.take (max start stop)).drop (min start stop)

/-- What a function member of a text answers. -/
def apply (function : TextFunction) (text : String) (args : List Value) :
    Except RunError Value :=
  match function with
  | .padStart => do
    let target ← numberArgument args 0
    let fill ← if args.length < 2 then .ok " " else stringArgument args 1
    .ok (.string (String.ofList (← pad text.toList fill.toList target)))
  | .startsWith => do .ok (.boolean (Text.startsWith text (← stringArgument args 0)))
  | .endsWith => do .ok (.boolean (Text.endsWith text (← stringArgument args 0)))
  | .contains => do .ok (.boolean (Text.contains text (← stringArgument args 0)))
  | .substring => do
    let length := text.length
    let start := (← numberArgument args 0).clampToNat length
    let stop ←
      if args.length < 2 then .ok length
      else do .ok ((← numberArgument args 1).clampToNat length)
    .ok (.string (String.ofList (slice text.toList start stop)))
  | .matchPattern => do
    let pattern ← stringArgument args 0
    match Pattern.test? pattern text with
    | some answer => .ok (.boolean answer)
    | none => .error (.invalidPattern pattern)

end TextFunction

end SearchScript
