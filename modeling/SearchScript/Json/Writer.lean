import SearchScript.Json.Basic
import SearchScript.Number.Notation
import SearchScript.Text.Quoted

/-!
# Writing JSON

A document on one line without spaces, or over several lines with an indentation of two spaces.
-/

namespace SearchScript

/-- Doubles in documents are written positionally from a hundred-thousandth up to `10 ^ 16`, always
with a point, and a tie goes to the even digit. -/
def Number.documentNotation : Number.Notation where
  plainFrom := -5
  plainBelow := 16
  pointZero := true
  tie := .toEven

/-- The text of a double in a document; what is not finite has no number there. -/
def Number.documentText : Number → String
  | .finite negative units _ =>
    let digits := documentNotation.magnitude units
    String.ofList (if negative then '-' :: digits else digits)
  | _ => "null"

/-- The text of a number. -/
def JsonNumber.text : JsonNumber → String
  | natural n => Nat.repr n
  | negative n => "-" ++ Nat.repr n
  | double x => x.documentText

mutual

/-- The document on one line. -/
def Json.compact : Json → String
  | .null => "null"
  | .bool b => if b then "true" else "false"
  | .number n => n.text
  | .string s => Quoted.encode s
  | .array items => "[" ++ Json.compactItems items ++ "]"
  | .object members => "\x7b" ++ Json.compactMembers members ++ "\x7d"

/-- The items of an array with commas between them. -/
def Json.compactItems : List Json → String
  | [] => ""
  | [item] => item.compact
  | item :: rest => item.compact ++ "," ++ Json.compactItems rest

/-- The members of an object with commas between them. -/
def Json.compactMembers : List (String × Json) → String
  | [] => ""
  | [(name, value)] => Quoted.encode name ++ ":" ++ value.compact
  | (name, value) :: rest =>
    Quoted.encode name ++ ":" ++ value.compact ++ "," ++ Json.compactMembers rest

end

/-- A line feed and the indentation of a level. -/
def Json.newLine (level : Nat) : String :=
  String.ofList ('\n' :: List.replicate (2 * level) ' ')

mutual

/-- The document over several lines, starting on a line of some level. -/
def Json.prettyAt (level : Nat) : Json → String
  | .array [] => "[]"
  | .array (item :: rest) =>
    "[" ++ Json.prettyItems (level + 1) (item :: rest) ++ Json.newLine level ++ "]"
  | .object [] => "\x7b\x7d"
  | .object (member :: rest) =>
    "\x7b" ++ Json.prettyMembers (level + 1) (member :: rest) ++ Json.newLine level ++ "\x7d"
  | .null => "null"
  | .bool b => if b then "true" else "false"
  | .number n => n.text
  | .string s => Quoted.encode s

/-- The items of an array, each on lines of its own. -/
def Json.prettyItems (level : Nat) : List Json → String
  | [] => ""
  | [item] => Json.newLine level ++ item.prettyAt level
  | item :: rest =>
    Json.newLine level ++ item.prettyAt level ++ "," ++ Json.prettyItems level rest

/-- The members of an object, each on lines of its own. -/
def Json.prettyMembers (level : Nat) : List (String × Json) → String
  | [] => ""
  | [(name, value)] => Json.newLine level ++ Quoted.encode name ++ ": " ++ value.prettyAt level
  | (name, value) :: rest =>
    Json.newLine level ++ Quoted.encode name ++ ": " ++ value.prettyAt level ++ "," ++
      Json.prettyMembers level rest

end

/-- The document over several lines. -/
def Json.pretty (json : Json) : String := json.prettyAt 0

end SearchScript
