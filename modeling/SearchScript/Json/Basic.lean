import SearchScript.Number.Basic
import SearchScript.Table

/-!
# JSON documents

Documents as they are written: numbers keep whether they were whole, and objects keep the order of
their members and repeated names. `Json.canonical` is the reading of objects as maps, with sorted
names of which the last mention counts.
-/

namespace SearchScript

/-- A number in a document: a natural number of 64 bits, the negative of a positive one, or a
double. -/
inductive JsonNumber where
  | natural (n : Nat)
  | negative (n : Nat)
  | double (x : Number)
deriving DecidableEq

/-- A document. -/
inductive Json where
  | null
  | bool (value : Bool)
  | number (value : JsonNumber)
  | string (value : String)
  | array (items : List Json)
  | object (members : List (String × Json))

instance : Inhabited Json := ⟨.null⟩

/-- The number that a document's number stands for. -/
def JsonNumber.toNumber : JsonNumber → Number
  | natural n => Number.ofNat n
  | negative n => Number.ofInt (-(n : Int))
  | double x => x

/-- The text that a document is, if it is one. -/
def Json.text? : Json → Option String
  | .string s => some s
  | _ => none

mutual

/-- The document with the members of all objects sorted and without repetition. -/
def Json.canonical : Json → Json
  | .null => .null
  | .bool b => .bool b
  | .number n => .number n
  | .string s => .string s
  | .array items => .array (Json.canonicalItems items)
  | .object members => .object (Table.ofEntries (Json.canonicalMembers members))

/-- The canonical forms of the items of an array. -/
def Json.canonicalItems : List Json → List Json
  | [] => []
  | item :: rest => item.canonical :: Json.canonicalItems rest

/-- The members of an object with canonical values. -/
def Json.canonicalMembers : List (String × Json) → List (String × Json)
  | [] => []
  | (name, value) :: rest => (name, value.canonical) :: Json.canonicalMembers rest

end

end SearchScript
