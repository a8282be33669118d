import SearchScript.Syntax.Basic
import SearchScript.File.Record

/-!
# Values

The values that programs compute with. Data is copied freely. A *cell* is a slot of the store that
holds a value; it stands for whatever the slot holds when it is read. Functions and cells have an
identity, and a function made by a program carries the environment in which it was made.
-/

namespace SearchScript

/-- The types that error messages name. -/
inductive ValueType where
  | boolean
  | number
  | string
  | null
  | list
  | tagsList
  | file
  | function
deriving DecidableEq, Repr

/-- The name of a type. -/
def ValueType.name : ValueType → String
  | boolean => "Boolean"
  | number => "Number"
  | string => "String"
  | null => "Null"
  | list => "List"
  | tagsList => "TagsList"
  | file => "File"
  | function => "Function"

/-- What a list of strings calls itself. -/
inductive ListName where
  | list
  | tagsList
deriving DecidableEq, Repr

/-- The type that a list of strings reports. -/
def ListName.type : ListName → ValueType
  | list => .list
  | tagsList => .tagsList

/-- The function members of a string. -/
inductive TextFunction where
  | padStart
  | startsWith
  | endsWith
  | contains
  | substring
  | matchPattern
deriving DecidableEq, Repr

/-- The function members of a list that apply a predicate to its items. -/
inductive Quantifier where
  | some
  | every
deriving DecidableEq, Repr

namespace Quantifier

/-- How the member is written. -/
def name : Quantifier → String
  | .some => "some"
  | .every => "every"

/-- The answer of the predicate that settles the question. -/
def decisive : Quantifier → Bool
  | .some => true
  | .every => false

end Quantifier

/-- How a program is run: for real, or speculatively to find the completions at an offset. -/
inductive Mode where
  | real
  | speculative (cursor : Nat)
deriving DecidableEq, Repr

/-- What a frame of an environment is: a scope of its own, or a shadow that copies what it reads
from further out. -/
inductive FrameKind where
  | scope
  | shadow
deriving DecidableEq, Repr

/-- A frame of an environment; its names are a table of the store. -/
structure Frame where
  kind : FrameKind
  table : Nat
deriving DecidableEq, Repr

/-- Where names are looked up: frames from the innermost outward, and then a host. -/
structure Env where
  frames : List Frame
  host : Nat
deriving DecidableEq, Repr

/-- What runs: an expression or a statement. -/
inductive Code where
  | expression (e : Expr)
  | statement (s : Statement)

/-- What a piece of a program runs in: the mode and the number of the run, and the environment. -/
structure Context where
  mode : Mode
  run : Nat
  env : Env
deriving DecidableEq, Repr

/-- A function made by a program: what it was made in, its parameters and its body. -/
structure Closure where
  context : Context
  params : List String
  body : Code

mutual

/-- Values. -/
inductive Value where
  | boolean (value : Bool)
  | number (value : Number)
  | string (value : String)
  | null
  | list (items : List Value)
  | stringList (name : ListName) (items : List String)
  | file (record : FileRecord)
  | function (id : Nat) (callable : Callable)
  /-- A type as a function that converts to it. -/
  | constructor (type : TypeName)
  /-- The function that looks files up, if the host can. -/
  | fileConstructor (files : Option FileStore)
  | cell (slot : Nat)

/-- What a function does when it is called. -/
inductive Callable where
  /-- A member of a string. -/
  | text (receiver : String) (function : TextFunction)
  /-- Whether a list of strings holds its argument. -/
  | holds (items : List String)
  /-- A predicate over the items of a list. -/
  | quantifier (quantifier : Quantifier) (items : List Value)
  /-- A function made by a program. -/
  | closure (closure : Closure)
  /-- A function of the host that notes all its arguments and returns the first. -/
  | recorder

end

instance : Inhabited Value := ⟨.null⟩

namespace Value

/-- The type of a value that is no cell. -/
def type : Value → ValueType
  | boolean _ => .boolean
  | number _ => .number
  | string _ => .string
  | null => .null
  | list _ => .list
  | stringList name _ => name.type
  | file _ => .file
  | function _ _ => .function
  | constructor .boolean => .boolean
  | constructor .number => .number
  | constructor .string => .string
  | fileConstructor _ => .file
  | cell _ => .null

/-- The value of a whole number. -/
def ofNat (n : Nat) : Value := number (Number.ofNat n)

mutual

/-- The value that a document stands for. A non-empty array of texts is a list of strings, and an
object has no value. -/
def ofJson : Json → Value
  | .null => null
  | .object _ => null
  | .bool b => boolean b
  | .number n => number n.toNumber
  | .string s => string s
  | .array [] => list []
  | .array (first :: rest) =>
    match (first :: rest).mapM Json.text? with
    | Option.some texts => stringList .list texts
    | none => list (ofJsonItems (first :: rest))

/-- The values of the items of an array. -/
def ofJsonItems : List Json → List Value
  | [] => []
  | item :: rest => ofJson item :: ofJsonItems rest

end

end Value

end SearchScript
