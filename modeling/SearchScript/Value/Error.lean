import SearchScript.Value.Basic
import SearchScript.Parse.Error
import SearchScript.Number.Notation

/-!
# What can go wrong in a run

The errors of operations on values, the errors of runs, and what they say.
-/

namespace SearchScript

/-- The operations that a type may not support. -/
inductive Operation where
  | negate
  | not
  | bitNot
  | binary (op : BinaryOp)
  | index
  | call
  | assign
deriving DecidableEq, Repr

/-- The name of an operation. -/
def Operation.name : Operation → String
  | negate => "negate"
  | not => "not"
  | bitNot => "bitNot"
  | index => "index"
  | call => "call"
  | assign => "assign"
  | binary op =>
    match op with
    | .logicalOr => "logicalOr"
    | .logicalAnd => "logicalAnd"
    | .equal => "equal"
    | .notEqual => "notEqual"
    | .less => "lesser"
    | .lessEqual => "lesserEqual"
    | .greater => "greater"
    | .greaterEqual => "greaterEqual"
    | .add => "add"
    | .sub => "sub"
    | .bitOr => "or"
    | .bitXor => "xor"
    | .mul => "mul"
    | .div => "div"
    | .rem => "rem"
    | .shiftLeft => "lsh"
    | .shiftRight => "rsh"
    | .bitAnd => "and"
    | .bitAndNot => "andNot"
    | .member => "dot"
    | .call => "call"
    | .subscript => "index"
    | .group => "group"

/-- An error of an operation on values. -/
inductive ValueError where
  | noSuchMember (type : ValueType) (member : String)
  | invalidOperation (type : ValueType) (operation : Operation)
  | typeMismatch (expected found : ValueType)
  | invalidConversion (source target : ValueType)
deriving DecidableEq, Repr

/-- What the error says. -/
def ValueError.message : ValueError → String
  | noSuchMember type member => "Type " ++ type.name ++ " has no member " ++ member
  | invalidOperation type operation =>
    "Operation " ++ operation.name ++ " is invalid for type " ++ type.name
  | typeMismatch expected found =>
    "Expected type " ++ expected.name ++ ", but found " ++ found.name ++ "."
  | invalidConversion source target =>
    "Can not convert from type " ++ source.name ++ " to " ++ target.name ++ "."

/-- An error that ends a run. -/
inductive RunError where
  /-- The program text could not be read. -/
  | parse (error : ParseError)
  /-- An operation on values failed. -/
  | value (error : ValueError)
  /-- No environment knows the name. -/
  | noSuchValue (name : String)
  | breakOutsideLoop
  | continueOutsideLoop
  /-- A member function lacks an argument. -/
  | missingArgument (index : Nat)
  /-- A type was called without an argument. -/
  | missingConstructorArgument (type : ValueType)
  | indexNotFound (index : Number)
  | missingPredicate (quantifier : Quantifier)
  /-- A predicate answered something else than a Boolean. -/
  | predicateResult (found : ValueType)
  /-- The pattern of a match is no regular expression. -/
  | invalidPattern (pattern : String)
  /-- A string would grow past the limit. -/
  | invalidStringLength
  | expectedMemberName
  /-- A function made in a real run was called speculatively. -/
  | speculativeCall
  /-- A function made speculatively was called for real. -/
  | realCall
  | fileIdNotFound (id : Number)
  | fileHashNotFound (hash : String)
  | fileArgument (found : ValueType)
  /-- The host looks no files up. -/
  | noFileLookup
  /-- A program that is still being typed was run for real. -/
  | placeholder
  /-- A sort key is neither a number nor a string. -/
  | sortKey (found : ValueType)
deriving DecidableEq

/-- What the error says. -/
def RunError.message : RunError → String
  | parse e => e.message
  | value e => e.message
  | noSuchValue name => "No such value " ++ name
  | breakOutsideLoop => "Unexpected break outside of loop"
  | continueOutsideLoop => "Unexpected continue outside of loop"
  | missingArgument index => "Required argument " ++ Nat.repr index ++ " missing"
  | missingConstructorArgument type => "Missing argument in " ++ type.name ++ "() call"
  | indexNotFound index => "Index " ++ index.format ++ " not found in List"
  | missingPredicate quantifier => "List." ++ quantifier.name ++ " requires an argument"
  | predicateResult found => "Expected boolean value from predicate, got " ++ found.name
  | invalidPattern pattern => "Invalid regular expression " ++ pattern
  | invalidStringLength => "Invalid string length"
  | expectedMemberName => "Expected identifier after dot operator"
  | speculativeCall => "Unexpected speculative execution of runtime procedure"
  | realCall => "Unexpected real execution of speculative procedure"
  | fileIdNotFound id => "File ID " ++ id.format ++ " not found"
  | fileHashNotFound hash => "File hash " ++ hash ++ " not found"
  | fileArgument found => "Unexpected argument type " ++ found.name ++ " to File constructor"
  | noFileLookup => "No file lookup is available"
  | placeholder => "Cannot evaluate an incomplete expression"
  | sortKey found => "Expected comparator to return number or string (got " ++ found.name ++ ")"

/-- What an operation on values answers, as the answer of a run. -/
def liftValue {α : Type} : Except ValueError α → Except RunError α
  | .ok a => .ok a
  | .error e => .error (.value e)

end SearchScript
