import SearchScript.Value.Coercion
import SearchScript.Number.Word

/-!
# Operators

What the operators do to values that are no cells. The left operand decides which operators there
are; the right one must then be of the same type. Both operands of `&&` and `||` are always taken.
-/

namespace SearchScript

/-- A binary operator on numbers, if there is one. -/
def Number.binary? (op : BinaryOp) (a b : Number) : Option Value :=
  match op with
  | .equal => some (.boolean (a.equal b))
  | .notEqual => some (.boolean (!a.equal b))
  | .less => some (.boolean (a.less b))
  | .lessEqual => some (.boolean (a.lessEqual b))
  | .greater => some (.boolean (b.less a))
  | .greaterEqual => some (.boolean (b.lessEqual a))
  | .add => some (.number (a + b))
  | .sub => some (.number (a - b))
  | .mul => some (.number (a * b))
  | .div => some (.number (a / b))
  | .rem => some (.number (a % b))
  | .bitOr => some (.number (a.bitOr b))
  | .bitXor => some (.number (a.bitXor b))
  | .bitAnd => some (.number (a.bitAnd b))
  | .bitAndNot => some (.number (a.bitAndNot b))
  | .shiftLeft => some (.number (a.shiftLeft b))
  | .shiftRight => some (.number (a.shiftRight b))
  | .logicalOr | .logicalAnd | .member | .call | .subscript | .group => none

/-- Whether numbers have the operator. -/
def BinaryOp.isNumeric : BinaryOp → Bool
  | .logicalOr | .logicalAnd | .member | .call | .subscript | .group => false
  | _ => true

namespace Value

/-- A binary operator on Booleans, if there is one. -/
def booleanBinary? (op : BinaryOp) : Option (Bool → Bool → Bool) :=
  match op with
  | .logicalOr => some (· || ·)
  | .logicalAnd => some (· && ·)
  | .equal => some (· == ·)
  | .notEqual => some (· != ·)
  | _ => none

/-- A binary operator on texts, if there is one. Texts are ordered by their characters. -/
def stringBinary? (op : BinaryOp) : Option (String → String → Value) :=
  match op with
  | .add => some fun a b => string (a ++ b)
  | .equal => some fun a b => boolean (a == b)
  | .notEqual => some fun a b => boolean (a != b)
  | .less => some fun a b => boolean (decide (a < b))
  | .lessEqual => some fun a b => boolean (!decide (b < a))
  | .greater => some fun a b => boolean (decide (b < a))
  | .greaterEqual => some fun a b => boolean (!decide (a < b))
  | _ => none

/-- A binary operator on files, if there is one. Files are compared by their hashes. -/
def fileBinary? (op : BinaryOp) : Option (FileRecord → FileRecord → Bool) :=
  match op with
  | .equal => some fun a b => a.hash == b.hash
  | .notEqual => some fun a b => a.hash != b.hash
  | _ => none

/-- The item at an index of a list; a negative index counts from the end. -/
def itemAt (items : List Value) (index : Number) : Except RunError Value :=
  let index := if index.less 0 then index + Number.ofNat items.length else index
  let item? :=
    match index.toInt? with
    | some (.ofNat n) => items[n]?
    | _ => none
  match item? with
  | some item => .ok item
  | none => .error (.indexNotFound index)

/-- A subscript. -/
def subscript (receiver index : Value) : Except RunError Value :=
  match receiver with
  | list items => do itemAt items (← liftValue index.requireNumber)
  | stringList _ items => do itemAt (items.map string) (← liftValue index.requireNumber)
  | other => .error (.value (.invalidOperation other.type .index))

/-- An operator between two values. -/
def binary (op : BinaryOp) (left right : Value) : Except RunError Value :=
  if op = .subscript then left.subscript right
  else
    let invalid := RunError.value (.invalidOperation left.type (.binary op))
    match left with
    | boolean a =>
      match booleanBinary? op with
      | some f => do .ok (boolean (f a (← liftValue right.requireBoolean)))
      | none => .error invalid
    | number a =>
      if op.isNumeric then do
        match a.binary? op (← liftValue right.requireNumber) with
        | some v => .ok v
        | none => .error invalid
      else .error invalid
    | string a =>
      match stringBinary? op with
      | some f => do .ok (f a (← liftValue right.requireString))
      | none => .error invalid
    | file a =>
      match fileBinary? op with
      | some f => do .ok (boolean (f a (← liftValue right.requireFile)))
      | none => .error invalid
    | _ => .error invalid

/-- The opposite of a number. -/
def negate : Value → Except ValueError Value
  | number n => .ok (number (-n))
  | string s => .ok (number (-Number.read s))
  | other => .error (.invalidOperation other.type .negate)

/-- The opposite truth value. -/
def not : Value → Except ValueError Value
  | boolean b => .ok (boolean !b)
  | number n => .ok (boolean (!isTruthy n))
  | string s => .ok (boolean s.isEmpty)
  | other => .error (.invalidOperation other.type .not)

/-- The bitwise complement. -/
def bitNot : Value → Except ValueError Value
  | number n => .ok (number n.bitNot)
  | string s => .ok (number (Number.read s).bitNot)
  | other => .error (.invalidOperation other.type .bitNot)

end Value

end SearchScript
