import SearchScript.Span
import SearchScript.Number.Basic

/-!
# Syntax trees

Expressions and statements with the spans they were read from. A script is a block. An argument
list is one expression: a single argument, or a group made with commas, or, for a call without
arguments, a `null` of no width.
-/

namespace SearchScript

/-- The type names that are values of their own. -/
inductive TypeName where
  | boolean
  | number
  | string
deriving DecidableEq, Repr

/-- How a type name is written. -/
def TypeName.spelling : TypeName → String
  | boolean => "Boolean"
  | number => "Number"
  | string => "String"

/-- The operators in front of one operand. -/
inductive UnaryOp where
  | plus
  | negate
  | not
  | bitNot
deriving DecidableEq, Repr

/-- How a unary operator is written. -/
def UnaryOp.spelling : UnaryOp → String
  | plus => "+"
  | negate => "-"
  | not => "!"
  | bitNot => "^"

/-- The operators between two operands, with member access, calls, subscripts and the comma among
them. -/
inductive BinaryOp where
  | logicalOr
  | logicalAnd
  | equal
  | notEqual
  | less
  | lessEqual
  | greater
  | greaterEqual
  | add
  | sub
  | bitOr
  | bitXor
  | mul
  | div
  | rem
  | shiftLeft
  | shiftRight
  | bitAnd
  | bitAndNot
  | member
  | call
  | subscript
  | group
deriving DecidableEq, Repr

namespace BinaryOp

/-- How tightly an operator binds: from 8 for the suffixes down to 2 for the comma. -/
def depth : BinaryOp → Nat
  | member | call | subscript => 8
  | mul | div | rem | shiftLeft | shiftRight | bitAnd | bitAndNot => 7
  | add | sub | bitOr | bitXor => 6
  | equal | notEqual | less | lessEqual | greater | greaterEqual => 5
  | logicalAnd => 4
  | logicalOr => 3
  | group => 2

/-- How a binary operator is written; the brackets of a call or a subscript stand for the pair. -/
def spelling : BinaryOp → String
  | logicalOr => "||"
  | logicalAnd => "&&"
  | equal => "=="
  | notEqual => "!="
  | less => "<"
  | lessEqual => "<="
  | greater => ">"
  | greaterEqual => ">="
  | add => "+"
  | sub => "-"
  | bitOr => "|"
  | bitXor => "^"
  | mul => "*"
  | div => "/"
  | rem => "%"
  | shiftLeft => "<<"
  | shiftRight => ">>"
  | bitAnd => "&"
  | bitAndNot => "&^"
  | member => "."
  | call => "()"
  | subscript => "[]"
  | group => ","

end BinaryOp

/-- The assignment operators: plain, or compound with a binary operator. -/
inductive AssignOp where
  | assign
  | add
  | sub
  | mul
  | div
  | rem
  | bitAnd
  | bitOr
  | bitXor
  | shiftLeft
  | shiftRight
  | bitAndNot
deriving DecidableEq, Repr

namespace AssignOp

/-- How an assignment operator is written. -/
def spelling : AssignOp → String
  | assign => "="
  | add => "+="
  | sub => "-="
  | mul => "*="
  | div => "/="
  | rem => "%="
  | bitAnd => "&="
  | bitOr => "|="
  | bitXor => "^="
  | shiftLeft => "<<="
  | shiftRight => ">>="
  | bitAndNot => "&^="

/-- The operator that a compound assignment applies before it stores. -/
def binaryOp? : AssignOp → Option BinaryOp
  | assign => none
  | add => some .add
  | sub => some .sub
  | mul => some .mul
  | div => some .div
  | rem => some .rem
  | bitAnd => some .bitAnd
  | bitOr => some .bitOr
  | bitXor => some .bitXor
  | shiftLeft => some .shiftLeft
  | shiftRight => some .shiftRight
  | bitAndNot => some .bitAndNot

end AssignOp

mutual

/-- Expressions. -/
inductive Expr where
  /-- A missing expression in a program that is still being typed. -/
  | placeholder (span : Span)
  | name (span : Span) (name : String)
  | typeName (span : Span) (type : TypeName)
  | number (span : Span) (value : Number)
  | boolean (span : Span) (value : Bool)
  | string (span : Span) (value : String)
  | null (span : Span)
  | unary (span : Span) (op : UnaryOp) (operand : Expr)
  | binary (span : Span) (op : BinaryOp) (left right : Expr)
  | ternary (span : Span) (condition whenTrue whenFalse : Expr)
  | lambda (span : Span) (params : List String) (body : Expr)
  | function (span : Span) (params : List String) (body : Statement)

/-- Statements. -/
inductive Statement where
  | expression (span : Span) (value : Expr)
  | assign (span : Span) (op : AssignOp) (target value : Expr)
  | declare (span : Span) (name : String) (initializer : Option Expr)
  | leave (span : Span) (value : Option Expr)
  | breakLoop (span : Span)
  | continueLoop (span : Span)
  | block (span : Span) (body : List Statement)
  | branch (span : Span) (condition : Expr) (whenTrue : Statement) (whenFalse : Option Statement)
  | forLoop (span : Span) (initializer : Option Statement) (condition : Option Expr)
      (iterator : Option Statement) (body : Statement)
  | whileLoop (span : Span) (condition : Expr) (body : Statement)
  | empty (span : Span)

end

instance : Inhabited Expr := ⟨.placeholder default⟩

instance : Inhabited Statement := ⟨.empty default⟩

namespace Expr

/-- The span that an expression was read from. -/
def span : Expr → Span
  | placeholder s | name s _ | typeName s _ | number s _ | boolean s _ | string s _ | null s
  | unary s _ _ | binary s _ _ _ | ternary s _ _ _ | lambda s _ _ | function s _ _ => s

/-- A binary expression that spans both operands. -/
def join (op : BinaryOp) (left right : Expr) : Expr :=
  binary (left.span.merge right.span) op left right

/-- Whether the expression is the `null` of no width that stands for no arguments. -/
def isNoArguments : Expr → Bool
  | null s => s.isEmpty
  | _ => false

/-- The parts of a group, from left to right; an expression that is no group is its only part. -/
def parts : Expr → List Expr
  | binary _ .group left right => left.parts ++ right.parts
  | e => [e]

/-- How tightly an expression binds when it stands inside another one. -/
def precedence : Expr → Nat
  | number _ n => if n.isNegative then 7 else 9
  | placeholder _ | name _ _ | typeName _ _ | boolean _ _ | string _ _ | null _ => 9
  | unary _ _ _ => 7
  | binary _ op _ _ => op.depth
  | ternary _ _ _ _ => 3
  | lambda _ _ _ | function _ _ _ => 1

/-- Whether the written expression starts with a prefix operator. -/
def startsWithSign : Expr → Bool
  | unary _ _ _ => true
  | number _ n => n.isNegative
  | _ => false

end Expr

namespace Statement

/-- The span that a statement was read from. -/
def span : Statement → Span
  | expression s _ | assign s _ _ _ | declare s _ _ | leave s _ | breakLoop s | continueLoop s
  | block s _ | branch s _ _ _ | forLoop s _ _ _ _ | whileLoop s _ _ | empty s => s

/-- An expression used as a statement. -/
def ofExpr (e : Expr) : Statement := expression e.span e

/-- Whether the statement is written with a semicolon at its end. -/
def endsWithSemicolon : Statement → Bool
  | expression _ _ | assign _ _ _ _ | declare _ _ _ | leave _ _ | breakLoop _ | continueLoop _
  | empty _ => true
  | block _ _ | branch _ _ _ _ | forLoop _ _ _ _ _ | whileLoop _ _ _ => false

end Statement

end SearchScript
