import SearchScript.Token.Basic
import SearchScript.Syntax.Basic

/-!
# Operator tokens

Which operators the tokens stand for, in front of an operand, between two, and in an assignment.
-/

namespace SearchScript

/-- The operator that a token is in front of an operand. -/
def UnaryOp.ofToken? : TokenKind → Option UnaryOp
  | .plus => some .plus
  | .minus => some .negate
  | .bang => some .not
  | .caret => some .bitNot
  | _ => none

/-- The operator that a token is between two operands; the suffixes are not among them. -/
def BinaryOp.ofToken? : TokenKind → Option BinaryOp
  | .times => some .mul
  | .divide => some .div
  | .percent => some .rem
  | .shiftLeft => some .shiftLeft
  | .shiftRight => some .shiftRight
  | .ampersand => some .bitAnd
  | .andNot => some .bitAndNot
  | .plus => some .add
  | .minus => some .sub
  | .bar => some .bitOr
  | .caret => some .bitXor
  | .equal => some .equal
  | .notEqual => some .notEqual
  | .less => some .less
  | .lessEqual => some .lessEqual
  | .greater => some .greater
  | .greaterEqual => some .greaterEqual
  | .logicalAnd => some .logicalAnd
  | .logicalOr => some .logicalOr
  | .comma => some .group
  | _ => none

/-- The assignment operator that a token is. -/
def AssignOp.ofToken? : TokenKind → Option AssignOp
  | .assign => some .assign
  | .addAssign => some .add
  | .subAssign => some .sub
  | .mulAssign => some .mul
  | .divAssign => some .div
  | .remAssign => some .rem
  | .andAssign => some .bitAnd
  | .orAssign => some .bitOr
  | .xorAssign => some .bitXor
  | .shiftLeftAssign => some .shiftLeft
  | .shiftRightAssign => some .shiftRight
  | .andNotAssign => some .bitAndNot
  | _ => none

/-- The depth at which a token that stands behind an operand is recognised. -/
def TokenKind.infixDepth? (kind : TokenKind) : Option Nat :=
  match kind with
  | .period | .leftParen | .leftBracket => some 8
  | .question => some 3
  | _ => (BinaryOp.ofToken? kind).map BinaryOp.depth

end SearchScript
