import SearchScript.Parse.Operator
import SearchScript.Proofs.Token.Written
import SearchScript.Syntax.Printer

/-!
# The words of a syntax tree

The tokens that a tree is written with, as pieces of text, parentheses included. The blanks between
them are left to the printer.

## Key definitions

- `Expr.words`, `Statement.words`: the words of trees
- `Expr.turns`: how often the loop of the operators goes round before an expression is read
-/

namespace SearchScript

/-! ## Operators -/

/-- The token that a unary operator is. -/
def UnaryOp.token : UnaryOp → TokenKind
  | plus => .plus
  | negate => .minus
  | not => .bang
  | bitNot => .caret

/-- The token that a binary operator is; for a call and a subscript the opening one. -/
def BinaryOp.token : BinaryOp → TokenKind
  | logicalOr => .logicalOr
  | logicalAnd => .logicalAnd
  | equal => .equal
  | notEqual => .notEqual
  | less => .less
  | lessEqual => .lessEqual
  | greater => .greater
  | greaterEqual => .greaterEqual
  | add => .plus
  | sub => .minus
  | bitOr => .bar
  | bitXor => .caret
  | mul => .times
  | div => .divide
  | rem => .percent
  | shiftLeft => .shiftLeft
  | shiftRight => .shiftRight
  | bitAnd => .ampersand
  | bitAndNot => .andNot
  | member => .period
  | call => .leftParen
  | subscript => .leftBracket
  | group => .comma

/-- The token that an assignment operator is. -/
def AssignOp.token : AssignOp → TokenKind
  | assign => .assign
  | add => .addAssign
  | sub => .subAssign
  | mul => .mulAssign
  | div => .divAssign
  | rem => .remAssign
  | bitAnd => .andAssign
  | bitOr => .orAssign
  | bitXor => .xorAssign
  | shiftLeft => .shiftLeftAssign
  | shiftRight => .shiftRightAssign
  | bitAndNot => .andNotAssign

@[simp] theorem UnaryOp.ofToken?_token (op : UnaryOp) : ofToken? op.token = some op := by
  cases op <;> rfl

@[simp] theorem UnaryOp.describe_token (op : UnaryOp) : op.token.describe = op.spelling := by
  cases op <;> rfl

@[simp] theorem AssignOp.ofToken?_token (op : AssignOp) : ofToken? op.token = some op := by
  cases op <;> rfl

@[simp] theorem AssignOp.describe_token (op : AssignOp) : op.token.describe = op.spelling := by
  cases op <;> rfl

/-- Whether an operator stands behind its left operand and takes no other operand, or one in
brackets or behind a point. -/
def BinaryOp.isSuffix : BinaryOp → Bool
  | member | call | subscript => true
  | _ => false

namespace BinaryOp

variable {op : BinaryOp}

theorem ofToken?_token (h : op.isSuffix = false) : ofToken? op.token = some op := by
  cases op <;> first | rfl | cases h

theorem describe_token (h : op.isSuffix = false) : op.token.describe = op.spelling := by
  cases op <;> first | rfl | cases h

theorem infixDepth?_token (op : BinaryOp) : op.token.infixDepth? = some op.depth := by
  cases op <;> rfl

theorem depth_of_isSuffix (h : op.isSuffix = true) : op.depth = 8 := by
  cases op <;> first | rfl | cases h

theorem two_le_depth (op : BinaryOp) : 2 ≤ op.depth := by
  cases op <;> decide

theorem depth_le (h : op.isSuffix = false) : op.depth ≤ 7 := by
  cases op <;> first | decide | cases h

end BinaryOp

/-! ## Words -/

namespace Piece

/-- A name or a keyword. -/
def word (text : String) : Piece := ⟨.token (TokenKind.ofWord text), text.toList⟩

/-- A number or a text as a literal. -/
def literal (kind : TokenKind) (text : String) : Piece := ⟨.token kind, text.toList⟩

/-- Words put in parentheses when a condition holds. -/
def inParens (condition : Bool) (ws : List Piece) : List Piece :=
  if condition then symbol .leftParen :: (ws ++ [symbol .rightParen]) else ws

/-- The words of parameters. -/
def params (names : List String) : List Piece := (names.map word).intersperse (symbol .comma)

end Piece

open Piece

/-- The words of a statement with the semicolon that its kind of statement ends with. -/
def Statement.terminateWords (s : Statement) (ws : List Piece) : List Piece :=
  if s.endsWithSemicolon then ws ++ [symbol .semicolon] else ws

mutual

/-- The words of an expression. -/
def Expr.words : Expr → List Piece
  | .placeholder _ => []
  | .name _ name => [word name]
  | .typeName _ type => [word type.spelling]
  | .number _ n => [literal .number n.literal]
  | .boolean _ value => [word (if value then "true" else "false")]
  | .string _ value => [literal .string (Quoted.encode value)]
  | .null span => if span.isEmpty then [] else [word "null"]
  | .unary _ op operand => symbol op.token :: inParens (operand.needsParens 8) operand.words
  | .binary _ op left right =>
    inParens (left.needsParens op.depth) left.words ++ symbol op.token ::
      match op with
      | .member => inParens (right.needsParens 9) right.words
      | .call => right.words ++ [symbol .rightParen]
      | .subscript => right.words ++ [symbol .rightBracket]
      | _ => inParens (right.needsParensRight op.depth) right.words
  | .ternary _ condition whenTrue whenFalse =>
    inParens (condition.needsParens 3) condition.words ++ symbol .question ::
      (inParens (whenTrue.needsParensRight 3) whenTrue.words ++ symbol .colon ::
        inParens (whenFalse.needsParensRight 3) whenFalse.words)
  | .lambda _ names body =>
    symbol .lambdaWord :: (params names ++ symbol .colon :: body.words)
  | .function _ names body =>
    symbol .functionWord :: symbol .leftParen ::
      (params names ++ symbol .rightParen :: body.terminateWords body.bareWords)
termination_by structural e => e

/-- The words of a statement without a semicolon of its own. -/
def Statement.bareWords : Statement → List Piece
  | .expression _ value => value.words
  | .assign _ op target value => target.words ++ symbol op.token :: value.words
  | .declare _ name none => [symbol .letWord, word name]
  | .declare _ name (some value) => symbol .letWord :: word name :: symbol .assign :: value.words
  | .leave _ none => [symbol .returnWord]
  | .leave _ (some value) => symbol .returnWord :: value.words
  | .breakLoop _ => [symbol .breakWord]
  | .continueLoop _ => [symbol .continueWord]
  | .empty _ => []
  | .block _ body => symbol .leftBrace :: (Statement.listWords body ++ [symbol .rightBrace])
  | .branch _ condition whenTrue none =>
    symbol .ifWord :: symbol .leftParen :: (condition.words ++ symbol .rightParen ::
      whenTrue.terminateWords whenTrue.bareWords)
  | .branch _ condition whenTrue (some whenFalse) =>
    symbol .ifWord :: symbol .leftParen :: (condition.words ++ symbol .rightParen ::
      (whenTrue.terminateWords whenTrue.bareWords ++ symbol .elseWord ::
        whenFalse.terminateWords whenFalse.bareWords))
  | .forLoop _ initializer condition iterator body =>
    symbol .forWord :: symbol .leftParen :: (Statement.headerWords initializer ++
      symbol .semicolon :: (Expr.optionWords condition ++ symbol .semicolon ::
        (Statement.headerWords iterator ++ symbol .rightParen ::
          body.terminateWords body.bareWords)))
  | .whileLoop _ condition body =>
    symbol .whileWord :: symbol .leftParen :: (condition.words ++ symbol .rightParen ::
      body.terminateWords body.bareWords)
termination_by structural s => s

/-- The words of statements in a row. -/
def Statement.listWords : List Statement → List Piece
  | [] => []
  | s :: rest => s.terminateWords s.bareWords ++ Statement.listWords rest
termination_by structural ss => ss

/-- The words of an optional statement in the header of a loop. -/
def Statement.headerWords : Option Statement → List Piece
  | none => []
  | some s => s.bareWords
termination_by structural s => s

/-- The words of an optional expression. -/
def Expr.optionWords : Option Expr → List Piece
  | none => []
  | some e => e.words
termination_by structural e => e

end

/-- The words of a statement. -/
def Statement.words (s : Statement) : List Piece := s.terminateWords s.bareWords

/-- How often the loop of the operators goes round until an expression is read. -/
def Expr.turns : Expr → Nat
  | .unary _ _ _ => 1
  | .binary _ op left _ => (if left.needsParens op.depth then 0 else left.turns) + 1
  | .ternary _ condition _ _ => (if condition.needsParens 3 then 0 else condition.turns) + 1
  | _ => 0

end SearchScript
