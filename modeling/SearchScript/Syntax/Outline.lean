import SearchScript.Syntax.Basic
import SearchScript.Number.Notation
import SearchScript.Text.Quoted

/-!
# Outlines of syntax trees

A tree written out in full: for each node its kind, its span, its own data and its parts, in
parentheses and separated by single blanks. Nothing of the tree is lost, as it is in the source
text. A part that is absent is written as an underscore.
-/

namespace SearchScript

/-- The text of a number in which the two zeros differ. -/
def Number.exactText (n : Number) : String :=
  if n.isZero && n.isNegative then "-0" else n.format

namespace Outline

/-- The outline of a node. -/
def node (kind : String) (span : Span) (parts : List String) : String :=
  "(" ++ " ".intercalate (kind :: Nat.repr span.start :: Nat.repr span.stop :: parts) ++ ")"

/-- The names of parameters in brackets. -/
def params (names : List String) : String :=
  "[" ++ " ".intercalate (names.map Quoted.encode) ++ "]"

end Outline

mutual

/-- The outline of an expression. -/
def Expr.outline : Expr → String
  | .placeholder span => Outline.node "placeholder" span []
  | .name span name => Outline.node "ident" span [Quoted.encode name]
  | .typeName span type => Outline.node "keyword" span [type.spelling]
  | .number span n => Outline.node "number" span [n.exactText]
  | .boolean span value => Outline.node "boolean" span [if value then "true" else "false"]
  | .string span value => Outline.node "string" span [Quoted.encode value]
  | .null span => Outline.node "null" span []
  | .unary span op operand => Outline.node "unary" span [op.spelling, operand.outline]
  | .binary span op left right =>
    Outline.node "binary" span [op.spelling, left.outline, right.outline]
  | .ternary span condition whenTrue whenFalse =>
    Outline.node "ternary" span [condition.outline, whenTrue.outline, whenFalse.outline]
  | .lambda span names body => Outline.node "lambda" span [Outline.params names, body.outline]
  | .function span names body => Outline.node "function" span [Outline.params names, body.outline]
termination_by structural e => e

/-- The outline of a statement. -/
def Statement.outline : Statement → String
  | .expression span value => Outline.node "expression" span [value.outline]
  | .assign span op target value =>
    Outline.node "assign" span [op.spelling, target.outline, value.outline]
  | .declare span name initializer =>
    Outline.node "let" span [Quoted.encode name, Expr.optionOutline initializer]
  | .leave span value => Outline.node "return" span [Expr.optionOutline value]
  | .breakLoop span => Outline.node "break" span []
  | .continueLoop span => Outline.node "continue" span []
  | .block span body => Outline.node "block" span (Statement.outlines body)
  | .branch span condition whenTrue whenFalse =>
    Outline.node "if" span
      [condition.outline, whenTrue.outline, Statement.optionOutline whenFalse]
  | .forLoop span initializer condition iterator body =>
    Outline.node "for" span
      [Statement.optionOutline initializer, Expr.optionOutline condition,
        Statement.optionOutline iterator, body.outline]
  | .whileLoop span condition body =>
    Outline.node "while" span [condition.outline, body.outline]
  | .empty span => Outline.node "empty" span []
termination_by structural s => s

/-- The outlines of statements. -/
def Statement.outlines : List Statement → List String
  | [] => []
  | s :: rest => s.outline :: Statement.outlines rest
termination_by structural ss => ss

/-- The outline of an optional statement. -/
def Statement.optionOutline : Option Statement → String
  | none => "_"
  | some s => s.outline
termination_by structural s => s

/-- The outline of an optional expression. -/
def Expr.optionOutline : Option Expr → String
  | none => "_"
  | some e => e.outline
termination_by structural e => e

end

end SearchScript
