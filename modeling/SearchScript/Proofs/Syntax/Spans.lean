import SearchScript.Proofs.Syntax.Nodes

/-!
# Trees without their spans

What is left of a tree when it is forgotten where its parts were read. Only whether a `null` stands
for no arguments, which its span says, is kept.
-/

namespace SearchScript

/-- A span that says of a `null` only whether it has a width. -/
def Span.emptiness (s : Span) : Span := if s.isEmpty then .empty 0 else ⟨0, 1⟩

mutual

/-- An expression without its spans. -/
@[grind =] def Expr.withoutSpans : Expr → Expr
  | .placeholder _ => .placeholder default
  | .name _ name => .name default name
  | .typeName _ type => .typeName default type
  | .number _ value => .number default value
  | .boolean _ value => .boolean default value
  | .string _ value => .string default value
  | .null span => .null span.emptiness
  | .unary _ op operand => .unary default op operand.withoutSpans
  | .binary _ op left right => .binary default op left.withoutSpans right.withoutSpans
  | .ternary _ condition whenTrue whenFalse =>
    .ternary default condition.withoutSpans whenTrue.withoutSpans whenFalse.withoutSpans
  | .lambda _ params body => .lambda default params body.withoutSpans
  | .function _ params body => .function default params body.withoutSpans
termination_by structural e => e

/-- A statement without its spans. -/
@[grind =] def Statement.withoutSpans : Statement → Statement
  | .expression _ value => .expression default value.withoutSpans
  | .assign _ op target value => .assign default op target.withoutSpans value.withoutSpans
  | .declare _ name initializer => .declare default name (Expr.optionWithoutSpans initializer)
  | .leave _ value => .leave default (Expr.optionWithoutSpans value)
  | .breakLoop _ => .breakLoop default
  | .continueLoop _ => .continueLoop default
  | .block _ body => .block default (Statement.listWithoutSpans body)
  | .branch _ condition whenTrue whenFalse =>
    .branch default condition.withoutSpans whenTrue.withoutSpans
      (Statement.optionWithoutSpans whenFalse)
  | .forLoop _ initializer condition iterator body =>
    .forLoop default (Statement.optionWithoutSpans initializer) (Expr.optionWithoutSpans condition)
      (Statement.optionWithoutSpans iterator) body.withoutSpans
  | .whileLoop _ condition body => .whileLoop default condition.withoutSpans body.withoutSpans
  | .empty _ => .empty default
termination_by structural s => s

/-- Statements without their spans. -/
def Statement.listWithoutSpans : List Statement → List Statement
  | [] => []
  | s :: rest => s.withoutSpans :: Statement.listWithoutSpans rest
termination_by structural ss => ss

/-- An optional statement without its spans. -/
def Statement.optionWithoutSpans : Option Statement → Option Statement
  | none => none
  | some s => some s.withoutSpans
termination_by structural s => s

/-- An optional expression without its spans. -/
def Expr.optionWithoutSpans : Option Expr → Option Expr
  | none => none
  | some e => some e.withoutSpans
termination_by structural e => e

end

/-- A program without its spans. -/
def Code.withoutSpans : Code → Code
  | .expression e => .expression e.withoutSpans
  | .statement s => .statement s.withoutSpans

end SearchScript
