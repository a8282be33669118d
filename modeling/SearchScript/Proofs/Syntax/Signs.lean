import SearchScript.Proofs.Syntax.Spans

/-!
# Trees up to the signs of their literals

A negative number is written as a literal with a sign or as the negation of one without. Where the
two count as the same, the negation of a literal becomes the literal of the opposite number when the
spans of a tree are forgotten.

## Key definitions

- `Expr.reduced fold`: an expression without its spans, with the signs folded in if `fold` says so
- `Code.reduced fold`: a program likewise
-/

namespace SearchScript

/-- A unary operator and its operand; a literal behind a minus is folded if `fold` says so. -/
def Expr.reducedUnary (fold : Bool) (op : UnaryOp) (operand : Expr) : Expr :=
  match fold, op, operand with
  | true, .negate, .number _ value => .number default value.neg
  | _, op, operand => .unary default op operand

mutual

/-- An expression without its spans, with the signs of its literals folded in if `fold` says so. -/
def Expr.reduced (fold : Bool) : Expr → Expr
  | .placeholder _ => .placeholder default
  | .name _ name => .name default name
  | .typeName _ type => .typeName default type
  | .number _ value => .number default value
  | .boolean _ value => .boolean default value
  | .string _ value => .string default value
  | .null span => .null span.emptiness
  | .unary _ op operand => Expr.reducedUnary fold op (operand.reduced fold)
  | .binary _ op left right => .binary default op (left.reduced fold) (right.reduced fold)
  | .ternary _ condition whenTrue whenFalse =>
    .ternary default (condition.reduced fold) (whenTrue.reduced fold) (whenFalse.reduced fold)
  | .lambda _ params body => .lambda default params (body.reduced fold)
  | .function _ params body => .function default params (body.reduced fold)
termination_by structural e => e

/-- A statement without its spans, with the signs of its literals folded in if `fold` says so. -/
def Statement.reduced (fold : Bool) : Statement → Statement
  | .expression _ value => .expression default (value.reduced fold)
  | .assign _ op target value => .assign default op (target.reduced fold) (value.reduced fold)
  | .declare _ name initializer => .declare default name (Expr.optionReduced fold initializer)
  | .leave _ value => .leave default (Expr.optionReduced fold value)
  | .breakLoop _ => .breakLoop default
  | .continueLoop _ => .continueLoop default
  | .block _ body => .block default (Statement.listReduced fold body)
  | .branch _ condition whenTrue whenFalse =>
    .branch default (condition.reduced fold) (whenTrue.reduced fold)
      (Statement.optionReduced fold whenFalse)
  | .forLoop _ initializer condition iterator body =>
    .forLoop default (Statement.optionReduced fold initializer) (Expr.optionReduced fold condition)
      (Statement.optionReduced fold iterator) (body.reduced fold)
  | .whileLoop _ condition body => .whileLoop default (condition.reduced fold) (body.reduced fold)
  | .empty _ => .empty default
termination_by structural s => s

/-- Statements without their spans, folded if `fold` says so. -/
def Statement.listReduced (fold : Bool) : List Statement → List Statement
  | [] => []
  | s :: rest => s.reduced fold :: Statement.listReduced fold rest
termination_by structural ss => ss

/-- An optional statement without its spans, folded if `fold` says so. -/
def Statement.optionReduced (fold : Bool) : Option Statement → Option Statement
  | none => none
  | some s => some (s.reduced fold)
termination_by structural s => s

/-- An optional expression without its spans, folded if `fold` says so. -/
def Expr.optionReduced (fold : Bool) : Option Expr → Option Expr
  | none => none
  | some e => some (e.reduced fold)
termination_by structural e => e

end

/-- A program without its spans; if `fold` says so, the negation of a number literal counts as the
literal of the opposite number. -/
def Code.reduced (fold : Bool) : Code → Code
  | .expression e => .expression (e.reduced fold)
  | .statement s => .statement (s.reduced fold)

/-! ## Without folding only the spans are forgotten -/

theorem Expr.reducedUnary_false (op : UnaryOp) (operand : Expr) :
    Expr.reducedUnary false op operand = .unary default op operand := rfl

mutual

theorem Expr.reduced_false : ∀ e : Expr, e.reduced false = e.withoutSpans
  | .placeholder _ | .name _ _ | .typeName _ _ | .number _ _ | .boolean _ _ | .string _ _
  | .null _ => rfl
  | .unary _ _ operand => by
    rw [Expr.reduced, Expr.reducedUnary_false, Expr.reduced_false operand, Expr.withoutSpans]
  | .binary _ _ left right => by
    rw [Expr.reduced, Expr.reduced_false left, Expr.reduced_false right, Expr.withoutSpans]
  | .ternary _ condition whenTrue whenFalse => by
    rw [Expr.reduced, Expr.reduced_false condition, Expr.reduced_false whenTrue,
      Expr.reduced_false whenFalse, Expr.withoutSpans]
  | .lambda _ _ body => by rw [Expr.reduced, Expr.reduced_false body, Expr.withoutSpans]
  | .function _ _ body => by rw [Expr.reduced, Statement.reduced_false body, Expr.withoutSpans]
termination_by structural e => e

theorem Statement.reduced_false : ∀ s : Statement, s.reduced false = s.withoutSpans
  | .expression _ value => by
    rw [Statement.reduced, Expr.reduced_false value, Statement.withoutSpans]
  | .assign _ _ target value => by
    rw [Statement.reduced, Expr.reduced_false target, Expr.reduced_false value,
      Statement.withoutSpans]
  | .declare _ _ initializer => by
    rw [Statement.reduced, Expr.optionReduced_false initializer, Statement.withoutSpans]
  | .leave _ value => by
    rw [Statement.reduced, Expr.optionReduced_false value, Statement.withoutSpans]
  | .breakLoop _ | .continueLoop _ | .empty _ => rfl
  | .block _ body => by
    rw [Statement.reduced, Statement.listReduced_false body, Statement.withoutSpans]
  | .branch _ condition whenTrue whenFalse => by
    rw [Statement.reduced, Expr.reduced_false condition, Statement.reduced_false whenTrue,
      Statement.optionReduced_false whenFalse, Statement.withoutSpans]
  | .forLoop _ initializer condition iterator body => by
    rw [Statement.reduced, Statement.optionReduced_false initializer,
      Expr.optionReduced_false condition, Statement.optionReduced_false iterator,
      Statement.reduced_false body, Statement.withoutSpans]
  | .whileLoop _ condition body => by
    rw [Statement.reduced, Expr.reduced_false condition, Statement.reduced_false body,
      Statement.withoutSpans]
termination_by structural s => s

theorem Statement.listReduced_false :
    ∀ ss : List Statement, Statement.listReduced false ss = Statement.listWithoutSpans ss
  | [] => rfl
  | s :: rest => by
    rw [Statement.listReduced, Statement.reduced_false s, Statement.listReduced_false rest,
      Statement.listWithoutSpans]
termination_by structural ss => ss

theorem Statement.optionReduced_false :
    ∀ o : Option Statement, Statement.optionReduced false o = Statement.optionWithoutSpans o
  | none => rfl
  | some s => by
    rw [Statement.optionReduced, Statement.reduced_false s, Statement.optionWithoutSpans]
termination_by structural o => o

theorem Expr.optionReduced_false :
    ∀ o : Option Expr, Expr.optionReduced false o = Expr.optionWithoutSpans o
  | none => rfl
  | some e => by rw [Expr.optionReduced, Expr.reduced_false e, Expr.optionWithoutSpans]
termination_by structural o => o

end

theorem Code.reduced_false (code : Code) : code.reduced false = code.withoutSpans := by
  cases code with
  | expression e => rw [Code.reduced, Expr.reduced_false, Code.withoutSpans]
  | statement s => rw [Code.reduced, Statement.reduced_false, Code.withoutSpans]

end SearchScript
