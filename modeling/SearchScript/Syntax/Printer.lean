import SearchScript.Syntax.Basic
import SearchScript.Number.Notation
import SearchScript.Text.Quoted

/-!
# Writing programs

The source text of a syntax tree. Parentheses are written exactly where the operand would otherwise
be read differently: an operand that binds looser than its place, except that a right operand may
start with a prefix operator. Blocks are indented by tabs.
-/

namespace SearchScript

/-- A literal that reads as the number. The infinities are written as a decimal out of range and NaN
as a hexadecimal literal without digits. -/
def Number.literal : Number → String
  | .nan => "0x"
  | .infinite false => "1e999"
  | .infinite true => "-1e999"
  | n => n.format

/-- Text put in parentheses when a condition holds. -/
def parenthesize (condition : Bool) (text : String) : String :=
  if condition then "(" ++ text ++ ")" else text

/-- A text with a tab in front of each of its lines and a line feed behind it. -/
def indent (text : String) : String :=
  String.ofList <| '\t' ::
    (text.toList.flatMap fun c => if c = '\n' then ['\n', '\t'] else [c]) ++ ['\n']

/-- Whether an operand needs parentheses in a place that binds this tightly. -/
def Expr.needsParens (least : Nat) (e : Expr) : Bool := e.precedence < least

/-- Whether a right operand needs parentheses behind an operator of this depth. -/
def Expr.needsParensRight (depth : Nat) (e : Expr) : Bool :=
  !e.startsWithSign && e.precedence < depth + 1

/-- The text of a statement with the semicolon that its kind of statement ends with. -/
def Statement.terminate (s : Statement) (text : String) : String :=
  if s.endsWithSemicolon then text ++ ";" else text

mutual

/-- The source text of an expression. -/
def Expr.source : Expr → String
  | .placeholder _ => ""
  | .name _ name => name
  | .typeName _ type => type.spelling
  | .number _ n => n.literal
  | .boolean _ value => if value then "true" else "false"
  | .string _ value => Quoted.encode value
  | .null span => if span.isEmpty then "" else "null"
  | .unary _ op operand =>
    op.spelling ++ parenthesize (operand.needsParens 8) operand.source
  | .binary _ op left right =>
    let head := parenthesize (left.needsParens op.depth) left.source
    match op with
    | .member => head ++ "." ++ parenthesize (right.needsParens 9) right.source
    | .call => head ++ "(" ++ right.source ++ ")"
    | .subscript => head ++ "[" ++ right.source ++ "]"
    | .group => head ++ ", " ++ parenthesize (right.needsParensRight 2) right.source
    | _ =>
      head ++ " " ++ op.spelling ++ " " ++
        parenthesize (right.needsParensRight op.depth) right.source
  | .ternary _ condition whenTrue whenFalse =>
    parenthesize (condition.needsParens 3) condition.source ++ " ? " ++
      parenthesize (whenTrue.needsParensRight 3) whenTrue.source ++ " : " ++
      parenthesize (whenFalse.needsParensRight 3) whenFalse.source
  | .lambda _ params body => "lambda " ++ ", ".intercalate params ++ ": " ++ body.source
  | .function _ params body =>
    "function(" ++ ", ".intercalate params ++ ") " ++ body.terminate body.bareSource
termination_by structural e => e

/-- The source text of a statement without a semicolon of its own. -/
def Statement.bareSource : Statement → String
  | .expression _ value => value.source
  | .assign _ op target value => target.source ++ " " ++ op.spelling ++ " " ++ value.source
  | .declare _ name none => "let " ++ name
  | .declare _ name (some value) => "let " ++ name ++ " = " ++ value.source
  | .leave _ none => "return"
  | .leave _ (some value) => "return " ++ value.source
  | .breakLoop _ => "break"
  | .continueLoop _ => "continue"
  | .empty _ => ""
  | .block _ [] => "\x7b\x7d"
  | .block _ (first :: rest) => "\x7b\n" ++ Statement.indentedSource (first :: rest) ++ "\x7d"
  | .branch _ condition whenTrue none =>
    "if (" ++ condition.source ++ ") " ++ whenTrue.terminate whenTrue.bareSource
  | .branch _ condition whenTrue (some whenFalse) =>
    "if (" ++ condition.source ++ ") " ++ whenTrue.terminate whenTrue.bareSource ++ " else " ++
      whenFalse.terminate whenFalse.bareSource
  | .forLoop _ initializer condition iterator body =>
    "for (" ++ Statement.headerSource initializer ++ "; " ++ Expr.optionSource condition ++ "; " ++
      Statement.headerSource iterator ++ ") " ++ body.terminate body.bareSource
  | .whileLoop _ condition body =>
    "while (" ++ condition.source ++ ") " ++ body.terminate body.bareSource
termination_by structural s => s

/-- The source text of statements inside a block, each on lines of its own. -/
def Statement.indentedSource : List Statement → String
  | [] => ""
  | s :: rest => indent (s.terminate s.bareSource) ++ Statement.indentedSource rest
termination_by structural ss => ss

/-- The source text of an optional statement in the header of a loop. -/
def Statement.headerSource : Option Statement → String
  | none => ""
  | some s => s.bareSource
termination_by structural s => s

/-- The source text of an optional expression. -/
def Expr.optionSource : Option Expr → String
  | none => ""
  | some e => e.source
termination_by structural e => e

end

/-- The source text of a statement. -/
def Statement.source (s : Statement) : String := s.terminate s.bareSource

/-- The source text of a script: its statements without the braces around them. -/
def Statement.scriptSource : Statement → String
  | .block _ body => "\n".intercalate (body.map Statement.source)
  | s => s.source

end SearchScript
