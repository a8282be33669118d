import SearchScript.Parse.Cursor
import SearchScript.Parse.Operator
import SearchScript.Number.Reading

/-!
# The grammar

Statements are read by recursive descent, expressions by climbing through the depths of the
operators: `Parse.expr depth` reads an operand and then every operator that binds tighter than
`depth`, each right operand at the depth of its own operator, so that equal depths group to the
left. A function or a lambda extends as far as it can and is no operand of a suffix.

A loop of the parser goes round at most `limit` times, if there is a limit.

The functions call each other to a depth that `Cursor.budget` bounds; the argument `fuel` counts it
down.
-/

namespace SearchScript

/-- More than the depth to which the functions of the grammar call each other. -/
def Cursor.budget (c : Cursor) : Nat := 8 * c.weight + 16

namespace Parse

/-! ## Atoms -/

/-- A literal, name or type name, if the next token is one. -/
def atom? (c : Cursor) : Except ParseError (Option (Expr × Cursor)) :=
  match c.rest with
  | [] => .ok none
  | token :: rest =>
    let read (e : Expr) : Except ParseError (Option (Expr × Cursor)) :=
      .ok (some (e, c.pass token rest))
    match token.kind with
    | .identifier => read (.name token.span token.text)
    | .booleanType => read (.typeName token.span .boolean)
    | .numberType => read (.typeName token.span .number)
    | .stringType => read (.typeName token.span .string)
    | .number => read (.number token.span (Number.read token.text))
    | .boolean => read (.boolean token.span (token.text == "true"))
    | .null => read (.null token.span)
    | .string =>
      match Quoted.decode token.text with
      | .ok value => read (.string token.span value)
      | .error failure => .error (.invalidString token.text failure token.span)
    | _ => .ok none

/-! ## Parameters -/

/-- Parameter names separated by commas, up to a closing token. The tolerant mode stops at the first
token that is missing. -/
def params (limit : Option Nat) (mode : ParseMode) (closing : TokenKind) :
    (fuel : Nat) → (rounds : Nat) → Cursor → Except ParseError (List String × Cursor)
  | 0, _, c => .error (.loopLimit c.position)
  | fuel + 1, rounds, c => do
    let rounds ← tick limit rounds c
    let (name?, c) ← c.expect mode .identifier
    match name? with
    | none => .ok ([], c)
    | some name =>
      match c.accept? closing with
      | some (_, c) => .ok ([name.text], c)
      | none =>
        let (comma?, c) ← c.expect mode .comma
        match comma? with
        | none => .ok ([name.text], c)
        | some _ =>
          let (names, c) ← params limit mode closing fuel rounds c
          .ok (name.text :: names, c)

/-- What one round of the operator loop did: it read an operator, or nothing applied. -/
inductive Step where
  | more (e : Expr)
  | done

/-- The node that a missing expression leaves behind. -/
def missing (mode : ParseMode) (c : Cursor) : Except ParseError (Expr × Cursor) :=
  match mode with
  | .tolerant => .ok (.placeholder (.empty c.position), c)
  | .strict => .error (.noExpression c.position)

/-- A target without an assignment operator behind it. -/
def unassigned (mode : ParseMode) (target : Expr) (c : Cursor) :
    Except ParseError (Statement × Cursor) :=
  match mode with
  | .tolerant => .ok (.ofExpr target, c)
  | .strict => .error (.missingAssignment c.kind? c.position)

/-! ## Expressions and statements -/

mutual

/-- An expression with the operators that bind tighter than `depth`. -/
def expr (limit : Option Nat) (mode : ParseMode) : (fuel : Nat) → (depth : Nat) → Cursor →
    Except ParseError (Expr × Cursor)
  | 0, _, c => .error (.loopLimit c.position)
  | fuel + 1, depth, c =>
    let start := c.position
    match c.accept? .functionWord with
    | some (_, c) => functionTail limit mode fuel start c
    | none =>
      match c.accept? .lambdaWord with
      | some (_, c) => lambdaTail limit mode fuel start c
      | none => do
        let (node?, c) ← operand limit mode fuel c
        operators limit mode fuel depth start 0 node? c

/-- An atom or an expression in parentheses, if there is one. -/
def operand (limit : Option Nat) (mode : ParseMode) : (fuel : Nat) → Cursor →
    Except ParseError (Option Expr × Cursor)
  | 0, c => .error (.loopLimit c.position)
  | fuel + 1, c =>
    match c.accept? .leftParen with
    | some (_, c) => do
      -- inside parentheses every operator applies, the comma included
      let (inner, c) ← expr limit mode fuel 1 c
      let c ← c.require mode .rightParen
      .ok (some inner, c)
    | none => do
      match ← atom? c with
      | some (e, c) => .ok (some e, c)
      | none => .ok (none, c)

/-- The operators behind an operand, or in front of the first one. -/
def operators (limit : Option Nat) (mode : ParseMode) : (fuel : Nat) →
    (depth start rounds : Nat) → Option Expr → Cursor → Except ParseError (Expr × Cursor)
  | 0, _, _, _, _, c => .error (.loopLimit c.position)
  | fuel + 1, depth, start, rounds, none, c => do
    let rounds ← tick limit rounds c
    let (step, c) ← prefixOperator limit mode fuel depth start c
    match step with
    | .more e => operators limit mode fuel depth start rounds (some e) c
    | .done => missing mode c
  | fuel + 1, depth, start, rounds, some left, c => do
    let rounds ← tick limit rounds c
    -- behind an operand, `-1` is a minus and a number
    let (step, c) ← operator limit mode fuel depth left c.splitNegative
    match step with
    | .more e => operators limit mode fuel depth start rounds (some e) c
    | .done => .ok (left, c)

/-- An operator in front of an operand, with that operand. Any other operator that would apply lacks
its left operand. -/
def prefixOperator (limit : Option Nat) (mode : ParseMode) : (fuel : Nat) → (depth start : Nat) →
    Cursor → Except ParseError (Step × Cursor)
  | 0, _, _, c => .error (.loopLimit c.position)
  | fuel + 1, depth, start, c =>
    match c.rest with
    | [] => .ok (.done, c)
    | token :: rest =>
      -- what is read at depth 8 is an operand and nothing else
      if 8 ≤ depth then .ok (.done, c)
      else
        match UnaryOp.ofToken? token.kind with
        | some op => do
          -- only members, calls and subscripts bind tighter
          let (value, c) ← expr limit mode fuel 7 (c.pass token rest)
          .ok (.more (.unary ((c.spanFrom start).merge value.span) op value), c)
        | none =>
          match token.kind.infixDepth? with
          | some level =>
            if level < 8 ∧ depth < level then
              .error (.missingOperand token.kind token.span.start)
            else .ok (.done, c)
          | none => .ok (.done, c)

/-- An operator behind an operand, with its other operands. -/
def operator (limit : Option Nat) (mode : ParseMode) : (fuel : Nat) → (depth : Nat) →
    (left : Expr) → Cursor → Except ParseError (Step × Cursor)
  | 0, _, _, c => .error (.loopLimit c.position)
  | fuel + 1, depth, left, c =>
    match c.rest with
    | [] => .ok (.done, c)
    | token :: rest =>
      match token.kind.infixDepth? with
      | none => .ok (.done, c)
      | some level =>
        if level ≤ depth then .ok (.done, c)
        else
          let next := c.pass token rest
          match token.kind with
          | .period => do
            let (member, c) ← expr limit mode fuel 8 next
            .ok (.more (.join .member left member), c)
          | .leftParen => do
            let (args, c) ← arguments limit mode fuel next
            .ok (.more (.join .call left args), c)
          | .leftBracket => do
            let (index, c) ← expr limit mode fuel 1 next
            let c ← c.require mode .rightBracket
            .ok (.more (.join .subscript left index), c)
          | .question => do
            -- both alternatives end in front of a `||` or another `?`
            let (whenTrue, c) ← expr limit mode fuel 3 next
            let c ← c.require mode .colon
            let (whenFalse, c) ← expr limit mode fuel 3 c
            .ok (.more (.ternary (left.span.merge whenFalse.span) left whenTrue whenFalse), c)
          | kind =>
            match BinaryOp.ofToken? kind with
            | some op => do
              -- at its own depth, so that equal operators group to the left
              let (right, c) ← expr limit mode fuel level next
              .ok (.more (.join op left right), c)
            | none => .ok (.done, c)

/-- The arguments of a call, behind the opening parenthesis. -/
def arguments (limit : Option Nat) (mode : ParseMode) : (fuel : Nat) → Cursor →
    Except ParseError (Expr × Cursor)
  | 0, c => .error (.loopLimit c.position)
  | fuel + 1, c =>
    match c.accept? .rightParen with
    | some (_, c) => .ok (.null (.empty c.position), c)
    | none => do
      let (args, c) ← expr limit mode fuel 1 c
      let c ← c.require mode .rightParen
      .ok (args, c)

/-- The parameters and the body of a function, behind its keyword. -/
def functionTail (limit : Option Nat) (mode : ParseMode) : (fuel : Nat) → (start : Nat) → Cursor →
    Except ParseError (Expr × Cursor)
  | 0, _, c => .error (.loopLimit c.position)
  | fuel + 1, start, c => do
    let (paren?, c) ← c.expect mode .leftParen
    let (names, c) ←
      match paren?, c.accept? .rightParen with
      | none, _ => pure ([], c)
      | some _, some (_, c) => pure ([], c)
      | some _, none => params limit mode .rightParen fuel 0 c
    let (body, c) ← block limit mode fuel c
    .ok (.function (c.spanFrom start) names body, c)

/-- The parameters and the body of a lambda, behind its keyword. -/
def lambdaTail (limit : Option Nat) (mode : ParseMode) : (fuel : Nat) → (start : Nat) → Cursor →
    Except ParseError (Expr × Cursor)
  | 0, _, c => .error (.loopLimit c.position)
  | fuel + 1, start, c => do
    let (names, c) ← params limit mode .colon fuel 0 c
    let (body, c) ← expr limit mode fuel 0 c
    .ok (.lambda ((c.spanFrom start).merge body.span) names body, c)

/-- Statements up to the end of the text or a closing brace. -/
def statements (limit : Option Nat) (mode : ParseMode) : (fuel : Nat) → (rounds : Nat) → Cursor →
    Except ParseError (List Statement × Cursor)
  | 0, _, c => .error (.loopLimit c.position)
  | fuel + 1, rounds, c =>
    match c.kind? with
    | none => .ok ([], c)
    | some .rightBrace => .ok ([], c)
    | some _ => do
      let rounds ← tick limit rounds c
      let (first, c) ← statement limit mode fuel c
      let (rest, c) ← statements limit mode fuel rounds c
      .ok (first :: rest, c)

/-- One statement. -/
def statement (limit : Option Nat) (mode : ParseMode) : (fuel : Nat) → Cursor →
    Except ParseError (Statement × Cursor)
  | 0, c => .error (.loopLimit c.position)
  | fuel + 1, c =>
    let start := c.position
    match c.rest with
    -- there is no target either, which is reported further down
    | [] => simpleStatement limit mode fuel c
    | token :: rest =>
      let next := c.pass token rest
      match token.kind with
      | .leftBrace => block limit mode fuel c
      | .returnWord =>
        match next.accept? .semicolon with
        | some (_, c) => .ok (.leave (c.spanFrom start) none, c)
        | none => do
          let (value, c) ← expr limit mode fuel 0 next
          let c ← c.require mode .semicolon
          .ok (.leave (c.spanFrom start) (some value), c)
      | .breakWord => do
        let c ← next.require mode .semicolon
        .ok (.breakLoop (c.spanFrom start), c)
      | .continueWord => do
        let c ← next.require mode .semicolon
        .ok (.continueLoop (c.spanFrom start), c)
      | .ifWord => do
        let c ← next.require mode .leftParen
        let (condition, c) ← expr limit mode fuel 0 c
        let c ← c.require mode .rightParen
        let (whenTrue, c) ← statement limit mode fuel c
        match c.accept? .elseWord with
        | some (_, c) =>
          let (whenFalse, c) ← statement limit mode fuel c
          .ok (.branch (c.spanFrom start) condition whenTrue (some whenFalse), c)
        | none => .ok (.branch (c.spanFrom start) condition whenTrue none, c)
      | .forWord => forTail limit mode fuel start next
      | .whileWord => do
        let c ← next.require mode .leftParen
        let (condition, c) ← expr limit mode fuel 0 c
        let c ← c.require mode .rightParen
        let (body, c) ← statement limit mode fuel c
        .ok (.whileLoop (c.spanFrom start) condition body, c)
      | .semicolon => .ok (.empty (.empty start), next)
      | _ => simpleStatement limit mode fuel c

/-- A declaration, an assignment or a call with its semicolon. -/
def simpleStatement (limit : Option Nat) (mode : ParseMode) : (fuel : Nat) → Cursor →
    Except ParseError (Statement × Cursor)
  | 0, c => .error (.loopLimit c.position)
  | fuel + 1, c => do
    let (s, c) ← declaration limit mode fuel c
    let c ← c.require mode .semicolon
    .ok (s, c)

/-- The header and the body of a `for` loop, behind its keyword. Every part of the header may be
left out. -/
def forTail (limit : Option Nat) (mode : ParseMode) : (fuel : Nat) → (start : Nat) → Cursor →
    Except ParseError (Statement × Cursor)
  | 0, _, c => .error (.loopLimit c.position)
  | fuel + 1, start, c => do
    let c ← c.require mode .leftParen
    let (initial, c) ← initializer limit mode fuel c
    let (e?, c) ← condition limit mode fuel c
    let (step, c) ← iterator limit mode fuel c
    let (body, c) ← statement limit mode fuel c
    .ok (.forLoop (c.spanFrom start) initial e? step body, c)

/-- The first part of the header of a `for` loop, up to its semicolon. -/
def initializer (limit : Option Nat) (mode : ParseMode) : (fuel : Nat) → Cursor →
    Except ParseError (Option Statement × Cursor)
  | 0, c => .error (.loopLimit c.position)
  | fuel + 1, c =>
    match c.accept? .semicolon with
    | some (_, c) => .ok (none, c)
    | none => do
      let (s, c) ← declaration limit mode fuel c
      let c ← c.require mode .semicolon
      .ok (some s, c)

/-- The second part of the header of a `for` loop, up to its semicolon. -/
def condition (limit : Option Nat) (mode : ParseMode) : (fuel : Nat) → Cursor →
    Except ParseError (Option Expr × Cursor)
  | 0, c => .error (.loopLimit c.position)
  | fuel + 1, c =>
    match c.accept? .semicolon with
    | some (_, c) => .ok (none, c)
    | none => do
      let (e, c) ← expr limit mode fuel 0 c
      let c ← c.require mode .semicolon
      .ok (some e, c)

/-- The last part of the header of a `for` loop, up to the closing parenthesis. -/
def iterator (limit : Option Nat) (mode : ParseMode) : (fuel : Nat) → Cursor →
    Except ParseError (Option Statement × Cursor)
  | 0, c => .error (.loopLimit c.position)
  | fuel + 1, c =>
    match c.accept? .rightParen with
    | some (_, c) => .ok (none, c)
    | none => do
      let (s, c) ← assignment limit mode fuel c
      let c ← c.require mode .rightParen
      .ok (some s, c)

/-- Statements in braces. -/
def block (limit : Option Nat) (mode : ParseMode) : (fuel : Nat) → Cursor →
    Except ParseError (Statement × Cursor)
  | 0, c => .error (.loopLimit c.position)
  | fuel + 1, c => do
    let start := c.position
    let c ← c.require mode .leftBrace
    let (body, c) ← statements limit mode fuel 0 c
    let c ← c.require mode .rightBrace
    .ok (.block (c.spanFrom start) body, c)

/-- A declaration, an assignment or a call. -/
def declaration (limit : Option Nat) (mode : ParseMode) : (fuel : Nat) → Cursor →
    Except ParseError (Statement × Cursor)
  | 0, c => .error (.loopLimit c.position)
  | fuel + 1, c =>
    let start := c.position
    match c.accept? .letWord with
    | none => assignment limit mode fuel c
    | some (_, c) => do
      let (name?, c) ← c.expect mode .identifier
      let name := (name?.map (·.text)).getD ""
      if c.kind? = none ∨ c.kind? = some .semicolon then
        .ok (.declare (c.spanFrom start) name none, c)
      else
        let c ← c.require mode .assign
        let (value, c) ← expr limit mode fuel 0 c
        .ok (.declare ((c.spanFrom start).merge value.span) name (some value), c)

/-- An assignment or a call. The tolerant mode also takes a target that nothing is assigned to. -/
def assignment (limit : Option Nat) (mode : ParseMode) : (fuel : Nat) → Cursor →
    Except ParseError (Statement × Cursor)
  | 0, c => .error (.loopLimit c.position)
  | fuel + 1, c =>
    match c.accept? .identifier with
    | none => .error (.invalidTarget c.kind? c.position)
    | some (name, c) => do
      let ((target, isCall), c) ← suffixes limit mode fuel 0 (.name name.span name.text) false c
      -- only a call may stand alone
      if isCall then .ok (.ofExpr target, c)
      else
        match c.rest with
        | token :: rest =>
          match AssignOp.ofToken? token.kind with
          | some op =>
            let (value, c) ← expr limit mode fuel 0 (c.pass token rest)
            .ok (.assign (target.span.merge value.span) op target value, c)
          | none => unassigned mode target c
        | [] => unassigned mode target c

/-- The members, calls and subscripts behind the name that a statement starts with, and whether the
last of them is a call. -/
def suffixes (limit : Option Nat) (mode : ParseMode) : (fuel : Nat) → (rounds : Nat) →
    (node : Expr) → (isCall : Bool) → Cursor → Except ParseError ((Expr × Bool) × Cursor)
  | 0, _, _, _, c => .error (.loopLimit c.position)
  | fuel + 1, rounds, node, isCall, c => do
    let rounds ← tick limit rounds c
    match c.rest with
    | [] => .ok ((node, isCall), c)
    | token :: rest =>
      let next := c.pass token rest
      match token.kind with
      | .period =>
        let (member, c) ← expr limit mode fuel 8 next
        suffixes limit mode fuel rounds (.join .member node member) false c
      | .leftParen =>
        let (args, c) ← arguments limit mode fuel next
        suffixes limit mode fuel rounds (.join .call node args) true c
      | .leftBracket =>
        let (index, c) ← expr limit mode fuel 1 next
        let c ← c.require mode .rightBracket
        suffixes limit mode fuel rounds (.join .subscript node index) false c
      | _ => .ok ((node, isCall), c)

end

end Parse

end SearchScript
