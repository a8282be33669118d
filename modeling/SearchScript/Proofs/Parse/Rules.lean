import SearchScript.Parse.Grammar

/-!
# The rules of the grammar

What the functions of the grammar read, said as inference rules: `Parse.Reads mode phrase c r d`
means that the phrase read at the cursor `c` gives the result `r` and leaves the cursor `d`. The
rules know no bound on the depth of calls, so an induction on them is an induction on what was read.

## Key definitions

- `Parse.Phrase`: what can be read, one constructor for each function of the grammar and for each
  part of the header of a `for` loop
- `Parse.Reads`: the rules, the same for both modes except where a function asks for the mode
-/

namespace SearchScript

namespace Cursor

/-- The next token and the cursor behind it. -/
def next? (c : Cursor) : Option (Token × Cursor) :=
  match c.rest with
  | token :: rest => some (token, c.pass token rest)
  | [] => none

end Cursor

namespace Parse

/-- The literal, name or type name that a token is. -/
def atomOf? (t : Token) : Option Expr :=
  match t.kind with
  | .identifier => some (.name t.span t.text)
  | .booleanType => some (.typeName t.span .boolean)
  | .numberType => some (.typeName t.span .number)
  | .stringType => some (.typeName t.span .string)
  | .number => some (.number t.span (Number.read t.text))
  | .boolean => some (.boolean t.span (t.text == "true"))
  | .null => some (.null t.span)
  | .string =>
    match Quoted.decode t.text with
    | .ok value => some (.string t.span value)
    | .error _ => none
  | _ => none

/-- Whether a token is a literal, a name or a type name. -/
def startsAtom : TokenKind → Bool
  | .identifier | .booleanType | .numberType | .stringType | .number | .boolean | .null
  | .string => true
  | _ => false

/-- Whether no operator in front of an operand applies at a depth. -/
def noPrefix (depth : Nat) : Option TokenKind → Bool
  | none => true
  | some kind =>
    8 ≤ depth ||
      (UnaryOp.ofToken? kind).isNone &&
        match kind.infixDepth? with
        | some level => !(level < 8 && depth < level)
        | none => true

/-- Whether no operator behind an operand applies at a depth. -/
def noInfix (depth : Nat) : Option TokenKind → Bool
  | none => true
  | some kind =>
    match kind.infixDepth? with
    | some level => level ≤ depth
    | none => true

/-- Whether a token starts a statement with a form of its own. -/
def startsStatement : TokenKind → Bool
  | .leftBrace | .returnWord | .breakWord | .continueWord | .ifWord | .forWord | .whileWord
  | .semicolon => true
  | _ => false

/-- Whether a token continues the chain of suffixes that a statement starts with. -/
def startsSuffix : TokenKind → Bool
  | .period | .leftParen | .leftBracket => true
  | _ => false

/-- What can be read. -/
inductive Phrase where
  | expr (depth : Nat)
  | operand
  | operators (depth start rounds : Nat) (left : Option Expr)
  | prefixOperator (depth start : Nat)
  | operator (depth : Nat) (left : Expr)
  | arguments
  | functionTail (start : Nat)
  | lambdaTail (start : Nat)
  | params (closing : TokenKind) (rounds : Nat)
  | statements (rounds : Nat)
  | statement
  | simpleStatement
  | forTail (start : Nat)
  | initializer
  | condition
  | iterator
  | block
  | declaration
  | assignment
  | suffixes (rounds : Nat) (node : Expr) (isCall : Bool)

/-- What reading a phrase gives. -/
@[reducible] def Phrase.Result : Phrase → Type
  | expr _ | operators _ _ _ _ | arguments | functionTail _ | lambdaTail _ => Expr
  | operand => Option Expr
  | prefixOperator _ _ | operator _ _ => Step
  | params _ _ => List String
  | statements _ => List Statement
  | initializer | iterator => Option Statement
  | condition => Option Expr
  | suffixes _ _ _ => Expr × Bool
  | statement | simpleStatement | forTail _ | block | declaration | assignment => Statement


/-- The rules of the grammar. -/
inductive Reads (mode : ParseMode) : (p : Phrase) → Cursor → p.Result → Cursor → Prop
  -- expressions
  | exprFunction {depth c t c₁ e c₂} :
      c.next? = some (t, c₁) → t.kind = .functionWord →
      Reads mode (.functionTail c.position) c₁ e c₂ → Reads mode (.expr depth) c e c₂
  | exprLambda {depth c t c₁ e c₂} :
      c.next? = some (t, c₁) → t.kind = .lambdaWord →
      Reads mode (.lambdaTail c.position) c₁ e c₂ → Reads mode (.expr depth) c e c₂
  | exprOperators {depth c node? c₁ e c₂} :
      c.kind? ≠ some .functionWord → c.kind? ≠ some .lambdaWord →
      Reads mode .operand c node? c₁ → Reads mode (.operators depth c.position 0 node?) c₁ e c₂ →
      Reads mode (.expr depth) c e c₂
  -- operands
  | operandParens {c t c₁ e c₂ c₃} :
      c.next? = some (t, c₁) → t.kind = .leftParen → Reads mode (.expr 1) c₁ e c₂ →
      c₂.require mode .rightParen = .ok c₃ → Reads mode .operand c (some e) c₃
  | operandAtom {c t c₁ e} :
      c.next? = some (t, c₁) → atomOf? t = some e → Reads mode .operand c (some e) c₁
  | operandNone {c} :
      c.kind? ≠ some .leftParen → (∀ kind, c.kind? = some kind → startsAtom kind = false) →
      Reads mode .operand c none c
  -- operators
  | operatorsPrefix {depth start rounds c e c₁ e' c₂} :
      rounds < loopLimit → Reads mode (.prefixOperator depth start) c (.more e) c₁ →
      Reads mode (.operators depth start (rounds + 1) (some e)) c₁ e' c₂ →
      Reads mode (.operators depth start rounds none) c e' c₂
  | operatorsMissing {depth start rounds c c₁ e c₂} :
      rounds < loopLimit → Reads mode (.prefixOperator depth start) c .done c₁ →
      missing mode c₁ = .ok (e, c₂) → Reads mode (.operators depth start rounds none) c e c₂
  | operatorsMore {depth start rounds left c e c₁ e' c₂} :
      rounds < loopLimit → Reads mode (.operator depth left) c.splitNegative (.more e) c₁ →
      Reads mode (.operators depth start (rounds + 1) (some e)) c₁ e' c₂ →
      Reads mode (.operators depth start rounds (some left)) c e' c₂
  | operatorsDone {depth start rounds left c c₁} :
      rounds < loopLimit → Reads mode (.operator depth left) c.splitNegative .done c₁ →
      Reads mode (.operators depth start rounds (some left)) c left c₁
  | prefixDone {depth start c} :
      noPrefix depth c.kind? → Reads mode (.prefixOperator depth start) c .done c
  | prefixUnary {depth start c t c₁ op e c₂} :
      c.next? = some (t, c₁) → depth < 8 → UnaryOp.ofToken? t.kind = some op →
      Reads mode (.expr 7) c₁ e c₂ →
      Reads mode (.prefixOperator depth start) c
        (.more (.unary ((c₂.spanFrom start).merge e.span) op e)) c₂
  | infixDone {depth left c} :
      noInfix depth c.kind? → Reads mode (.operator depth left) c .done c
  | infixMember {depth left c t c₁ e c₂} :
      c.next? = some (t, c₁) → t.kind = .period → depth < 8 → Reads mode (.expr 8) c₁ e c₂ →
      Reads mode (.operator depth left) c (.more (.join .member left e)) c₂
  | infixCall {depth left c t c₁ e c₂} :
      c.next? = some (t, c₁) → t.kind = .leftParen → depth < 8 → Reads mode .arguments c₁ e c₂ →
      Reads mode (.operator depth left) c (.more (.join .call left e)) c₂
  | infixSubscript {depth left c t c₁ e c₂ c₃} :
      c.next? = some (t, c₁) → t.kind = .leftBracket → depth < 8 → Reads mode (.expr 1) c₁ e c₂ →
      c₂.require mode .rightBracket = .ok c₃ →
      Reads mode (.operator depth left) c (.more (.join .subscript left e)) c₃
  | infixTernary {depth left c t c₁ e c₂ c₃ e' c₄} :
      c.next? = some (t, c₁) → t.kind = .question → depth < 3 → Reads mode (.expr 3) c₁ e c₂ →
      c₂.require mode .colon = .ok c₃ → Reads mode (.expr 3) c₃ e' c₄ →
      Reads mode (.operator depth left) c (.more (.ternary (left.span.merge e'.span) left e e')) c₄
  | infixBinary {depth left c t c₁ op e c₂} :
      c.next? = some (t, c₁) → BinaryOp.ofToken? t.kind = some op → depth < op.depth →
      Reads mode (.expr op.depth) c₁ e c₂ →
      Reads mode (.operator depth left) c (.more (.join op left e)) c₂
  | argumentsNone {c t c₁} :
      c.next? = some (t, c₁) → t.kind = .rightParen →
      Reads mode .arguments c (.null (.empty c₁.position)) c₁
  | argumentsSome {c e c₁ c₂} :
      c.kind? ≠ some .rightParen → Reads mode (.expr 1) c e c₁ →
      c₁.require mode .rightParen = .ok c₂ → Reads mode .arguments c e c₂
  -- functions
  | functionMissing {start c c₁ s c₂} :
      c.expect mode .leftParen = .ok (none, c₁) → Reads mode .block c₁ s c₂ →
      Reads mode (.functionTail start) c (.function (c₂.spanFrom start) [] s) c₂
  | functionBare {start c p c₁ t c₂ s c₃} :
      c.expect mode .leftParen = .ok (some p, c₁) → c₁.next? = some (t, c₂) →
      t.kind = .rightParen → Reads mode .block c₂ s c₃ →
      Reads mode (.functionTail start) c (.function (c₃.spanFrom start) [] s) c₃
  | functionParams {start c p c₁ names c₂ s c₃} :
      c.expect mode .leftParen = .ok (some p, c₁) → c₁.kind? ≠ some .rightParen →
      Reads mode (.params .rightParen 0) c₁ names c₂ → Reads mode .block c₂ s c₃ →
      Reads mode (.functionTail start) c (.function (c₃.spanFrom start) names s) c₃
  | lambda {start c names c₁ e c₂} :
      Reads mode (.params .colon 0) c names c₁ → Reads mode (.expr 0) c₁ e c₂ →
      Reads mode (.lambdaTail start) c (.lambda ((c₂.spanFrom start).merge e.span) names e) c₂
  | paramsNone {closing rounds c c₁} :
      rounds < loopLimit → c.expect mode .identifier = .ok (none, c₁) →
      Reads mode (.params closing rounds) c [] c₁
  | paramsLast {closing rounds c name c₁ t c₂} :
      rounds < loopLimit → c.expect mode .identifier = .ok (some name, c₁) →
      c₁.next? = some (t, c₂) → t.kind = closing →
      Reads mode (.params closing rounds) c [name.text] c₂
  | paramsCut {closing rounds c name c₁ c₂} :
      rounds < loopLimit → c.expect mode .identifier = .ok (some name, c₁) →
      c₁.kind? ≠ some closing → c₁.expect mode .comma = .ok (none, c₂) →
      Reads mode (.params closing rounds) c [name.text] c₂
  | paramsMore {closing rounds c name c₁ comma c₂ names c₃} :
      rounds < loopLimit → c.expect mode .identifier = .ok (some name, c₁) →
      c₁.kind? ≠ some closing → c₁.expect mode .comma = .ok (some comma, c₂) →
      Reads mode (.params closing (rounds + 1)) c₂ names c₃ →
      Reads mode (.params closing rounds) c (name.text :: names) c₃
  -- statements
  | statementsDone {rounds c} :
      c.kind? = none ∨ c.kind? = some .rightBrace → Reads mode (.statements rounds) c [] c
  | statementsMore {rounds c kind s c₁ ss c₂} :
      c.kind? = some kind → kind ≠ .rightBrace → rounds < loopLimit →
      Reads mode .statement c s c₁ → Reads mode (.statements (rounds + 1)) c₁ ss c₂ →
      Reads mode (.statements rounds) c (s :: ss) c₂
  | statementBlock {c s c₁} :
      c.kind? = some .leftBrace → Reads mode .block c s c₁ → Reads mode .statement c s c₁
  | statementReturn {c t c₁ t' c₂} :
      c.next? = some (t, c₁) → t.kind = .returnWord → c₁.next? = some (t', c₂) →
      t'.kind = .semicolon → Reads mode .statement c (.leave (c₂.spanFrom c.position) none) c₂
  | statementReturnValue {c t c₁ e c₂ c₃} :
      c.next? = some (t, c₁) → t.kind = .returnWord → c₁.kind? ≠ some .semicolon →
      Reads mode (.expr 0) c₁ e c₂ → c₂.require mode .semicolon = .ok c₃ →
      Reads mode .statement c (.leave (c₃.spanFrom c.position) (some e)) c₃
  | statementBreak {c t c₁ c₂} :
      c.next? = some (t, c₁) → t.kind = .breakWord → c₁.require mode .semicolon = .ok c₂ →
      Reads mode .statement c (.breakLoop (c₂.spanFrom c.position)) c₂
  | statementContinue {c t c₁ c₂} :
      c.next? = some (t, c₁) → t.kind = .continueWord → c₁.require mode .semicolon = .ok c₂ →
      Reads mode .statement c (.continueLoop (c₂.spanFrom c.position)) c₂
  | statementIf {c t c₁ c₂ e c₃ c₄ s c₅} :
      c.next? = some (t, c₁) → t.kind = .ifWord → c₁.require mode .leftParen = .ok c₂ →
      Reads mode (.expr 0) c₂ e c₃ → c₃.require mode .rightParen = .ok c₄ →
      Reads mode .statement c₄ s c₅ → c₅.kind? ≠ some .elseWord →
      Reads mode .statement c (.branch (c₅.spanFrom c.position) e s none) c₅
  | statementIfElse {c t c₁ c₂ e c₃ c₄ s c₅ t' c₆ s' c₇} :
      c.next? = some (t, c₁) → t.kind = .ifWord → c₁.require mode .leftParen = .ok c₂ →
      Reads mode (.expr 0) c₂ e c₃ → c₃.require mode .rightParen = .ok c₄ →
      Reads mode .statement c₄ s c₅ → c₅.next? = some (t', c₆) → t'.kind = .elseWord →
      Reads mode .statement c₆ s' c₇ →
      Reads mode .statement c (.branch (c₇.spanFrom c.position) e s (some s')) c₇
  | statementFor {c t c₁ s c₂} :
      c.next? = some (t, c₁) → t.kind = .forWord → Reads mode (.forTail c.position) c₁ s c₂ →
      Reads mode .statement c s c₂
  | statementWhile {c t c₁ c₂ e c₃ c₄ s c₅} :
      c.next? = some (t, c₁) → t.kind = .whileWord → c₁.require mode .leftParen = .ok c₂ →
      Reads mode (.expr 0) c₂ e c₃ → c₃.require mode .rightParen = .ok c₄ →
      Reads mode .statement c₄ s c₅ →
      Reads mode .statement c (.whileLoop (c₅.spanFrom c.position) e s) c₅
  | statementEmpty {c t c₁} :
      c.next? = some (t, c₁) → t.kind = .semicolon →
      Reads mode .statement c (.empty (.empty c.position)) c₁
  | statementSimple {c s c₁} :
      (∀ kind, c.kind? = some kind → startsStatement kind = false) →
      Reads mode .simpleStatement c s c₁ → Reads mode .statement c s c₁
  | simple {c s c₁ c₂} :
      Reads mode .declaration c s c₁ → c₁.require mode .semicolon = .ok c₂ →
      Reads mode .simpleStatement c s c₂
  | forLoop {start c c₁ initial c₂ e c₃ step c₄ s c₅} :
      c.require mode .leftParen = .ok c₁ → Reads mode .initializer c₁ initial c₂ →
      Reads mode .condition c₂ e c₃ → Reads mode .iterator c₃ step c₄ →
      Reads mode .statement c₄ s c₅ →
      Reads mode (.forTail start) c (.forLoop (c₅.spanFrom start) initial e step s) c₅
  | initializerNone {c t c₁} :
      c.next? = some (t, c₁) → t.kind = .semicolon → Reads mode .initializer c none c₁
  | initializerSome {c s c₁ c₂} :
      c.kind? ≠ some .semicolon → Reads mode .declaration c s c₁ →
      c₁.require mode .semicolon = .ok c₂ → Reads mode .initializer c (some s) c₂
  | conditionNone {c t c₁} :
      c.next? = some (t, c₁) → t.kind = .semicolon → Reads mode .condition c none c₁
  | conditionSome {c e c₁ c₂} :
      c.kind? ≠ some .semicolon → Reads mode (.expr 0) c e c₁ →
      c₁.require mode .semicolon = .ok c₂ → Reads mode .condition c (some e) c₂
  | iteratorNone {c t c₁} :
      c.next? = some (t, c₁) → t.kind = .rightParen → Reads mode .iterator c none c₁
  | iteratorSome {c s c₁ c₂} :
      c.kind? ≠ some .rightParen → Reads mode .assignment c s c₁ →
      c₁.require mode .rightParen = .ok c₂ → Reads mode .iterator c (some s) c₂
  | block {c c₁ ss c₂ c₃} :
      c.require mode .leftBrace = .ok c₁ → Reads mode (.statements 0) c₁ ss c₂ →
      c₂.require mode .rightBrace = .ok c₃ →
      Reads mode .block c (.block (c₃.spanFrom c.position) ss) c₃
  | declarationAssignment {c s c₁} :
      c.kind? ≠ some .letWord → Reads mode .assignment c s c₁ → Reads mode .declaration c s c₁
  | declarationBare {c t c₁ name? c₂} :
      c.next? = some (t, c₁) → t.kind = .letWord → c₁.expect mode .identifier = .ok (name?, c₂) →
      (c₂.kind? = none ∨ c₂.kind? = some .semicolon) →
      Reads mode .declaration c
        (.declare (c₂.spanFrom c.position) ((name?.map (·.text)).getD "") none) c₂
  | declarationValue {c t c₁ name? c₂ c₃ e c₄} :
      c.next? = some (t, c₁) → t.kind = .letWord → c₁.expect mode .identifier = .ok (name?, c₂) →
      ¬(c₂.kind? = none ∨ c₂.kind? = some .semicolon) → c₂.require mode .assign = .ok c₃ →
      Reads mode (.expr 0) c₃ e c₄ →
      Reads mode .declaration c
        (.declare ((c₄.spanFrom c.position).merge e.span) ((name?.map (·.text)).getD "")
          (some e)) c₄
  | assignmentCall {c t c₁ e c₂} :
      c.next? = some (t, c₁) → t.kind = .identifier →
      Reads mode (.suffixes 0 (.name t.span t.text) false) c₁ (e, true) c₂ →
      Reads mode .assignment c (.ofExpr e) c₂
  | assignmentValue {c t c₁ e c₂ t' c₃ op e' c₄} :
      c.next? = some (t, c₁) → t.kind = .identifier →
      Reads mode (.suffixes 0 (.name t.span t.text) false) c₁ (e, false) c₂ →
      c₂.next? = some (t', c₃) → AssignOp.ofToken? t'.kind = some op →
      Reads mode (.expr 0) c₃ e' c₄ →
      Reads mode .assignment c (.assign (e.span.merge e'.span) op e e') c₄
  | assignmentMissing {c t c₁ e c₂ s c₃} :
      c.next? = some (t, c₁) → t.kind = .identifier →
      Reads mode (.suffixes 0 (.name t.span t.text) false) c₁ (e, false) c₂ →
      (∀ kind, c₂.kind? = some kind → AssignOp.ofToken? kind = none) →
      unassigned mode e c₂ = .ok (s, c₃) → Reads mode .assignment c s c₃
  | suffixesDone {rounds node isCall c} :
      rounds < loopLimit → (∀ kind, c.kind? = some kind → startsSuffix kind = false) →
      Reads mode (.suffixes rounds node isCall) c (node, isCall) c
  | suffixesMember {rounds node isCall c t c₁ e c₂ r c₃} :
      rounds < loopLimit → c.next? = some (t, c₁) → t.kind = .period →
      Reads mode (.expr 8) c₁ e c₂ →
      Reads mode (.suffixes (rounds + 1) (.join .member node e) false) c₂ r c₃ →
      Reads mode (.suffixes rounds node isCall) c r c₃
  | suffixesCall {rounds node isCall c t c₁ e c₂ r c₃} :
      rounds < loopLimit → c.next? = some (t, c₁) → t.kind = .leftParen →
      Reads mode .arguments c₁ e c₂ →
      Reads mode (.suffixes (rounds + 1) (.join .call node e) true) c₂ r c₃ →
      Reads mode (.suffixes rounds node isCall) c r c₃
  | suffixesSubscript {rounds node isCall c t c₁ e c₂ c₃ r c₄} :
      rounds < loopLimit → c.next? = some (t, c₁) → t.kind = .leftBracket →
      Reads mode (.expr 1) c₁ e c₂ → c₂.require mode .rightBracket = .ok c₃ →
      Reads mode (.suffixes (rounds + 1) (.join .subscript node e) false) c₃ r c₄ →
      Reads mode (.suffixes rounds node isCall) c r c₄

end Parse

end SearchScript
