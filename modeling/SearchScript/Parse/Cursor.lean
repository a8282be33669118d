import SearchScript.Parse.Error
import SearchScript.Syntax.Basic

/-!
# Reading tokens in order

A cursor is the place of the parser among the tokens: those not read yet, and the span read last.
The parser works in one of two modes. The strict mode refuses whatever is missing; the tolerant
mode, for programs that are still being typed, takes a missing token as read with no width.

A number token with a minus sign may turn out to be a subtraction. `Cursor.splitNegative` cuts it in
two when an operator may stand in its place.
-/

namespace SearchScript

-- sums begin at the core zero, whatever else is imported
attribute [local instance (high)] Zero.ofOfNat0

/-- How the parser treats what is missing. -/
inductive ParseMode where
  | strict
  | tolerant
deriving DecidableEq, Repr

/-- The place of a parser. -/
structure Cursor where
  /-- The tokens not read yet. -/
  rest : List Token
  /-- Where the last token of the text ends. -/
  stop : Nat
  /-- The span of the token read last. -/
  accepted : Span
deriving Repr

namespace Cursor

/-- The start of a list of tokens. -/
def ofTokens (tokens : List Token) : Cursor where
  rest := tokens
  stop := (tokens.getLast?.map (·.span.stop)).getD 0
  accepted := .empty 0

/-- The kind of the next token. -/
def kind? (c : Cursor) : Option TokenKind := c.rest.head?.map (·.kind)

/-- Where the next token starts, or where the last one ends if none is left. -/
def position (c : Cursor) : Nat :=
  match c.rest with
  | token :: _ => token.span.start
  | [] => c.stop

/-- The cursor behind a token that stood first. -/
def pass (c : Cursor) (token : Token) (rest : List Token) : Cursor :=
  { c with rest := rest, accepted := token.span }

/-- Reads a token of the given kind, if the next one is. -/
def accept? (c : Cursor) (kind : TokenKind) : Option (Token × Cursor) :=
  match c.rest with
  | token :: rest => if token.kind = kind then some (token, c.pass token rest) else none
  | [] => none

/-- Reads a token that is required here. The tolerant mode takes a missing one as read. -/
def expect (c : Cursor) (mode : ParseMode) (kind : TokenKind) :
    Except ParseError (Option Token × Cursor) :=
  match c.accept? kind, mode, c.rest with
  | some (token, c), _, _ => .ok (some token, c)
  | none, .tolerant, _ => .ok (none, { c with accepted := .empty c.position })
  | none, .strict, token :: _ => .error (.unexpectedToken token.kind kind token.span.start)
  | none, .strict, [] => .error (.unexpectedEnd c.position)

/-- Reads a required token whose text does not matter. -/
def require (c : Cursor) (mode : ParseMode) (kind : TokenKind) : Except ParseError Cursor :=
  match c.expect mode kind with
  | .ok (_, c) => .ok c
  | .error e => .error e

/-- The span from an offset to the end of what was read last. -/
def spanFrom (c : Cursor) (start : Nat) : Span := ⟨start, max c.accepted.stop start⟩

/-- The minus and the number that a negative number token consists of. -/
def splitToken? (token : Token) : Option (Token × Token) :=
  match token.kind, token.text.toList with
  | .number, '-' :: digits =>
    let middle := token.span.start + 1
    some (⟨.minus, ⟨token.span.start, middle⟩, "-"⟩,
      ⟨.number, ⟨middle, token.span.stop⟩, String.ofList digits⟩)
  | _, _ => none

/-- Cuts the next token in two if it is a negative number. -/
def splitNegative (c : Cursor) : Cursor :=
  match c.rest with
  | token :: rest =>
    match splitToken? token with
    | some (minus, number) => { c with rest := minus :: number :: rest }
    | none => c
  | [] => c

/-- How many tokens a token may become. -/
def tokenWeight (token : Token) : Nat :=
  match token.kind with
  | .number => (token.text.toList.takeWhile (· == '-')).length + 1
  | _ => 1

/-- How many tokens are left at most, once negative numbers are cut. -/
def weight (c : Cursor) : Nat := (c.rest.map tokenWeight).sum

end Cursor

/-- How often a loop of the parser may go round. -/
def loopLimit : Nat := 5000

/-- Counts one round of a loop, and refuses it beyond a limit, if there is one. -/
def tick (limit : Option Nat) (rounds : Nat) (c : Cursor) : Except ParseError Nat :=
  if limit.any (· ≤ rounds) then .error (.loopLimit c.position) else .ok (rounds + 1)

end SearchScript
