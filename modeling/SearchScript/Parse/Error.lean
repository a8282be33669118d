import SearchScript.Token.Basic
import SearchScript.Text.Quoted

/-!
# What can be wrong with a program text

The errors of the parser, where they lie and what they say. An error that has only an offset lies at
the zero-width span there.
-/

namespace SearchScript

/-- An error of the parser. -/
inductive ParseError where
  /-- The scanner could not read the text. -/
  | scan (error : ScanError)
  /-- A required token was missing and another one stood in its place. -/
  | unexpectedToken (found expected : TokenKind) (offset : Nat)
  /-- The text ended where a token was required. -/
  | unexpectedEnd (offset : Nat)
  /-- Something followed a complete expression or script. -/
  | trailingToken (found : TokenKind) (span : Span)
  /-- There was no expression where one was required. -/
  | noExpression (offset : Nat)
  /-- An operator had no left operand. -/
  | missingOperand (op : TokenKind) (offset : Nat)
  /-- A statement did not start with a name; there is no token at the end of the text. -/
  | invalidTarget (found : Option TokenKind) (offset : Nat)
  /-- A statement that is no call had no assignment operator. -/
  | missingAssignment (found : Option TokenKind) (offset : Nat)
  /-- A string literal could not be decoded. -/
  | invalidString (text : String) (failure : Quoted.Failure) (span : Span)
  /-- A loop of the parser went on for too long. -/
  | loopLimit (offset : Nat)
deriving DecidableEq, Repr

namespace ParseError

/-- Where the error lies. -/
def span : ParseError → Span
  | scan e => .empty e.offset
  | unexpectedToken _ _ offset | unexpectedEnd offset | noExpression offset
  | missingOperand _ offset | invalidTarget _ offset | missingAssignment _ offset
  | loopLimit offset => .empty offset
  | trailingToken _ span | invalidString _ _ span => span

/-- How messages name the token that was found. -/
def describeFound : Option TokenKind → String
  | some kind => kind.describe
  | none => "end of script"

/-- What the error says. -/
def message : ParseError → String
  | scan e => e.message
  | unexpectedToken found expected offset =>
    "Unexpected token " ++ found.describe ++ " (expected " ++ expected.describe ++ ") at " ++
      Nat.repr offset
  | unexpectedEnd _ => "Unexpected end of expression"
  | trailingToken found _ => "Unexpected token: " ++ found.describe
  | noExpression _ => "No expression was parsed"
  | missingOperand op offset =>
    "Unexpected operator " ++ op.describe ++ " at " ++ Nat.repr offset
  | invalidTarget found _ => "Lvalue cannot start with " ++ describeFound found
  | missingAssignment found _ =>
    "Unexpected token: " ++ describeFound found ++ "; expected assignment operator"
  | invalidString text failure _ => "Invalid string literal: " ++ failure.message text
  | loopLimit _ => "Hit loop limit"

end ParseError

end SearchScript
