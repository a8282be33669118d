import SearchScript.Parse.Grammar
import SearchScript.Token.Scan

/-!
# Reading whole programs

A text is read as one expression or as a script. Everything in it must be used, and an empty text is
no program in the strict mode.
-/

namespace SearchScript

namespace Parse

/-- The cursor at the start of a text. -/
def start (mode : ParseMode) (source : String) : Except ParseError Cursor :=
  match Token.scan source with
  | .error e => .error (.scan e)
  | .ok [] =>
    match mode with
    | .strict => .error (.scan (Token.endError source))
    | .tolerant => .ok (.ofTokens [])
  | .ok tokens => .ok (.ofTokens tokens)

/-- Refuses what is left of the text. -/
def finish (c : Cursor) : Except ParseError Unit :=
  match c.rest with
  | token :: _ => .error (.trailingToken token.kind token.span)
  | [] => .ok ()

end Parse

/-- Reads a text as an expression. -/
def Expr.parse (mode : ParseMode) (source : String) : Except ParseError Expr := do
  let c ← Parse.start mode source
  let (e, c) ← Parse.expr (some loopLimit) mode c.budget 0 c
  Parse.finish c
  .ok e

/-- Reads a text as a script, which is a block. -/
def Statement.parseScript (mode : ParseMode) (source : String) :
    Except ParseError Statement := do
  let c ← Parse.start mode source
  let first := c.position
  let (body, c) ← Parse.statements (some loopLimit) mode c.budget 0 c
  Parse.finish c
  .ok (.block ⟨first, c.position⟩ body)

end SearchScript
