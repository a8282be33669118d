import SearchScript.Token.Basic

/-!
# Scanning source text

Source text is cut into *pieces*: tokens, blanks, comments and the stretches that belong to no
token. The pieces in order are the whole text. Tokens and errors are what is left of the pieces once
blanks and comments are dropped, each with the byte offset at which it starts.

The rules for the next piece look at its first characters: a comment, a word, a number or a string
is taken as far as it goes, and of the operators the longest one that fits.
-/

namespace SearchScript

/-- What a stretch of source text is. -/
inductive PieceKind where
  /-- A run of blanks. -/
  | blank
  /-- A comment up to the end of its line, or a closed block comment. -/
  | comment
  /-- A token. -/
  | token (kind : TokenKind)
  /-- A character that starts no token. -/
  | invalid
  /-- The rest of the text from a quote without its partner. -/
  | unterminatedString
  /-- The rest of the text from the start of a block comment that is not closed. -/
  | unterminatedComment
deriving DecidableEq, Repr

/-- A stretch of source text. -/
structure Piece where
  kind : PieceKind
  text : List Char
deriving DecidableEq, Repr

namespace Piece

/-! ## Character classes -/

/-- The characters between tokens: space, tab, line feed, carriage return and form feed. -/
def isBlank (c : Char) : Bool :=
  c == ' ' || c == '\t' || c == '\r' || c == '\n' || c == '\x0c'

/-- The characters that start a word. -/
def startsWord (c : Char) : Bool := c.isAlpha || c == '_'

/-- The characters that continue a word. -/
def continuesWord (c : Char) : Bool := c.isAlphanum || c == '_'

/-- The characters that continue a number: hexadecimal digits, the base marks and points. -/
def continuesNumber (c : Char) : Bool :=
  c.isDigit || ('a' ≤ c && c ≤ 'f') || ('A' ≤ c && c ≤ 'F') || c == 'x' || c == 'X' || c == '.'

/-- Whether a number starts here: a digit, or a minus or a point in front of a digit. -/
def startsNumber : List Char → Bool
  | [] => false
  | c :: cs =>
    c.isDigit ||
      ((c == '-' || c == '.') &&
        match cs with
        | d :: _ => d.isDigit
        | [] => false)

/-! ## The next piece -/

/-- The number of characters of a string after its opening quote, the closing quote included. A
backslash takes the character after it. -/
def stringLength? : List Char → Option Nat
  | [] => none
  | '"' :: _ => some 1
  | '\\' :: _ :: cs => (stringLength? cs).map (· + 2)
  | _ :: cs => (stringLength? cs).map (· + 1)

/-- The number of characters of a block comment after its opening, the closing included. -/
def commentLength? : List Char → Option Nat
  | [] => none
  | '*' :: '/' :: _ => some 2
  | _ :: cs => (commentLength? cs).map (· + 1)

/-- The longest operator in front of a text. -/
def operator? (cs : List Char) : Option TokenKind :=
  TokenKind.operators.find? fun kind => kind.describe.toList.isPrefixOf cs

/-- What the text starts with, and how many characters that takes beyond the first. -/
def classify (c : Char) (cs : List Char) : PieceKind × Nat :=
  if isBlank c then (.blank, (cs.takeWhile isBlank).length)
  else if ['/', '/'].isPrefixOf (c :: cs) then (.comment, (cs.takeWhile (· != '\n')).length)
  else if ['/', '*'].isPrefixOf (c :: cs) then
    match commentLength? (cs.drop 1) with
    | some n => (.comment, n + 1)
    | none => (.unterminatedComment, cs.length)
  else if startsWord c then
    let rest := cs.takeWhile continuesWord
    (.token (TokenKind.ofWord (String.ofList (c :: rest))), rest.length)
  else if startsNumber (c :: cs) then
    (.token .number, (cs.takeWhile continuesNumber).length)
  else if c == '"' then
    match stringLength? cs with
    | some n => (.token .string, n)
    | none => (.unterminatedString, cs.length)
  else
    match operator? (c :: cs) with
    | some kind => (.token kind, kind.describe.length - 1)
    | none => (.invalid, 0)

/-- Cuts a text into pieces; `bound` is at least the number of its characters. -/
def cut : (bound : Nat) → List Char → List Piece
  | 0, _ => []
  | _ + 1, [] => []
  | bound + 1, c :: cs =>
    let (kind, more) := classify c cs
    ⟨kind, c :: cs.take more⟩ :: cut bound (cs.drop more)

/-- The pieces of a text. -/
def pieces (cs : List Char) : List Piece := cut cs.length cs

/-! ## Tokens and errors -/

/-- What the scanner reports for a piece that starts at an offset; nothing for blanks and
comments. -/
def report? (offset : Nat) (piece : Piece) : Option (Except ScanError Token) :=
  match piece.kind with
  | .blank => none
  | .comment => none
  | .token kind =>
    some (.ok ⟨kind, ⟨offset, offset + utf8Length piece.text⟩, String.ofList piece.text⟩)
  | .invalid => some (.error ⟨offset, .invalidCharacter (piece.text.headD '\x00')⟩)
  | .unterminatedString => some (.error ⟨offset, .unterminatedString⟩)
  | .unterminatedComment => some (.error ⟨offset, .unterminatedComment⟩)

/-- What the scanner reports for pieces that start at an offset. -/
def reports : (offset : Nat) → List Piece → List (Except ScanError Token)
  | _, [] => []
  | offset, piece :: rest =>
    let after := reports (offset + utf8Length piece.text) rest
    match report? offset piece with
    | some r => r :: after
    | none => after

end Piece

namespace Token

/-- Everything the scanner reports on a source text, errors and tokens in order. -/
def scanSteps (source : String) : List (Except ScanError Token) :=
  Piece.reports 0 (Piece.pieces source.toList)

/-- The error of a scanner that is asked for a token at the end of the source. -/
def endError (source : String) : ScanError := ⟨source.utf8ByteSize, .unexpectedEnd⟩

/-- The tokens among reports, or the first error. -/
def collect : List (Except ScanError Token) → Except ScanError (List Token)
  | [] => .ok []
  | .error e :: _ => .error e
  | .ok token :: rest =>
    match collect rest with
    | .ok tokens => .ok (token :: tokens)
    | .error e => .error e

/-- The tokens of a source text, or the first error in it. -/
def scan (source : String) : Except ScanError (List Token) := collect (scanSteps source)

end Token

end SearchScript
