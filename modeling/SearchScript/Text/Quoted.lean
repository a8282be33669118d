import SearchScript.Span
import SearchScript.Text.Digit

/-!
# Quoted text

Text between double quotes. A quote, a backslash and the control characters are written as escapes
and everything else as itself; reading also accepts `\/` and UTF-16 code units in hexadecimal.
`encode` writes the quoted form and `decode` reads one, reporting what is wrong with it and how many
bytes were taken when that showed.
-/

namespace SearchScript.Quoted

/-- What is wrong with a quoted text. -/
inductive Fault where
  /-- A control character that is not escaped. -/
  | controlCharacter
  /-- A backslash in front of a character that makes no escape. -/
  | invalidEscape
  /-- The text ends before its closing quote. -/
  | endOfText
  /-- A code unit of a surrogate pair without its partner. -/
  | loneSurrogate
  /-- The first code unit of a surrogate pair that no second escape follows. -/
  | endOfEscape
deriving DecidableEq, Repr

/-- What the fault is called in messages. -/
def Fault.message : Fault → String
  | controlCharacter => "control character (\\u0000-\\u001F) found while parsing a string"
  | invalidEscape => "invalid escape"
  | endOfText => "EOF while parsing a string"
  | loneSurrogate => "lone leading surrogate in hex escape"
  | endOfEscape => "unexpected end of hex escape"

/-- A fault and the number of bytes taken when it showed. -/
structure Failure where
  fault : Fault
  taken : Nat
deriving DecidableEq, Repr

/-- The failure seen from `n` bytes further to the front. -/
def Failure.after (n : Nat) (f : Failure) : Failure := ⟨f.fault, n + f.taken⟩

/-! ## Writing -/

/-- The hexadecimal digit of a number below sixteen. -/
def hexDigit (n : Nat) : Char := Nat.digitChar n

/-- How a character is written between quotes. -/
def encodeChar (c : Char) : List Char :=
  if c = '"' then ['\\', '"']
  else if c = '\\' then ['\\', '\\']
  else if c = '\x08' then ['\\', 'b']
  else if c = '\x0c' then ['\\', 'f']
  else if c = '\n' then ['\\', 'n']
  else if c = '\r' then ['\\', 'r']
  else if c = '\t' then ['\\', 't']
  else if c.toNat < 0x20 then
    ['\\', 'u', '0', '0', hexDigit (c.toNat / 16), hexDigit (c.toNat % 16)]
  else [c]

/-- The characters between the quotes. -/
def encodeBody (cs : List Char) : List Char := cs.flatMap encodeChar

/-- A text in quotes. -/
def encode (text : String) : String :=
  String.ofList ('"' :: (encodeBody text.toList ++ ['"']))

/-! ## Reading -/

/-- The value of the four hexadecimal digits in front of a text. -/
def hexUnit? : List Char → Option Nat
  | a :: b :: c :: d :: _ =>
    match radixDigit? 16 a, radixDigit? 16 b, radixDigit? 16 c, radixDigit? 16 d with
    | some a, some b, some c, some d => some (((a * 16 + b) * 16 + c) * 16 + d)
    | _, _, _, _ => none
  | _ => none

/-- Why a text does not start with four hexadecimal digits. -/
def hexFailure (cs : List Char) : Failure :=
  if 4 ≤ utf8Length cs then ⟨.invalidEscape, 4⟩ else ⟨.endOfText, utf8Length cs⟩

/-- Whether a code unit opens a surrogate pair. -/
def isLeading (unit : Nat) : Bool := 0xD800 ≤ unit && unit ≤ 0xDBFF

/-- Whether a code unit closes a surrogate pair. -/
def isTrailing (unit : Nat) : Bool := 0xDC00 ≤ unit && unit ≤ 0xDFFF

/-- The character of a surrogate pair. -/
def pairChar (leading trailing : Nat) : Char :=
  Char.ofNat (0x10000 + (leading - 0xD800) * 0x400 + (trailing - 0xDC00))

/-- The character that code units in hexadecimal stand for, and the number of characters they take.
The text starts behind the first `\u`. -/
def decodeUnits (cs : List Char) : Except Failure (Char × Nat) :=
  match hexUnit? cs with
  | none => .error (hexFailure cs)
  | some unit =>
    if isTrailing unit then .error ⟨.loneSurrogate, 4⟩
    else if isLeading unit then
      match cs.drop 4 with
      | '\\' :: 'u' :: second =>
        match hexUnit? second with
        | none => .error ((hexFailure second).after 6)
        | some trailing =>
          if isTrailing trailing then .ok (pairChar unit trailing, 10)
          else .error ⟨.loneSurrogate, 10⟩
      | ['\\'] => .error ⟨.endOfText, 5⟩
      | '\\' :: _ => .error ⟨.endOfEscape, 6⟩
      | [] => .error ⟨.endOfText, 4⟩
      | _ => .error ⟨.endOfEscape, 5⟩
    else .ok (Char.ofNat unit, 4)

/-- The character that an escape stands for, and the number of characters it takes. The text starts
behind the backslash. -/
def decodeEscape : List Char → Except Failure (Char × Nat)
  | [] => .error ⟨.endOfText, 0⟩
  | '"' :: _ => .ok ('"', 1)
  | '\\' :: _ => .ok ('\\', 1)
  | '/' :: _ => .ok ('/', 1)
  | 'b' :: _ => .ok ('\x08', 1)
  | 'f' :: _ => .ok ('\x0c', 1)
  | 'n' :: _ => .ok ('\n', 1)
  | 'r' :: _ => .ok ('\r', 1)
  | 't' :: _ => .ok ('\t', 1)
  | 'u' :: cs =>
    match decodeUnits cs with
    | .ok (c, n) => .ok (c, n + 1)
    | .error f => .error (f.after 1)
  | _ :: _ => .error ⟨.invalidEscape, 1⟩

/-- Reads up to the closing quote: the characters meant, and the text behind the quote. `bound` is
at least the number of characters, and `taken` counts the bytes in front of them. -/
def decodeFrom : (bound : Nat) → (taken : Nat) → List Char →
    Except Failure (List Char × List Char)
  | 0, taken, _ => .error ⟨.endOfText, taken⟩
  | _ + 1, taken, [] => .error ⟨.endOfText, taken⟩
  | bound + 1, taken, c :: cs =>
    if c = '"' then .ok ([], cs)
    else if c = '\\' then
      match decodeEscape cs with
      | .error f => .error (f.after (taken + 1))
      | .ok (d, n) =>
        match decodeFrom bound (taken + 1 + n) (cs.drop n) with
        | .ok (ds, rest) => .ok (d :: ds, rest)
        | .error f => .error f
    else if c.toNat < 0x20 then .error ⟨.controlCharacter, taken + 1⟩
    else
      match decodeFrom bound (taken + c.utf8Size) cs with
      | .ok (ds, rest) => .ok (c :: ds, rest)
      | .error f => .error f

/-- Reads the text behind an opening quote. -/
def decodeBody (cs : List Char) : Except Failure (List Char × List Char) :=
  decodeFrom cs.length 0 cs

/-- Reads a text that is quoted as a whole. -/
def decode (text : String) : Except Failure String :=
  match text.toList with
  | '"' :: cs =>
    match decodeFrom cs.length 1 cs with
    | .ok (ds, _) => .ok (String.ofList ds)
    | .error f => .error f
  | _ => .error ⟨.endOfText, 0⟩

/-! ## Places -/

/-- A line, counted from one, and the number of bytes on it. -/
structure Place where
  line : Nat
  column : Nat
deriving DecidableEq, Repr

/-- The place reached after some bytes of a text. -/
def placeAfter (place : Place) : (bytes : Nat) → List Char → Place
  | 0, _ => place
  | _, [] => place
  | bytes, c :: cs =>
    if c = '\n' then placeAfter ⟨place.line + 1, 0⟩ (bytes - 1) cs
    else
      let n := min bytes c.utf8Size
      placeAfter ⟨place.line, place.column + n⟩ (bytes - n) cs

/-- What a failure to decode a text is reported as. -/
def Failure.message (text : String) (f : Failure) : String :=
  let place := placeAfter ⟨1, 0⟩ f.taken text.toList
  f.fault.message ++ " at line " ++ Nat.repr place.line ++ " column " ++ Nat.repr place.column

end SearchScript.Quoted
