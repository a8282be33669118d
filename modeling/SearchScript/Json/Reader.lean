import SearchScript.Json.Basic
import SearchScript.Number.Reading
import SearchScript.Text.Quoted

/-!
# Reading JSON

Text is read as one document. A fault is either that the text ends early or that something in it is
malformed; what is found first counts. Arrays and objects may be nested up to a limit.

Numbers without fraction and exponent are whole if they fit into 64 bits. All others are read as the
double nearest to their first digits, as many as fit into 64 bits, which is then scaled by the power
of ten that remains.
-/

namespace SearchScript

-- powers are those of the core library, whatever else is imported
attribute [local instance (high)] instPowNat

/-- What is wrong with a text that is no document. -/
inductive JsonFault where
  /-- The text ends before the document does. -/
  | endOfText
  /-- The text is not of the form of a document. -/
  | malformed
deriving DecidableEq, Repr

namespace Json

/-- The characters that may stand between the parts of a document. -/
def isSpace (c : Char) : Bool := c == ' ' || c == '\n' || c == '\t' || c == '\r'

/-- Text without the spaces at its front. -/
def skipSpace (cs : List Char) : List Char := cs.dropWhile isSpace

/-! ## Numbers -/

/-- The largest natural number of 64 bits. -/
def maxWhole : Nat := 2 ^ (64 : Nat) - 1

/-- The largest exponent that is counted. -/
def maxExponent : Nat := 2 ^ (31 : Nat) - 1

/-- A double scaled by a power of ten, one rounded step after another. -/
def scale : (fuel : Nat) → Number → Int → Except JsonFault Number
  | 0, x, _ => .ok x
  | fuel + 1, x, exponent =>
    if exponent.natAbs ≤ 308 then
      if 0 ≤ exponent then
        match x * Number.ofNat (10 ^ exponent.natAbs) with
        | .infinite _ => .error .malformed
        | y => .ok y
      else .ok (x / Number.ofNat (10 ^ exponent.natAbs))
    else if x.isZero then .ok x
    else if 0 ≤ exponent then .error .malformed
    else scale fuel (x / Number.ofNat (10 ^ (308 : Nat))) (exponent + 308)

/-- The double made of a sign, digits and an exponent. -/
def assemble (negative : Bool) (digits : Nat) (exponent : Int) : Except JsonFault JsonNumber :=
  match scale 8 (Number.ofNat digits) exponent with
  | .ok x => .ok (.double (if negative then -x else x))
  | .error e => .error e

/-- A text without the decimal digits at its front, and their number. -/
def dropDigits : List Char → Nat × List Char
  | [] => (0, [])
  | c :: cs =>
    if c.isDigit then
      let (n, rest) := dropDigits cs
      (n + 1, rest)
    else (0, c :: cs)

/-- The leading digits read onto a value while they fit into 64 bits: the value, the number of
digits read, and the rest. -/
def takeWhole (value : Nat) : List Char → Nat × Nat × List Char
  | [] => (value, 0, [])
  | c :: cs =>
    match digitValue? c with
    | none => (value, 0, c :: cs)
    | some d =>
      if maxWhole < value * 10 + d then (value, 0, c :: cs)
      else
        let (result, n, rest) := takeWhole (value * 10 + d) cs
        (result, n + 1, rest)

/-- Whether a decimal digit stands in front. -/
def startsWithDigit : List Char → Bool
  | c :: _ => c.isDigit
  | [] => false

/-- Reads an exponent, behind its mark. -/
def readExponent (negative : Bool) (digits : Nat) (exponent : Int) (cs : List Char) :
    Except JsonFault (JsonNumber × List Char) :=
  let (down, cs) := Number.readSign cs
  match cs with
  | [] => .error .endOfText
  | c :: _ =>
    if !c.isDigit then .error .malformed
    else
      let (value, rest) := spanDigits 0 cs
      if maxExponent < value then
        if digits ≠ 0 ∧ !down then .error .malformed
        else .ok (.double (Number.signedZero negative), rest)
      else
        let total := if down then exponent - value else exponent + value
        match
          assemble negative digits (max (-(2 ^ (31 : Nat))) (min (2 ^ (31 : Nat) - 1) total)) with
        | .ok n => .ok (n, rest)
        | .error e => .error e

/-- Reads what may follow the digits of a double: an exponent. -/
def readScaled (negative : Bool) (digits : Nat) (exponent : Int) :
    List Char → Except JsonFault (JsonNumber × List Char)
  | 'e' :: cs => readExponent negative digits exponent cs
  | 'E' :: cs => readExponent negative digits exponent cs
  | cs =>
    match assemble negative digits exponent with
    | .ok n => .ok (n, cs)
    | .error e => .error e

/-- Reads a fraction, behind its point. Digits that no longer fit are passed over. -/
def readFraction (negative : Bool) (digits : Nat) (exponent : Int) (cs : List Char) :
    Except JsonFault (JsonNumber × List Char) :=
  if cs.isEmpty then .error .endOfText
  else if !startsWithDigit cs then .error .malformed
  else
    let (digits, n, rest) := takeWhole digits cs
    readScaled negative digits (exponent - n) (dropDigits rest).2

/-- Reads a number behind its sign. -/
def readNumber (negative : Bool) (cs : List Char) : Except JsonFault (JsonNumber × List Char) :=
  match cs with
  | [] => .error .endOfText
  | first :: rest =>
    if !first.isDigit then .error .malformed
    else if first = '0' ∧ startsWithDigit rest then .error .malformed
    else
      let (digits, _, rest) := takeWhole 0 cs
      -- digits beyond 64 bits only move the exponent
      let (dropped, rest) := dropDigits rest
      match rest with
      | '.' :: fraction => readFraction negative digits dropped fraction
      | 'e' :: cs | 'E' :: cs => readExponent negative digits dropped cs
      | _ =>
        if dropped ≠ 0 then readScaled negative digits dropped rest
        else if !negative then .ok (.natural digits, rest)
        else if digits = 0 ∨ 2 ^ (63 : Nat) < digits then
          .ok (.double (-Number.ofNat digits), rest)
        else .ok (.negative digits, rest)

/-! ## Documents -/

/-- Reads the rest of a word. -/
def readWord : List Char → List Char → Except JsonFault (List Char)
  | [], cs => .ok cs
  | _ :: _, [] => .error .endOfText
  | w :: word, c :: cs => if w = c then readWord word cs else .error .malformed

/-- Reads a quoted text behind its opening quote. -/
def readString (cs : List Char) : Except JsonFault (String × List Char) :=
  match Quoted.decodeBody cs with
  | .ok (text, rest) => .ok (String.ofList text, rest)
  | .error ⟨.endOfText, _⟩ => .error .endOfText
  | .error _ => .error .malformed

/-- Reads the colon between the name and the value of a member. -/
def readColon (cs : List Char) : Except JsonFault (List Char) :=
  match skipSpace cs with
  | [] => .error .endOfText
  | ':' :: rest => .ok rest
  | _ => .error .malformed

mutual

/-- Reads a document from the front of a text. Arrays and objects may still be nested to below the
given depth. -/
@[grind =] def readValue : (fuel : Nat) → (depth : Nat) → List Char →
    Except JsonFault (Json × List Char)
  | 0, _, _ => .error .malformed
  | fuel + 1, depth, cs =>
    match skipSpace cs with
    | [] => .error .endOfText
    | 'n' :: rest => do
      let rest ← readWord "ull".toList rest
      .ok (.null, rest)
    | 't' :: rest => do
      let rest ← readWord "rue".toList rest
      .ok (.bool true, rest)
    | 'f' :: rest => do
      let rest ← readWord "alse".toList rest
      .ok (.bool false, rest)
    | '"' :: rest => do
      let (text, rest) ← readString rest
      .ok (.string text, rest)
    | '[' :: rest =>
      if depth ≤ 1 then .error .malformed
      else do
        let (items, rest) ← readItems fuel (depth - 1) true rest
        .ok (.array items, rest)
    | '\x7b' :: rest =>
      if depth ≤ 1 then .error .malformed
      else do
        let (members, rest) ← readMembers fuel (depth - 1) true rest
        .ok (.object members, rest)
    | '-' :: rest => do
      let (n, rest) ← readNumber true rest
      .ok (.number n, rest)
    | c :: rest =>
      if c.isDigit then do
        let (n, rest) ← readNumber false (c :: rest)
        .ok (.number n, rest)
      else .error .malformed

/-- Reads the items of an array up to its closing bracket; `first` tells that none was read yet. -/
def readItems : (fuel : Nat) → (depth : Nat) → (first : Bool) → List Char →
    Except JsonFault (List Json × List Char)
  | 0, _, _, _ => .error .malformed
  | fuel + 1, depth, first, cs =>
    match skipSpace cs with
    | [] => .error .endOfText
    | ']' :: rest => .ok ([], rest)
    | c :: rest => do
      let start ←
        if first then pure (c :: rest)
        else if c ≠ ',' then .error .malformed
        else
          match skipSpace rest with
          | [] => .error .endOfText
          | ']' :: _ => .error .malformed
          | after => pure after
      let (item, rest) ← readValue fuel depth start
      let (items, rest) ← readItems fuel depth false rest
      .ok (item :: items, rest)

/-- Reads the members of an object up to its closing brace; `first` tells that none was read yet. -/
def readMembers : (fuel : Nat) → (depth : Nat) → (first : Bool) → List Char →
    Except JsonFault (List (String × Json) × List Char)
  | 0, _, _, _ => .error .malformed
  | fuel + 1, depth, first, cs =>
    match skipSpace cs with
    | [] => .error .endOfText
    | '\x7d' :: rest => .ok ([], rest)
    | c :: rest => do
      let start ←
        if first then pure (c :: rest)
        else if c ≠ ',' then .error .malformed
        else
          match skipSpace rest with
          | [] => .error .endOfText
          | after => pure after
      match start with
      | '"' :: rest =>
        let (name, rest) ← readString rest
        let rest ← readColon rest
        let (value, rest) ← readValue fuel depth rest
        let (members, rest) ← readMembers fuel depth false rest
        .ok ((name, value) :: members, rest)
      | _ => .error .malformed

end

/-- One more than the number of arrays and objects that may be nested. -/
def depthLimit : Nat := 128

/-- Reads the document at the front of a text, and what follows it. -/
def readFront (text : String) : Except JsonFault (Json × List Char) :=
  let cs := text.toList
  readValue (2 * cs.length + 2) depthLimit cs

/-- Refuses anything but space behind a document. -/
def readEnd (rest : List Char) : Except JsonFault Unit :=
  if (skipSpace rest).isEmpty then .ok () else .error .malformed

/-- Reads a text that is one document. -/
def parse (text : String) : Except JsonFault Json := do
  let (json, rest) ← readFront text
  readEnd rest
  .ok json

end Json

end SearchScript
