import SearchScript.Number.Decimal
import SearchScript.Text.Blank
import SearchScript.Text.Digit

/-!
# Reading numbers from text

`Number.read` reads any text as a number: blanks at the ends are ignored, empty text is zero, the
prefixes `0x`, `0o` and `0b` announce another base, the infinities have names, and text of no known
form is NaN.
-/

namespace SearchScript

namespace Number

/-- Digits of a base read from the left, rounding after every digit; any other character makes the
result NaN. -/
def readRadixFrom (base : Nat) (value : Number) : List Char → Number
  | [] => value
  | c :: cs =>
    match radixDigit? base c with
    | some d => readRadixFrom base (value * ofNat base + ofNat d) cs
    | none => .nan

/-- The number written by the digits of a base; no digits at all are NaN. -/
def readRadix (base : Nat) (cs : List Char) : Number :=
  if cs.isEmpty then .nan else readRadixFrom base 0 cs

/-- An optional sign and the rest; true stands for a minus. -/
def readSign : List Char → Bool × List Char
  | '-' :: cs => (true, cs)
  | '+' :: cs => (false, cs)
  | cs => (false, cs)

/-- The exponent that ends a decimal text: nothing, or `e`, an optional sign and digits. -/
def readExponent? : List Char → Option Int
  | [] => some 0
  | c :: cs =>
    if c = 'e' ∨ c = 'E' then
      let (negative, digits) := readSign cs
      match digits, spanDigits 0 digits with
      | _ :: _, (value, []) => some (signed negative value)
      | _, _ => none
    else none

/-- A decimal text: an optional sign, digits with an optional point, an optional exponent. -/
def readDecimal? (text : List Char) : Option Number :=
  let (negative, cs) := readSign text
  let (whole, afterWhole) := spanDigits 0 cs
  let wholeCount := cs.length - afterWhole.length
  let (digits, rest, fractionCount) :=
    match afterWhole with
    | '.' :: fraction =>
      let (digits, rest) := spanDigits whole fraction
      (digits, rest, fraction.length - rest.length)
    | rest => (whole, rest, 0)
  if wholeCount + fractionCount = 0 then none
  else
    (readExponent? rest).map fun exponent =>
      ofDecimal negative ⟨digits, exponent - fractionCount⟩

/-- The number that a text stands for. -/
def read (text : String) : Number :=
  match Text.trimBlanks text.toList with
  | [] => 0
  | '0' :: 'x' :: digits | '0' :: 'X' :: digits => readRadix 16 digits
  | '0' :: 'o' :: digits | '0' :: 'O' :: digits => readRadix 8 digits
  | '0' :: 'b' :: digits | '0' :: 'B' :: digits => readRadix 2 digits
  | cs =>
    if cs = "Infinity".toList ∨ cs = "+Infinity".toList then .infinite false
    else if cs = "-Infinity".toList then .infinite true
    else (readDecimal? cs).getD .nan

end Number

end SearchScript
