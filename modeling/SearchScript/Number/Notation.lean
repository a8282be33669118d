import SearchScript.Number.Decimal

/-!
# How a number is laid out as text

The digits of a number are the fewest that read back. A `Notation` says how they are written: which
exponents are written positionally, whether a whole number gets a fraction of zero, and which of two
equally near digit strings is taken. `scriptNotation` is the text form of numbers in the language
itself.
-/

namespace SearchScript

/-- The decisions that fix the text of a finite number. -/
structure Number.Notation where
  /-- The least exponent of the leading digit that is written positionally. -/
  plainFrom : Int
  /-- The exponent of the leading digit at which positional writing ends. -/
  plainBelow : Int
  /-- Whether a whole number is written with the fraction `.0`. -/
  pointZero : Bool
  /-- Which of two equally near digit strings is taken. -/
  tie : Tie

namespace Number.Notation

/-- Positional digits of a decimal whose digits are `ds` and whose exponent is `exponent`. -/
def plain (style : Number.Notation) (ds : List Char) (exponent : Int) : List Char :=
  if 0 ≤ exponent then
    ds ++ List.replicate exponent.toNat '0' ++ (if style.pointZero then ['.', '0'] else [])
  else
    let places := exponent.natAbs
    if places < ds.length then
      ds.take (ds.length - places) ++ '.' :: ds.drop (ds.length - places)
    else
      '0' :: '.' :: (List.replicate (places - ds.length) '0' ++ ds)

/-- The exponent part, with its sign always written. -/
def exponentPart (exponent : Int) : List Char :=
  'e' :: (if exponent < 0 then '-' else '+') :: Nat.toDigits 10 exponent.natAbs

/-- Digits with a point behind the first one, followed by the exponent. -/
def scientific (ds : List Char) (leading : Int) : List Char :=
  match ds with
  | [] => []
  | [d] => d :: exponentPart leading
  | d :: rest => d :: '.' :: rest ++ exponentPart leading

/-- The text of a decimal. -/
def decimal (style : Number.Notation) (d : Decimal) : List Char :=
  let ds := Nat.toDigits 10 d.digits
  let leading := d.exponent + (ds.length - 1 : Nat)
  if style.plainFrom ≤ leading ∧ leading < style.plainBelow then style.plain ds d.exponent
  else scientific ds leading

/-- The text of a count of units without its sign. -/
def magnitude (style : Number.Notation) (units : Nat) : List Char :=
  if units = 0 then style.decimal ⟨0, 0⟩
  else style.decimal (Decimal.shortest style.tie units)

end Number.Notation

namespace Number

/-- Numbers of the language are written positionally from a millionth up to `10 ^ 21`, whole numbers
have no point, and a tie goes up. -/
def scriptNotation : Number.Notation where
  plainFrom := -6
  plainBelow := 21
  pointZero := false
  tie := .up

/-- The text of a number in the language. Negative zero is written as zero. -/
def format : Number → String
  | .nan => "NaN"
  | .infinite false => "Infinity"
  | .infinite true => "-Infinity"
  | .finite negative units _ =>
    let digits := scriptNotation.magnitude units
    String.ofList (if negative && units != 0 then '-' :: digits else digits)

end Number

end SearchScript
