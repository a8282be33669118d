import SearchScript.Number.Basic

/-!
# Bitwise arithmetic on numbers

The bitwise operators work on 32-bit two's complement words. A number becomes a word by dropping
its fraction and wrapping; the infinities and NaN become the zero word. A word becomes the number
that its signed value is.
-/

namespace SearchScript.Number

/-- The word of a number: its whole part modulo `2 ^ 32`, and zero if it has none. -/
def toWord (n : Number) : BitVec 32 :=
  BitVec.ofInt 32 (n.truncate?.getD 0)

/-- The signed value of a number's word. -/
def toInt32 (n : Number) : Int := n.toWord.toInt

/-- The number that a word's signed value is. -/
def ofWord (w : BitVec 32) : Number := ofInt w.toInt

/-- The shift distance of a number: its word modulo 32. -/
def shiftDistance (n : Number) : Nat := n.toWord.toNat % 32

/-- Bitwise or. -/
def bitOr (a b : Number) : Number := ofWord (a.toWord ||| b.toWord)

/-- Bitwise exclusive or. -/
def bitXor (a b : Number) : Number := ofWord (a.toWord ^^^ b.toWord)

/-- Bitwise and. -/
def bitAnd (a b : Number) : Number := ofWord (a.toWord &&& b.toWord)

/-- Bitwise and with the complement of the right side. -/
def bitAndNot (a b : Number) : Number := ofWord (a.toWord &&& ~~~b.toWord)

/-- Bitwise complement. -/
def bitNot (a : Number) : Number := ofWord (~~~a.toWord)

/-- Shift to the left. -/
def shiftLeft (a b : Number) : Number := ofWord (a.toWord <<< b.shiftDistance)

/-- Shift to the right that keeps the sign. -/
def shiftRight (a b : Number) : Number := ofWord (a.toWord.sshiftRight b.shiftDistance)

end SearchScript.Number
