import SearchScript.Number.Basic

/-!
# Decimals and the numbers nearest to them

A decimal is a whole number of digits scaled by a power of ten. `Number.ofDecimal` reads one as the
nearest number. `Decimal.shortest` goes the other way: it takes the coarsest decimal grid on which
one of the two neighbours of a number reads back as that number, and of two such neighbours the
nearer.
-/

namespace SearchScript

-- powers are those of the core library, whatever else is imported
attribute [local instance (high)] instPowNat

/-- The value `digits * 10 ^ exponent`. -/
structure Decimal where
  digits : Nat
  exponent : Int
deriving DecidableEq, Repr

namespace Number

/-- The number nearest to a decimal. The first two tests only spare the arithmetic on values that
are far too large or far too small. -/
def ofDecimal (negative : Bool) (d : Decimal) : Number :=
  if d.digits = 0 then signedZero negative
  else if 0 ≤ d.exponent then
    if 309 < d.exponent then .infinite negative
    else round negative (d.digits * 10 ^ d.exponent.toNat * unitsPerOne) 1
  else
    if d.digits.log2 + 1080 < 3 * d.exponent.natAbs then signedZero negative
    else round negative (d.digits * unitsPerOne) (10 ^ d.exponent.natAbs)

end Number

/-- Which of two equally near decimals is taken. -/
inductive Tie where
  /-- The larger one. -/
  | up
  /-- The one with the even last digit. -/
  | toEven
deriving DecidableEq, Repr

namespace Decimal

/-- The whole number of grid steps `10 ^ exponent` that lie at or below a count of units, and
whether the count is nearer to the next one. The tie rule decides a count in the middle. -/
def gridFloor (tie : Tie) (units : Nat) (exponent : Int) : Nat × Bool :=
  let num := if 0 ≤ exponent then units else units * 10 ^ exponent.natAbs
  let den :=
    if 0 ≤ exponent then Number.unitsPerOne * 10 ^ exponent.toNat else Number.unitsPerOne
  let floor := num / den
  let rest := num % den
  let up :=
    if 2 * rest < den then false
    else if den < 2 * rest then true
    else match tie with
      | .up => true
      | .toEven => floor % 2 == 1
  (floor, up)

/-- The neighbour of a count of units on a decimal grid that reads back as that count, the nearer
one if both do. -/
def onGrid? (tie : Tie) (units : Nat) (exponent : Int) : Option Decimal :=
  let (floor, up) := gridFloor tie units exponent
  let readsBack (d : Decimal) : Bool :=
    match Number.ofDecimal false d with
    | .finite false u _ => u == units
    | _ => false
  let below : Decimal := ⟨floor, exponent⟩
  let above : Decimal := ⟨floor + 1, exponent⟩
  match readsBack below, readsBack above with
  | true, true => some (if up then above else below)
  | true, false => some below
  | false, true => some above
  | false, false => none

/-- The exact decimal value of a count of units. -/
def exact (units : Nat) : Decimal := ⟨units * 5 ^ (1074 : Nat), -1074⟩

/-- A power of ten that lies above a positive count of units. -/
def ceilingExponent (units : Nat) : Int :=
  ((units.log2 : Int) - 1073) * 30103 / 100000 + 1

/-- Tries `steps` grids downward from `10 ^ exponent`. -/
def searchGrids (tie : Tie) (units : Nat) : Nat → Int → Decimal
  | 0, _ => exact units
  | steps + 1, exponent =>
    match onGrid? tie units exponent with
    | some d => d
    | none => searchGrids tie units steps (exponent - 1)

/-- The decimal with the fewest digits that reads back as a positive count of units. -/
def shortest (tie : Tie) (units : Nat) : Decimal :=
  searchGrids tie units 20 (ceilingExponent units)

end Decimal

end SearchScript
