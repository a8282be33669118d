/-!
# Numbers of the language

The numbers are the double-precision binary floating-point numbers: a NaN, two infinities and the
finite values with 53 significant binary places. Every finite value is a whole multiple of the
least positive one, the *unit* `2 ^ (-1074)`, so a finite number is kept as a sign and a count of
units. Each operation computes the exact result as a quotient of naturals and rounds it once, to
the nearest number with ties to the even neighbour (`Number.round`).

Main facts:

* `Number.roundHalfEven_le` — rounding a quotient adds at most one to its floor;
* `Number.fits_roundUnits` — a rounded count of units has at most 53 significant places.
-/

namespace SearchScript

-- powers are those of the core library, whatever else is imported
attribute [local instance (high)] instPowNat

namespace Number

/-- The number of units in `1`. -/
def unitsPerOne : Nat := 2 ^ (1074 : Nat)

/-- The count of units at which the numbers end: `2 ^ 1024`. -/
def unitsLimit : Nat := 2 ^ (2098 : Nat)

/-- A count of units is a number when it is below the limit and has at most 53 significant binary
places. -/
def Fits (units : Nat) : Prop :=
  units < unitsLimit ∧ 2 ^ (units.log2 - 52) ∣ units

instance (units : Nat) : Decidable (Fits units) :=
  inferInstanceAs (Decidable (_ ∧ _))

theorem fits_zero : Fits 0 := ⟨by decide +kernel, Nat.dvd_zero _⟩

end Number

/-- A number: not a number, an infinity, or a signed count of units. -/
inductive Number where
  | nan
  | infinite (negative : Bool)
  | finite (negative : Bool) (units : Nat) (fits : Number.Fits units)
deriving DecidableEq

namespace Number

/-! ## Rounding -/

/-- The whole number nearest to `num / den`; of two equally near ones the even one. -/
def roundHalfEven (num den : Nat) : Nat :=
  let floor := num / den
  let rest := num % den
  if 2 * rest < den then floor
  else if den < 2 * rest then floor + 1
  else floor + floor % 2

theorem roundHalfEven_le (num den : Nat) : roundHalfEven num den ≤ num / den + 1 := by
  unfold roundHalfEven
  dsimp only
  have := Nat.mod_lt (num / den) (show 0 < 2 by decide)
  split
  · omega
  · split <;> omega

/-- The place of the last significant binary digit of a value with this whole part of units. -/
def lastPlace (whole : Nat) : Nat := whole.log2 - 52

/-- The count of units nearest to `num / den` units that has at most 53 significant places. -/
def roundUnits (num den : Nat) : Nat :=
  let place := 2 ^ lastPlace (num / den)
  roundHalfEven num (den * place) * place

theorem roundHalfEven_scaled_le (num den : Nat) :
    roundHalfEven num (den * 2 ^ lastPlace (num / den)) ≤ 2 ^ (53 : Nat) := by
  refine Nat.le_trans (roundHalfEven_le _ _) ?_
  rw [← Nat.div_div_eq_div_mul]
  refine Nat.succ_le_of_lt ((Nat.div_lt_iff_lt_mul (Nat.two_pow_pos _)).2 ?_)
  refine Nat.lt_of_lt_of_le Nat.lt_log2_self ?_
  rw [← Nat.pow_add]
  refine Nat.pow_le_pow_right (by decide) ?_
  unfold lastPlace
  omega

theorem log2_mul_two_pow_sub_dvd {m : Nat} (k : Nat) (h : m ≤ 2 ^ (53 : Nat)) :
    2 ^ ((m * 2 ^ k).log2 - 52) ∣ m * 2 ^ k := by
  rcases Nat.eq_zero_or_pos m with rfl | hpos
  · simp
  rcases Nat.lt_or_eq_of_le h with hlt | rfl
  · have hlog : (m * 2 ^ k).log2 < 53 + k := by
      refine (Nat.log2_lt (Nat.ne_of_gt (Nat.mul_pos hpos (Nat.two_pow_pos k)))).2 ?_
      rw [Nat.pow_add]
      exact Nat.mul_lt_mul_of_pos_right hlt (Nat.two_pow_pos k)
    exact Nat.dvd_trans (Nat.pow_dvd_pow 2 (show (m * 2 ^ k).log2 - 52 ≤ k by omega))
      (Nat.dvd_mul_left _ _)
  · rw [← Nat.pow_add, Nat.log2_two_pow]
    exact Nat.pow_dvd_pow 2 (by omega)

theorem fits_roundUnits {num den : Nat} (h : roundUnits num den < unitsLimit) :
    Fits (roundUnits num den) :=
  ⟨h, log2_mul_two_pow_sub_dvd _ (roundHalfEven_scaled_le num den)⟩

/-- The number nearest to `num / den` units, with the given sign. At or past the limit it is an
infinity. -/
def round (negative : Bool) (num den : Nat) : Number :=
  if h : roundUnits num den < unitsLimit then
    .finite negative (roundUnits num den) (fits_roundUnits h)
  else
    .infinite negative

/-- Zero with the given sign. -/
def signedZero (negative : Bool) : Number := .finite negative 0 fits_zero

/-- The number nearest to a natural number. -/
def ofNat (n : Nat) : Number := round false (n * unitsPerOne) 1

/-- The number nearest to an integer. -/
def ofInt (i : Int) : Number := round (i < 0) (i.natAbs * unitsPerOne) 1

instance (n : Nat) : OfNat Number n := ⟨ofNat n⟩

instance : Inhabited Number := ⟨signedZero false⟩

/-! ## Signs and classes -/

/-- Whether the number carries a minus sign, as negative zero does and NaN does not. -/
def isNegative : Number → Bool
  | .nan => false
  | .infinite negative => negative
  | .finite negative _ _ => negative

/-- Whether the number is NaN. -/
def isNaN : Number → Bool
  | .nan => true
  | _ => false

/-- Whether the number is one of the two zeros. -/
def isZero : Number → Bool
  | .finite _ units _ => units == 0
  | _ => false

/-- The integer with a given sign and size. -/
def signed (negative : Bool) (size : Nat) : Int :=
  if negative then -(size : Int) else size

/-- Where a number stands on the line, counted in units. The infinities stand at the limit, past
every finite number, and NaN stands nowhere. -/
def position? : Number → Option Int
  | .nan => none
  | .infinite negative => some (signed negative unitsLimit)
  | .finite negative units _ => some (signed negative units)

/-! ## Comparison -/

/-- Numeric equality: the zeros are equal, and NaN equals nothing. -/
def equal (a b : Number) : Bool :=
  match a.position?, b.position? with
  | some x, some y => x == y
  | _, _ => false

/-- Numeric order; false when either side is NaN. -/
def less (a b : Number) : Bool :=
  match a.position?, b.position? with
  | some x, some y => x < y
  | _, _ => false

/-- Numeric order or equality; false when either side is NaN. -/
def lessEqual (a b : Number) : Bool :=
  match a.position?, b.position? with
  | some x, some y => x ≤ y
  | _, _ => false

/-! ## Arithmetic -/

/-- The number of the opposite sign. -/
def neg : Number → Number
  | .nan => .nan
  | .infinite negative => .infinite (!negative)
  | .finite negative units fits => .finite (!negative) units fits

/-- The rounded sum. A sum of exactly zero is negative only if both parts are. -/
def add : Number → Number → Number
  | .nan, _ => .nan
  | _, .nan => .nan
  | .infinite a, .infinite b => if a = b then .infinite a else .nan
  | .infinite a, .finite .. => .infinite a
  | .finite .., .infinite b => .infinite b
  | .finite a m _, .finite b n _ =>
    let sum := signed a m + signed b n
    if sum = 0 then signedZero (a && b) else round (sum < 0) sum.natAbs 1

/-- The rounded difference. -/
def sub (a b : Number) : Number := add a (neg b)

/-- The rounded product; an infinity times zero is NaN. -/
def mul : Number → Number → Number
  | .nan, _ => .nan
  | _, .nan => .nan
  | .infinite a, .infinite b => .infinite (a ^^ b)
  | .infinite a, .finite b n _ => if n = 0 then .nan else .infinite (a ^^ b)
  | .finite a m _, .infinite b => if m = 0 then .nan else .infinite (a ^^ b)
  | .finite a m _, .finite b n _ => round (a ^^ b) (m * n) unitsPerOne

/-- The rounded quotient; a nonzero number divided by zero is an infinity, zero by zero NaN. -/
def div : Number → Number → Number
  | .nan, _ => .nan
  | _, .nan => .nan
  | .infinite _, .infinite _ => .nan
  | .infinite a, .finite b _ _ => .infinite (a ^^ b)
  | .finite a _ _, .infinite b => signedZero (a ^^ b)
  | .finite a m _, .finite b n _ =>
    if n = 0 then
      if m = 0 then .nan else .infinite (a ^^ b)
    else
      round (a ^^ b) (m * unitsPerOne) n

/-- The remainder of division toward zero, with the sign of the dividend. -/
def rem : Number → Number → Number
  | .nan, _ => .nan
  | _, .nan => .nan
  | .infinite _, _ => .nan
  | .finite a m fits, .infinite _ => .finite a m fits
  | .finite a m _, .finite _ n _ => if n = 0 then .nan else round a (m % n) 1

instance : Neg Number := ⟨neg⟩
instance : Add Number := ⟨add⟩
instance : Sub Number := ⟨sub⟩
instance : Mul Number := ⟨mul⟩
instance : Div Number := ⟨div⟩
instance : Mod Number := ⟨rem⟩

/-! ## Whole parts -/

/-- The integer left when the fraction of a finite number is dropped. -/
def truncate? : Number → Option Int
  | .finite negative units _ => some (signed negative (units / unitsPerOne))
  | _ => none

/-- The integer that a number is, if it is one. -/
def toInt? : Number → Option Int
  | .finite negative units _ =>
    if units % unitsPerOne = 0 then some (signed negative (units / unitsPerOne)) else none
  | _ => none

/-- The fraction dropped and the result brought into `0 ... limit`; NaN gives 0. -/
def clampToNat (limit : Nat) : Number → Nat
  | .nan => 0
  | .infinite negative => if negative then 0 else limit
  | .finite negative units _ => if negative then 0 else min limit (units / unitsPerOne)

end Number

end SearchScript
