import Mathlib.Data.Int.Bitwise
import SearchScript.Proofs.Except
import SearchScript.Proofs.Number.Exact
import SearchScript.Value.Operators

/-!
# Bitwise operators and integers

The word of a number is read as the integer between `-2 ^ 31` and `2 ^ 31` that differs from the
whole part of the number by a multiple of `2 ^ 32`. The bitwise operators do to these integers what
the operations of two's complement arithmetic do, bit by bit on integers of any length, or by
multiplying and dividing by a power of two; only a shift to the left may leave the range, and is
brought back.

## Key definitions

- `Number.steppedInt32`: the conversion to an integer in steps of floating-point arithmetic
- `BinaryOp.onIntegers?`: what a bitwise operator does to integers

## Key results

- `Number.steppedInt32_eq`: the steps come to the value of the word
- `Number.binary?_of_onIntegers?`: operators on numbers are operations on the integers
-/

namespace SearchScript

-- powers are those of the core library, whatever else is imported
attribute [local instance (high)] instPowNat

/-! ## Bits of integers -/

/-- Integers with the same bits are the same. -/
theorem Int.eq_of_testBit {x y : Int} (h : ∀ i, x.testBit i = y.testBit i) : x = y := by
  -- far enough to the left, a natural number has only zeros and a negative one only ones
  have hdiffer : ∀ m n : Nat, ∃ i, (Int.ofNat m).testBit i ≠ (Int.negSucc n).testBit i := by
    intro m n
    refine ⟨max m n, ?_⟩
    have hm : m.testBit (max m n) = false :=
      Nat.testBit_lt_two_pow (Nat.lt_of_le_of_lt (Nat.le_max_left m n) Nat.lt_two_pow_self)
    have hn : n.testBit (max m n) = false :=
      Nat.testBit_lt_two_pow (Nat.lt_of_le_of_lt (Nat.le_max_right m n) Nat.lt_two_pow_self)
    simp [Int.testBit, hm, hn]
  match x, y with
  | .ofNat m, .ofNat n => exact congrArg Int.ofNat (Nat.eq_of_testBit_eq h)
  | .negSucc m, .negSucc n =>
    refine congrArg Int.negSucc (Nat.eq_of_testBit_eq fun i => ?_)
    simpa [Int.testBit] using h i
  | .ofNat m, .negSucc n =>
    obtain ⟨i, hi⟩ := hdiffer m n
    exact absurd (h i) hi
  | .negSucc m, .ofNat n =>
    obtain ⟨i, hi⟩ := hdiffer n m
    exact absurd (h i).symm hi

/-- The value of a word has the bits of the word, and its sign to the left of them. -/
theorem BitVec.testBit_toInt {w : Nat} (x : BitVec w) (i : Nat) :
    x.toInt.testBit i = if i < w then x.getLsbD i else x.msb := by
  rw [BitVec.toInt_eq_msb_cond]
  cases hmsb : x.msb with
  | false =>
    rw [if_neg (by simp)]
    change x.toNat.testBit i = _
    rw [BitVec.testBit_toNat]
    split
    · rfl
    · next hi => exact BitVec.getLsbD_of_ge x i (Nat.le_of_not_lt hi)
  | true =>
    -- a negative value is the complement of what the inverted word counts
    have hvalue : (x.toNat : Int) - (2 ^ w : Nat) = Int.negSucc (~~~x).toNat := by
      rw [BitVec.toNat_not]
      have := x.isLt
      omega
    rw [if_pos rfl, hvalue]
    change (!(~~~x).toNat.testBit i) = _
    rw [BitVec.testBit_toNat, BitVec.getLsbD_not]
    split
    · next hi => simp [hi]
    · next hi => simp [hi]

/-- An operation on the bits of words is the operation on the bits of their values. -/
theorem BitVec.toInt_eq_bitwise {w : Nat} {f : Bool → Bool → Bool} {x y z : BitVec w}
    (hw : 0 < w) (h : ∀ i < w, z.getLsbD i = f (x.getLsbD i) (y.getLsbD i)) :
    z.toInt = Int.bitwise f x.toInt y.toInt := by
  refine Int.eq_of_testBit fun i => ?_
  rw [Int.testBit_bitwise, BitVec.testBit_toInt, BitVec.testBit_toInt, BitVec.testBit_toInt]
  split
  · next hi => exact h i hi
  · simp only [BitVec.msb_eq_getLsbD_last]
    exact h (w - 1) (by omega)

section

variable (x y : BitVec 32)

theorem BitVec.toInt_or_eq : (x ||| y).toInt = Int.lor x.toInt y.toInt := by
  rw [← Int.bitwise_or]
  exact BitVec.toInt_eq_bitwise (by decide) fun i _ => BitVec.getLsbD_or

theorem BitVec.toInt_xor_eq : (x ^^^ y).toInt = Int.xor x.toInt y.toInt := by
  rw [← Int.bitwise_xor]
  exact BitVec.toInt_eq_bitwise (by decide) fun i _ => BitVec.getLsbD_xor

theorem BitVec.toInt_and_eq : (x &&& y).toInt = Int.land x.toInt y.toInt := by
  rw [← Int.bitwise_and]
  exact BitVec.toInt_eq_bitwise (by decide) fun i _ => BitVec.getLsbD_and

theorem BitVec.toInt_andNot : (x &&& ~~~y).toInt = Int.ldiff x.toInt y.toInt := by
  rw [← Int.bitwise_diff]
  exact BitVec.toInt_eq_bitwise (by decide) fun i hi => by simp [hi]

theorem BitVec.toInt_not_eq : (~~~x).toInt = -x.toInt - 1 := by
  have := x.isLt
  rw [BitVec.toInt_eq_toNat_cond, BitVec.toInt_eq_toNat_cond, BitVec.toNat_not]
  split <;> split <;> omega

/-- A shift to the left multiplies, and what leaves the word is lost. -/
theorem BitVec.toInt_shiftLeft_eq (distance : Nat) :
    (x <<< distance).toInt = (x.toInt * 2 ^ distance).bmod (2 ^ 32) := by
  rw [BitVec.toInt_shiftLeft, BitVec.toInt_eq_toNat_bmod, Int.bmod_mul_bmod, Nat.shiftLeft_eq]
  push_cast
  rfl

/-- A shift to the right divides and rounds down. -/
theorem BitVec.toInt_sshiftRight_eq (distance : Nat) :
    (x.sshiftRight distance).toInt = x.toInt / 2 ^ distance := by
  rw [BitVec.toInt_sshiftRight, Int.shiftRight_eq_div_pow]
  push_cast
  rfl

end

/-- What a bitwise operator does to the integers between `-2 ^ 31` and `2 ^ 31`. The operations on
bits are those on integers with endless signs, a shift goes by a distance below 32, and only a shift
to the left can leave the range. -/
def BinaryOp.onIntegers? : BinaryOp → Option (Int → Int → Int)
  | .bitOr => some Int.lor
  | .bitXor => some Int.xor
  | .bitAnd => some Int.land
  | .bitAndNot => some Int.ldiff
  | .shiftLeft => some fun x y => (x * 2 ^ (y % 32).toNat).bmod (2 ^ 32)
  | .shiftRight => some fun x y => x / 2 ^ (y % 32).toNat
  | _ => none

namespace Number

variable {n a b : Number} {negative : Bool} {units m k : Nat}

/-! ## Numbers as integers -/

theorem toInt32_eq_bmod (n : Number) : n.toInt32 = (n.truncate?.getD 0).bmod (2 ^ 32) :=
  BitVec.toInt_ofInt _

theorem bmod_eq_of_modEq {x y : Int} (h : x ≡ y [ZMOD 2 ^ 32]) :
    x.bmod (2 ^ 32) = y.bmod (2 ^ 32) := by
  have hmod : x % ((2 ^ 32 : Nat) : Int) = y % ((2 ^ 32 : Nat) : Int) := h
  rw [← Int.emod_bmod x, hmod, Int.emod_bmod]

/-- The value of a word is the one integer of its range that differs by a multiple of `2 ^ 32` from
the whole part. -/
theorem eq_toInt32_iff (n : Number) (i : Int) :
    i = n.toInt32 ↔ -2 ^ 31 ≤ i ∧ i < 2 ^ 31 ∧ i ≡ n.truncate?.getD 0 [ZMOD 2 ^ 32] := by
  rw [toInt32_eq_bmod]
  generalize n.truncate?.getD 0 = t
  constructor
  · rintro rfl
    exact ⟨Int.le_bmod (by decide), Int.bmod_lt (by decide), Int.bmod_emod⟩
  · rintro ⟨hlo, hhi, hmod⟩
    rw [← bmod_eq_of_modEq hmod]
    exact (Int.bmod_eq_of_le_mul_two (by omega) (by omega)).symm

/-- The whole part of a finite number is the quotient toward zero of its units. -/
theorem truncate?_finite {fits : Fits units} :
    (finite negative units fits).truncate? =
      some ((signed negative units).tdiv unitsPerOne) := by
  cases negative with
  | false => exact congrArg some (Int.ofNat_tdiv units unitsPerOne)
  | true =>
    refine congrArg some ?_
    change -((units / unitsPerOne : Nat) : Int) = (-(units : Int)).tdiv unitsPerOne
    rw [Int.neg_tdiv, Int.ofNat_tdiv]

/-! ## The conversion in steps -/

/-- A number without its fraction. -/
def wholePart : Number → Number
  | .finite negative units fits =>
    .finite negative (units / unitsPerOne * unitsPerOne) (fits.div_mul_two_pow 1074)
  | n => n

/-- The size of a number. -/
def abs : Number → Number
  | .nan => .nan
  | .infinite _ => .infinite false
  | .finite _ units fits => .finite false units fits

/-- The remainder of a division, made positive by adding the divisor to a negative one. -/
def remEuclid (a b : Number) : Number :=
  let rest := a % b
  if rest.less 0 then rest + b.abs else rest

/-- The conversion to a 32-bit integer in steps of floating-point arithmetic: the remainder of the
whole part is cut to a word without a sign, which is then taken as one with a sign. -/
def steppedInt32 (n : Number) : Int :=
  match n with
  | .finite .. =>
    let rest := n.wholePart.remEuclid (ofNat 4294967296)
    (BitVec.ofNat 32 (rest.clampToNat 4294967295)).toInt
  | _ => 0

theorem wholePart_rem (fits : Fits units) :
    (finite negative units fits).wholePart % ofNat 4294967296 =
      finite negative (units / unitsPerOne % 4294967296 * unitsPerOne)
        (fits_whole (Nat.le_of_lt (Nat.lt_trans (Nat.mod_lt _ (by decide)) (by decide)))) := by
  rw [ofNat_of_le (show 4294967296 ≤ 2 ^ (53 : Nat) by decide)]
  change rem _ _ = _
  have hne : 4294967296 * unitsPerOne ≠ 0 :=
    Nat.mul_ne_zero (by decide) (Nat.ne_of_gt unitsPerOne_pos)
  simp only [wholePart, rem, if_neg hne, Nat.mul_mod_mul_right]
  exact round_of_fits _

theorem clampToNat_whole {limit : Nat} {fits : Fits (m * unitsPerOne)} :
    (finite false (m * unitsPerOne) fits).clampToNat limit = min limit m := by
  simp only [clampToNat, Bool.false_eq_true, if_false, Nat.mul_div_cancel _ unitsPerOne_pos]

/-- The difference of two whole numbers up to `2 ^ 53` is exact. -/
theorem add_neg_whole (hm : m < k) (hk : k ≤ 2 ^ (53 : Nat)) {fits : Fits (m * unitsPerOne)}
    {fits' : Fits (k * unitsPerOne)} :
    finite true (m * unitsPerOne) fits + finite false (k * unitsPerOne) fits' =
      finite false ((k - m) * unitsPerOne) (fits_whole (Nat.le_trans (Nat.sub_le k m) hk)) := by
  rw [negative_add_of_le _ _ (Nat.mul_le_mul_right _ (Nat.le_of_lt hm)), ← Nat.sub_mul]
  exact round_of_fits _

/-- The remainder in floating-point arithmetic is the remainder of integers. -/
theorem clampToNat_remEuclid (fits : Fits units) :
    ((finite negative units fits).wholePart.remEuclid (ofNat 4294967296)).clampToNat 4294967295 =
      (signed negative (units / unitsPerOne) % 4294967296).toNat := by
  have hlt : units / unitsPerOne % 4294967296 < 4294967296 := Nat.mod_lt _ (by decide)
  simp only [remEuclid, wholePart_rem, less_zero_finite]
  cases negative with
  | false =>
    simp only [Bool.false_and, Bool.false_eq_true, if_false, clampToNat_whole, signed]
    omega
  | true =>
    simp only [Bool.true_and, bne_iff_ne, signed, if_true]
    by_cases hrest : units / unitsPerOne % 4294967296 = 0
    · -- a remainder of negative zero is not less than zero, and is cut to zero
      rw [if_neg (by rw [hrest, Nat.zero_mul]; exact fun h => h rfl)]
      simp only [clampToNat, if_true]
      omega
    · rw [if_pos (Nat.mul_ne_zero hrest (Nat.ne_of_gt unitsPerOne_pos)),
        ofNat_of_le (show 4294967296 ≤ 2 ^ (53 : Nat) by decide)]
      simp only [abs]
      rw [add_neg_whole hlt (by decide), clampToNat_whole]
      omega

/-- The steps of the conversion come to the value of the word. -/
theorem steppedInt32_eq (n : Number) : n.steppedInt32 = n.toInt32 := by
  match n with
  | .nan => rfl
  | .infinite _ => rfl
  | .finite negative units fits =>
    simp only [steppedInt32, clampToNat_remEuclid, toInt32, toWord, truncate?, Option.getD_some]
    refine congrArg BitVec.toInt (BitVec.eq_of_toNat_eq ?_)
    rw [BitVec.toNat_ofNat, BitVec.toNat_ofInt]
    omega

/-! ## Operators -/

theorem natAbs_toInt_le (w : BitVec 32) : w.toInt.natAbs ≤ 2 ^ (53 : Nat) := by
  have hlo : -2 ^ 31 ≤ w.toInt := BitVec.le_toInt w
  have hhi : w.toInt < 2 ^ 31 := BitVec.toInt_lt
  omega

/-- The value of a word is a number. -/
theorem toInt?_ofWord (w : BitVec 32) : (ofWord w).toInt? = some w.toInt :=
  toInt?_ofInt (natAbs_toInt_le w)

theorem toWord_ofWord (w : BitVec 32) : (ofWord w).toWord = w := by
  simp only [toWord, ofWord, truncate?_ofInt (natAbs_toInt_le w), Option.getD_some,
    BitVec.ofInt_toInt]

/-- The shift distance depends on the last five places alone, whatever the sign is. -/
theorem shiftDistance_eq (n : Number) : n.shiftDistance = (n.toInt32 % 32).toNat := by
  unfold shiftDistance toInt32
  rw [BitVec.toInt_eq_toNat_cond]
  split <;> omega

/-- Operators on numbers are operations on the integers that the numbers stand for. -/
theorem binary?_of_onIntegers? {op : BinaryOp} {f : Int → Int → Int}
    (h : op.onIntegers? = some f) (a b : Number) :
    ∃ w : BitVec 32, w.toInt = f a.toInt32 b.toInt32 ∧
      a.binary? op b = some (.number (ofWord w)) := by
  cases op <;> cases h
  case bitOr => exact ⟨_, BitVec.toInt_or_eq _ _, rfl⟩
  case bitXor => exact ⟨_, BitVec.toInt_xor_eq _ _, rfl⟩
  case bitAnd => exact ⟨_, BitVec.toInt_and_eq _ _, rfl⟩
  case bitAndNot => exact ⟨_, BitVec.toInt_andNot _ _, rfl⟩
  case shiftLeft =>
    simp only [← shiftDistance_eq]
    exact ⟨_, BitVec.toInt_shiftLeft_eq _ _, rfl⟩
  case shiftRight =>
    simp only [← shiftDistance_eq]
    exact ⟨_, BitVec.toInt_sshiftRight_eq _ _, rfl⟩

/-- What a bitwise operator answers is exact. -/
theorem binary_of_onIntegers? {op : BinaryOp} {f : Int → Int → Int}
    (h : op.onIntegers? = some f) (a b : Number) :
    Value.binary op (.number a) (.number b) = .ok (.number (ofInt (f a.toInt32 b.toInt32))) ∧
      (ofInt (f a.toInt32 b.toInt32)).toInt? = some (f a.toInt32 b.toInt32) := by
  obtain ⟨w, hw, hbinary⟩ := binary?_of_onIntegers? h a b
  -- a subscript is told apart before the operand is looked at
  have hop : op ≠ .subscript ∧ op.isNumeric = true := by
    cases op <;> cases h <;> exact ⟨by decide, rfl⟩
  rw [← hw]
  refine ⟨?_, toInt?_ofWord w⟩
  have hright : liftValue (Value.number b).requireNumber = .ok b := rfl
  unfold Value.binary
  rw [if_neg hop.1]
  simp only [hop.2, if_true, hright, Except.ok_bind, hbinary]
  rfl

theorem bitNot_eq (a : Number) :
    a.bitNot = ofInt (-a.toInt32 - 1) ∧
      (ofInt (-a.toInt32 - 1)).toInt? = some (-a.toInt32 - 1) := by
  have hw := BitVec.toInt_not_eq a.toWord
  change (~~~a.toWord).toInt = -a.toInt32 - 1 at hw
  rw [← hw]
  exact ⟨rfl, toInt?_ofWord _⟩

/-- The bits of a word that are set in another one, together with those that are not. -/
theorem bitOr_bitAnd_bitAndNot (a b : Number) :
    (a.bitAnd b).bitOr (a.bitAndNot b) = ofInt a.toInt32 := by
  simp only [bitOr, bitAnd, bitAndNot, toWord_ofWord]
  refine congrArg ofWord (BitVec.eq_of_getLsbD_eq fun i hi => ?_)
  simp only [BitVec.getLsbD_or, BitVec.getLsbD_and, BitVec.getLsbD_not, hi, decide_true,
    Bool.true_and]
  cases a.toWord.getLsbD i <;> cases b.toWord.getLsbD i <;> rfl

theorem toInt32_eq_of_modEq {a a' : Number}
    (h : a.truncate?.getD 0 ≡ a'.truncate?.getD 0 [ZMOD 2 ^ 32]) : a.toInt32 = a'.toInt32 := by
  rw [toInt32_eq_bmod, toInt32_eq_bmod, bmod_eq_of_modEq h]

/-- The steps of the conversion come to the one integer in the range of a word that differs by a
multiple of `2 ^ 32` from the number truncated toward zero, and to zero for a number that is not
finite. The bitwise operators are exact operations on these integers. So they depend only on the
operands truncated toward zero, modulo `2 ^ 32`; and the bits of a word that another one has,
together with those that it has not, are the bits of the word. -/
theorem bitwise_exact :
    (∀ n : Number, n.steppedInt32 = n.toInt32) ∧
    (∀ {negative units fits} i, i = (finite negative units fits).toInt32 ↔
      -2 ^ 31 ≤ i ∧ i < 2 ^ 31 ∧ i ≡ (signed negative units).tdiv unitsPerOne [ZMOD 2 ^ 32]) ∧
    nan.toInt32 = 0 ∧ (∀ negative, (infinite negative).toInt32 = 0) ∧
    (∀ {op f}, BinaryOp.onIntegers? op = some f → ∀ a b : Number,
      Value.binary op (.number a) (.number b) = .ok (.number (ofInt (f a.toInt32 b.toInt32))) ∧
      (ofInt (f a.toInt32 b.toInt32)).toInt? = some (f a.toInt32 b.toInt32)) ∧
    (∀ a : Number, Value.bitNot (.number a) = .ok (.number (ofInt (-a.toInt32 - 1))) ∧
      (ofInt (-a.toInt32 - 1)).toInt? = some (-a.toInt32 - 1)) ∧
    (∀ {a a' : Number}, a.truncate?.getD 0 ≡ a'.truncate?.getD 0 [ZMOD 2 ^ 32] →
      Value.bitNot (.number a) = Value.bitNot (.number a') ∧
      ∀ {b b' : Number}, b.truncate?.getD 0 ≡ b'.truncate?.getD 0 [ZMOD 2 ^ 32] →
      ∀ {op f}, BinaryOp.onIntegers? op = some f →
        Value.binary op (.number a) (.number b) = Value.binary op (.number a') (.number b')) ∧
    ∀ a b : Number, (a.bitAnd b).bitOr (a.bitAndNot b) = ofInt a.toInt32 := by
  refine ⟨steppedInt32_eq, ?_, rfl, fun _ => rfl, binary_of_onIntegers?, ?_, ?_,
    bitOr_bitAnd_bitAndNot⟩
  · intro negative units fits i
    rw [eq_toInt32_iff, truncate?_finite, Option.getD_some]
  · intro a
    obtain ⟨hvalue, hexact⟩ := bitNot_eq a
    exact ⟨congrArg (Except.ok ∘ Value.number) hvalue, hexact⟩
  · intro a a' ha
    have ha := toInt32_eq_of_modEq ha
    refine ⟨?_, fun hb op f hop => ?_⟩
    · simp only [Value.bitNot, (bitNot_eq _).1, ha]
    · rw [(binary_of_onIntegers? hop _ _).1, (binary_of_onIntegers? hop _ _).1, ha,
        toInt32_eq_of_modEq hb]

/-- A shift by a negative distance, and the same shift of a number that differs by `2 ^ 32`, by a
distance that does. -/
theorem bitwise_exact_of_shift :
    Value.binary .shiftLeft (.number 3) (.number (ofInt (-1))) =
        .ok (.number (ofInt (-2147483648))) ∧
      Value.binary .shiftLeft (.number 4294967299) (.number 4294967295) =
        Value.binary .shiftLeft (.number 3) (.number (ofInt (-1))) := by
  refine ⟨?_, (bitwise_exact.2.2.2.2.2.2.1 (by decide +kernel)).2 (by decide +kernel) rfl⟩
  have hleft : (3 : Number).toInt32 = 3 := by decide +kernel
  have hright : (ofInt (-1)).toInt32 = -1 := by decide +kernel
  have hop : BinaryOp.shiftLeft.onIntegers? =
      some fun x y => (x * 2 ^ (y % 32).toNat).bmod (2 ^ 32) := rfl
  have hshift := (bitwise_exact.2.2.2.2.1 hop 3 (ofInt (-1))).1
  rw [hleft, hright] at hshift
  exact hshift

/-- Two numbers that differ by `2 ^ 32` and have different words: both are truncated toward zero,
one of them up and the other one down. -/
theorem bitOr_ne_of_position_sub :
    let a := ofDecimal true ⟨5, -1⟩
    let b := ofDecimal false ⟨42949672955, -1⟩
    ∃ p q, a.position? = some p ∧ b.position? = some q ∧ q - p = 2 ^ 32 * unitsPerOne ∧
      Value.binary .bitOr (.number a) (.number 0) ≠
        Value.binary .bitOr (.number b) (.number 0) := by
  intro a b
  refine ⟨-(unitsPerOne / 2), 2 ^ 32 * unitsPerOne - unitsPerOne / 2, by decide +kernel,
    by decide +kernel, by omega, fun heq => ?_⟩
  have hne : a.bitOr 0 ≠ b.bitOr 0 := by decide +kernel
  exact hne (Value.number.inj (Except.ok.inj heq))

end Number

end SearchScript
