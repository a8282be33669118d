import Mathlib.Data.Int.ModEq
import SearchScript.Proofs.Number.ReadBack

/-!
# Arithmetic that needs no rounding

Whether a count of units is a number depends on how many of its binary places are significant. A
smaller count that ends where another one does, or higher, is a number if the other one is: so what
is left of a number without its fraction is one. The whole numbers up to `2 ^ 53` are numbers too.
Whatever an operation comes to is left alone if it is a number.

## Key results

- `Number.Fits.of_le`: a smaller count with no further places is a number
- `Number.toInt?_ofInt`: the integers up to `2 ^ 53` are numbers
-/

namespace SearchScript.Number

-- powers are those of the core library, whatever else is imported
attribute [local instance (high)] instPowNat

variable {units m k : Nat} {negative : Bool}

/-! ## Counts that are numbers -/

/-- A count of units with few enough binary places above some place is a number. -/
theorem fits_of_dvd (hlimit : m < unitsLimit) (hdvd : 2 ^ k ∣ m) (hlt : m < 2 ^ (53 + k)) :
    Fits m := by
  refine ⟨hlimit, Nat.dvd_trans (Nat.pow_dvd_pow 2 ?_) hdvd⟩
  rcases Nat.eq_zero_or_pos m with rfl | hpos
  · simp
  · have := (Nat.log2_lt (Nat.ne_of_gt hpos)).2 hlt
    omega

/-- A smaller count that has no further places is a number as well. -/
theorem Fits.of_le (h : Fits units) (hle : m ≤ units) (hdvd : 2 ^ lastPlace units ∣ m) :
    Fits m := by
  refine fits_of_dvd (Nat.lt_of_le_of_lt hle h.1) hdvd (Nat.lt_of_le_of_lt hle ?_)
  refine Nat.lt_of_lt_of_le Nat.lt_log2_self (Nat.pow_le_pow_right (by decide) ?_)
  unfold lastPlace
  omega

/-- What lies at or above a place of a number is a number. -/
theorem Fits.div_mul_two_pow (h : Fits units) (k : Nat) : Fits (units / 2 ^ k * 2 ^ k) := by
  refine h.of_le (Nat.div_mul_le_self _ _) ?_
  -- the last place moves up to the one that is cut at, unless nothing was below that
  rcases Nat.le_total (lastPlace units) k with hle | hle
  · exact Nat.dvd_trans (Nat.pow_dvd_pow 2 hle) (Nat.dvd_mul_left _ _)
  · rw [Nat.div_mul_cancel (Nat.dvd_trans (Nat.pow_dvd_pow 2 hle) h.2)]
    exact h.2

theorem two_pow_lt_unitsLimit (h : k < 2098) : 2 ^ k < unitsLimit :=
  Nat.pow_lt_pow_right (by decide) h

/-- The whole numbers up to `2 ^ 53`, shifted by a few places, are numbers. -/
theorem fits_shifted (h : m ≤ 2 ^ (53 : Nat)) (hk : k ≤ 53) : Fits (m * 2 ^ k * unitsPerOne) := by
  have hle : m * 2 ^ (k + 1074) ≤ 2 ^ (53 + (k + 1074)) := by
    rw [Nat.pow_add 2 53]
    exact Nat.mul_le_mul_right _ h
  rw [Nat.mul_assoc, unitsPerOne, ← Nat.pow_add]
  exact ⟨Nat.lt_of_le_of_lt hle (two_pow_lt_unitsLimit (by omega)),
    log2_mul_two_pow_sub_dvd _ h⟩

/-- The whole numbers up to `2 ^ 53` are numbers. -/
theorem fits_whole (h : m ≤ 2 ^ (53 : Nat)) : Fits (m * unitsPerOne) := by
  have := fits_shifted h (Nat.zero_le 53)
  rwa [Nat.pow_zero, Nat.mul_one] at this

/-! ## Operations -/

theorem finite_add_finite {a b : Bool} {u v : Nat} (hu : Fits u) (hv : Fits v) :
    finite a u hu + finite b v hv =
      if signed a u + signed b v = 0 then signedZero (a && b)
      else round (signed a u + signed b v < 0) (signed a u + signed b v).natAbs 1 := by
  show add _ _ = _
  rw [add]

theorem finite_mul_finite {a b : Bool} {u v : Nat} (hu : Fits u) (hv : Fits v) :
    finite a u hu * finite b v hv = round (a ^^ b) (u * v) unitsPerOne := by
  show mul _ _ = _
  rw [mul]

theorem infinite_mul_finite {a b : Bool} {v : Nat} (hv : Fits v) (hne : v ≠ 0) :
    infinite a * finite b v hv = infinite (a ^^ b) := by
  show mul _ _ = _
  rw [mul, if_neg hne]

/-- A count that is a number is left alone. -/
theorem round_of_fits (h : Fits units) : round negative units 1 = .finite negative units h := by
  have hround : round negative (units * 1) 1 = .finite negative units h :=
    round_mul_self h Nat.one_pos
  rwa [Nat.mul_one] at hround

/-- The sum of two numbers without a sign is the rounded sum of their units. -/
theorem unsigned_add_unsigned {u v : Nat} (hu : Fits u) (hv : Fits v) :
    finite false u hu + finite false v hv = round false (u + v) 1 := by
  have hsum : signed false u + signed false v = (u + v : Nat) := by
    simp [signed]
  rw [finite_add_finite, hsum]
  by_cases hzero : u + v = 0
  · rw [if_pos (by omega), hzero]
    exact (round_of_fits fits_zero).symm
  · rw [if_neg (by omega), decide_eq_false (by omega), Int.natAbs_natCast]

/-- A negative number is taken away from a larger one. -/
theorem negative_add_of_le {u v : Nat} (hu : Fits u) (hv : Fits v) (h : u ≤ v) :
    finite true u hu + finite false v hv = round false (v - u) 1 := by
  have hsum : signed true u + signed false v = (v - u : Nat) := by
    simp only [signed, if_true, Bool.false_eq_true, if_false]
    omega
  rw [finite_add_finite, hsum]
  by_cases hzero : v - u = 0
  · rw [if_pos (by omega), hzero]
    exact (round_of_fits fits_zero).symm
  · rw [if_neg (by omega), decide_eq_false (by omega), Int.natAbs_natCast]

/-- A negative number of more units than the other leaves a negative sum. -/
theorem negative_add_of_lt {u v : Nat} (hu : Fits u) (hv : Fits v) (h : v < u) :
    finite true u hu + finite false v hv = round true (u - v) 1 := by
  have hsum : signed true u + signed false v = -(u - v : Nat) := by
    simp only [signed, if_true, Bool.false_eq_true, if_false]
    omega
  rw [finite_add_finite, hsum, if_neg (by omega), decide_eq_true (by omega), Int.natAbs_neg,
    Int.natAbs_natCast]

theorem ofNat_of_le (h : m ≤ 2 ^ (53 : Nat)) :
    ofNat m = .finite false (m * unitsPerOne) (fits_whole h) := round_of_fits _

theorem ofInt_of_le {i : Int} (h : i.natAbs ≤ 2 ^ (53 : Nat)) :
    ofInt i = .finite (i < 0) (i.natAbs * unitsPerOne) (fits_whole h) := round_of_fits _

theorem signed_natAbs (i : Int) : signed (i < 0) i.natAbs = i := by
  unfold signed
  split
  · next h =>
    rw [decide_eq_true_iff] at h
    omega
  · next h =>
    rw [decide_eq_true_iff] at h
    omega

theorem unitsPerOne_pos : 0 < unitsPerOne := Nat.two_pow_pos _

theorem less_zero_finite {fits : Fits units} :
    (finite negative units fits).less 0 = (negative && units != 0) := by
  have hzero : (0 : Number).position? = some 0 := by decide +kernel
  unfold less
  rw [hzero]
  cases negative with
  | false => exact decide_eq_false (by simp [signed])
  | true =>
    rcases Nat.eq_zero_or_pos units with rfl | hpos
    · rfl
    · rw [bne_iff_ne.2 (Nat.ne_of_gt hpos)]
      refine decide_eq_true ?_
      simp only [signed, if_true]
      omega

/-- A finite number is an integer if its units make up whole ones. -/
theorem toInt?_eq_some_iff {i : Int} {fits : Fits units} :
    (finite negative units fits).toInt? = some i ↔
      ∃ n, units = n * unitsPerOne ∧ i = signed negative n := by
  simp only [toInt?]
  constructor
  · intro h
    split at h
    · next hmod =>
      exact ⟨units / unitsPerOne, (Nat.div_mul_cancel (Nat.dvd_of_mod_eq_zero hmod)).symm,
        (Option.some.inj h).symm⟩
    · cases h
  · rintro ⟨n, hunits, rfl⟩
    simp only [hunits, Nat.mul_mod_left, if_true, Nat.mul_div_cancel _ unitsPerOne_pos]

/-- What is added to an infinity does not bring it back. -/
theorem toInt?_infinite_add (n : Number) : (infinite negative + n).toInt? = none := by
  show (add (infinite negative) n).toInt? = none
  cases n with
  | nan => rfl
  | infinite other =>
    rw [add]
    split <;> rfl
  | finite => rfl

/-- An integer up to `2 ^ 53` is the number that stands for it. -/
theorem toInt?_ofInt {i : Int} (h : i.natAbs ≤ 2 ^ (53 : Nat)) : (ofInt i).toInt? = some i := by
  rw [ofInt_of_le h]
  simp only [toInt?, Nat.mul_mod_left, if_true, Nat.mul_div_cancel _ unitsPerOne_pos, signed_natAbs]

theorem truncate?_ofInt {i : Int} (h : i.natAbs ≤ 2 ^ (53 : Nat)) :
    (ofInt i).truncate? = some i := by
  rw [ofInt_of_le h]
  simp only [truncate?, Nat.mul_div_cancel _ unitsPerOne_pos, signed_natAbs]

end SearchScript.Number
