import SearchScript.Proofs.Number.Order
import SearchScript.Proofs.Number.Rounding

/-!
# Numbers as lengths and positions

Texts and lists are asked for positions by numbers of any kind. The fraction of a number is dropped
and the rest brought into the range; a number that has no whole part lies past an end of the line,
or nowhere.

A length is compared with a number as the number that it is rounded to. No length is rounded past a
smaller number, and up to `2 ^ 53` it is not rounded at all. So a number that counts as more than a
length is more, and at least as much once its fraction is dropped.

## Key results

- `Number.clampToNat_eq_clamped`: the fraction is dropped and the rest brought into the range
- `Number.lessEqual_ofNat_of_le`, `Number.le_of_lessEqual_ofNat`: how lengths are compared
- `Number.exists_truncate?_of_between`: the whole part of a number between a length and a limit
-/

namespace SearchScript.Number

-- powers are those of the core library, whatever else is imported
attribute [local instance (high)] instPowNat

variable {n : Number} {m limit : Nat} {p : Int}

/-! ## Positions in a range -/

/-- The whole part of a number, brought into `0 ... limit`. Of the numbers without one, positive
infinity is past the end of the range, and the others count as 0. -/
def clamped (limit : Nat) (n : Number) : Int :=
  match n.truncate? with
  | some i => max 0 (min i limit)
  | none => if n = .infinite false then limit else 0

theorem position?_ofNat (h : m ≤ 2 ^ (53 : Nat)) :
    (ofNat m).position? = some ((m * unitsPerOne : Nat) : Int) := by
  rw [ofNat_of_le h]
  rfl

theorem clampToNat_eq_clamped (limit : Nat) (n : Number) :
    (n.clampToNat limit : Int) = n.clamped limit := by
  unfold clamped
  cases n with
  | nan => rfl
  | infinite negative => cases negative <;> rfl
  | finite negative units fits =>
    have hpos : (0 : Int) ≤ units / unitsPerOne := Int.natCast_nonneg (units / unitsPerOne)
    cases negative <;>
      simp only [clampToNat, truncate?, signed, Bool.false_eq_true, if_true, if_false] <;> omega

theorem clampToNat_le (limit : Nat) (n : Number) : n.clampToNat limit ≤ limit := by
  cases n with
  | nan => exact Nat.zero_le _
  | infinite negative => cases negative <;> simp [clampToNat]
  | finite negative units fits => cases negative <;> simp [clampToNat]

/-! ## Comparison with lengths -/

/-- A length is rounded to a number that is no less than any below the length. -/
theorem exists_position?_ofNat (m : Nat) : ∃ p, (ofNat m).position? = some p ∧
    ∀ u ≤ m * unitsPerOne, 2 ^ lastPlace u ∣ u → u ≤ unitsLimit → (u : Int) ≤ p := by
  unfold ofNat round
  split
  · exact ⟨_, rfl, fun u hle hu _ => Int.ofNat_le.2 (le_roundUnits hu hle)⟩
  · exact ⟨_, rfl, fun u _ _ hlimit => Int.ofNat_le.2 hlimit⟩

/-- A number that lies no further than a length is at most the number of the length. -/
theorem lessEqual_ofNat_of_le (hp : n.position? = some p)
    (hle : p ≤ ((m * unitsPerOne : Nat) : Int)) : n.lessEqual (ofNat m) = true := by
  obtain ⟨q, hq, hround⟩ := exists_position?_ofNat m
  refine lessEqual_eq_true_iff.2 ⟨p, q, hp, hq, ?_⟩
  have hnonneg : 0 ≤ q := hround 0 (Nat.zero_le _) (Nat.dvd_zero _) (Nat.zero_le _)
  cases n with
  | nan => cases hp
  | infinite negative =>
    obtain rfl : signed negative unitsLimit = p := Option.some.inj hp
    cases negative with
    | false => exact hround _ (Int.ofNat_le.1 hle) (by decide +kernel) (Nat.le_refl _)
    | true => exact Int.le_trans (Int.neg_nonpos_of_nonneg (Int.natCast_nonneg _)) hnonneg
  | finite negative units fits =>
    obtain rfl : signed negative units = p := Option.some.inj hp
    cases negative with
    | false => exact hround _ (Int.ofNat_le.1 hle) fits.2 (Nat.le_of_lt fits.1)
    | true => exact Int.le_trans (Int.neg_nonpos_of_nonneg (Int.natCast_nonneg _)) hnonneg

/-- Up to `2 ^ 53` the number of a length is the length. -/
theorem le_of_lessEqual_ofNat (hm : m ≤ 2 ^ (53 : Nat)) (hp : n.position? = some p)
    (h : n.lessEqual (ofNat m) = true) : p ≤ ((m * unitsPerOne : Nat) : Int) := by
  obtain ⟨p', q, hp', hq, hle⟩ := lessEqual_eq_true_iff.1 h
  rw [position?_ofNat hm, Option.some.injEq] at hq
  rw [hp, Option.some.injEq] at hp'
  rwa [hp', hq]

/-- A number that is more than a length, but not more than a limit, has a whole part between
them. -/
theorem exists_truncate?_of_between (hlimit : limit ≤ 2 ^ (53 : Nat)) (hnan : n.isNaN = false)
    (hlow : n.lessEqual (ofNat m) = false) (hhigh : (ofNat limit).less n = false) :
    m ≤ n.clampToNat limit ∧ n.truncate? = some (n.clampToNat limit : Int) := by
  have hne : n ≠ .nan := by
    rintro rfl
    cases hnan
  obtain ⟨p, hp⟩ := Option.ne_none_iff_exists'.1 (mt position?_eq_none_iff.1 hne)
  -- a length that the number did not exceed would be rounded to a number no less than it
  have hlow : ((m * unitsPerOne : Nat) : Int) < p := by
    by_contra hle
    rw [lessEqual_ofNat_of_le hp (Int.not_lt.1 hle)] at hlow
    cases hlow
  have hpl : p ≤ ((limit * unitsPerOne : Nat) : Int) := by
    rw [← Bool.not_eq_true, less_eq_true_iff] at hhigh
    push Not at hhigh
    exact hhigh _ p (position?_ofNat hlimit) hp
  cases n with
  | nan => cases hnan
  | infinite negative =>
    obtain rfl : signed negative unitsLimit = p := Option.some.inj hp
    have hfinite := (fits_whole hlimit).1
    cases negative <;>
      simp only [signed, Bool.false_eq_true, if_true, if_false] at hlow hpl <;> omega
  | finite negative units fits =>
    obtain rfl : signed negative units = p := Option.some.inj hp
    cases negative with
    | true =>
      simp only [signed, if_true] at hlow
      omega
    | false =>
      have hlow : m ≤ units / unitsPerOne :=
        (Nat.le_div_iff_mul_le unitsPerOne_pos).2 (Int.ofNat_le.1 (Int.le_of_lt hlow))
      have hhigh : units / unitsPerOne ≤ limit :=
        Nat.div_le_of_le_mul (Nat.mul_comm limit unitsPerOne ▸ Int.ofNat_le.1 hpl)
      simp only [clampToNat, Bool.false_eq_true, if_false, Nat.min_eq_right hhigh]
      exact ⟨hlow, rfl⟩

end SearchScript.Number
