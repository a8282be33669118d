import Mathlib.Data.Nat.Dist
import SearchScript.Proofs.Number.Exact

/-!
# Rounding to the nearest number

An exact value is rounded on the grid of its last place: the multiples of `2 ^ lastPlace w`, where
`w` is its whole part in units. Every other count of units with 53 significant places lies on that
grid or further off, so what is taken is the nearest count of all. The grid of a value is that of
the value shifted, so rounding commutes with a shift; and digits that are put behind a value move
it only where it stands halfway between two counts.

## Key results

- `Number.round_nearest`: no finite number is nearer than the one that is taken
- `Number.roundUnits_mul_two_pow`: rounding commutes with a shift
- `Number.roundUnits_shifted_add`: what further places change
-/

namespace SearchScript.Number

-- powers are those of the core library, whatever else is imported
attribute [local instance (high)] instPowNat

variable {num den m k d : Nat}

/-! ## The nearest whole number -/

theorem roundHalfEven_cases (num den : Nat) :
    (roundHalfEven num den = num / den ∧ 2 * (num % den) ≤ den) ∨
      (roundHalfEven num den = num / den + 1 ∧ den ≤ 2 * (num % den)) := by
  unfold roundHalfEven
  dsimp only
  split
  · exact .inl ⟨rfl, by omega⟩
  · split
    · exact .inr ⟨rfl, by omega⟩
    · -- a tie goes to the even neighbour
      rcases Nat.mod_two_eq_zero_or_one (num / den) with h | h
      · exact .inl ⟨by omega, by omega⟩
      · exact .inr ⟨by omega, by omega⟩

theorem roundHalfEven_mul_right (hk : 0 < k) :
    roundHalfEven (num * k) (den * k) = roundHalfEven num den := by
  have hleft : 2 * (num % den * k) < den * k ↔ 2 * (num % den) < den := by
    rw [← Nat.mul_assoc]
    exact Nat.mul_lt_mul_right hk
  have hright : den * k < 2 * (num % den * k) ↔ den < 2 * (num % den) := by
    rw [← Nat.mul_assoc]
    exact Nat.mul_lt_mul_right hk
  simp only [roundHalfEven, Nat.mul_div_mul_right _ _ hk, Nat.mul_mod_mul_right, hleft, hright]

/-- Further digits change what is taken only if the value stands in a tie that goes down. -/
theorem roundHalfEven_shifted_add (heven : den % 2 = 0) (hden : 0 < den) (hd : d < k) :
    roundHalfEven (num * k + d) (den * k) =
      if 2 * (num % den) = den ∧ num / den % 2 = 0 ∧ d ≠ 0 then num / den + 1
      else roundHalfEven num den := by
  have hmod : num % den < den := Nat.mod_lt _ hden
  -- what is behind the quotient is the old rest, followed by the further digits
  have hdiv : (num * k + d) / (den * k) = num / den ∧
      (num * k + d) % (den * k) = num % den * k + d := by
    refine (Nat.div_mod_unique (Nat.mul_pos hden (by omega))).2 ⟨?_, ?_⟩
    · rw [Nat.mul_right_comm, Nat.add_right_comm, ← Nat.add_mul, Nat.mod_add_div]
    · have := Nat.mul_le_mul_right k (Nat.succ_le_of_lt hmod)
      rw [Nat.succ_mul] at this
      omega
  simp only [roundHalfEven, hdiv.1, hdiv.2]
  rcases Nat.lt_trichotomy (2 * (num % den)) den with hlt | heq | hgt
  · have := Nat.mul_le_mul_right k (show 2 * (num % den) + 2 ≤ den by omega)
    rw [Nat.add_mul, Nat.mul_assoc] at this
    rw [if_pos (show 2 * (num % den * k + d) < den * k by omega), if_pos hlt, if_neg (by omega)]
  · have : 2 * (num % den * k) = den * k := by rw [← Nat.mul_assoc, heq]
    rw [if_neg (show ¬2 * (num % den * k + d) < den * k by omega),
      if_neg (show ¬2 * (num % den) < den by omega),
      if_neg (show ¬den < 2 * (num % den) by omega)]
    by_cases hzero : d = 0
    · rw [if_neg (show ¬den * k < 2 * (num % den * k + d) by omega), if_neg (by omega)]
    · rw [if_pos (show den * k < 2 * (num % den * k + d) by omega)]
      split <;> omega
  · have := Nat.mul_le_mul_right k (Nat.succ_le_of_lt hgt)
    rw [Nat.succ_mul, Nat.mul_assoc] at this
    rw [if_neg (show ¬2 * (num % den * k + d) < den * k by omega),
      if_pos (show den * k < 2 * (num % den * k + d) by omega),
      if_neg (show ¬2 * (num % den) < den by omega), if_pos hgt, if_neg (by omega)]

/-- Of the multiples of the divisor none is nearer than the one that is taken. -/
theorem roundHalfEven_nearest (hden : 0 < den) (k : Nat) :
    Nat.dist num (roundHalfEven num den * den) ≤ Nat.dist num (k * den) := by
  have hnum : num / den * den + num % den = num := Nat.div_add_mod' num den
  have hmod : num % den < den := Nat.mod_lt _ hden
  -- the multiple is at or below the floor, or at or above its successor
  have hside : k * den ≤ num / den * den ∨ num / den * den + den ≤ k * den := by
    rcases Nat.lt_or_ge (num / den) k with h | h
    · right
      have := Nat.mul_le_mul_right den h
      rwa [Nat.succ_mul] at this
    · exact .inl (Nat.mul_le_mul_right den h)
  rcases roundHalfEven_cases num den with ⟨hround, hrest⟩ | ⟨hround, hrest⟩
  · rw [hround]
    unfold Nat.dist
    omega
  · rw [hround, Nat.succ_mul]
    unfold Nat.dist
    omega

/-- Halves are the most that rounding moves a value by. -/
theorem two_mul_dist_roundHalfEven (hden : 0 < den) :
    2 * Nat.dist num (roundHalfEven num den * den) ≤ den := by
  have hnum : num / den * den + num % den = num := Nat.div_add_mod' num den
  have hmod : num % den < den := Nat.mod_lt _ hden
  rcases roundHalfEven_cases num den with ⟨hround, hrest⟩ | ⟨hround, hrest⟩
  · rw [hround]
    unfold Nat.dist
    omega
  · rw [hround, Nat.succ_mul (num / den)]
    unfold Nat.dist
    omega

/-! ## The last place -/

theorem lt_two_pow_lastPlace (m : Nat) : m < 2 ^ (lastPlace m + 53) := by
  refine Nat.lt_of_lt_of_le Nat.lt_log2_self (Nat.pow_le_pow_right (by decide) ?_)
  unfold lastPlace
  omega

theorem two_pow_le_of_lastPlace (h : 0 < lastPlace m) : 2 ^ (lastPlace m + 52) ≤ m := by
  unfold lastPlace at h ⊢
  have hne : m ≠ 0 := by
    rintro rfl
    simp at h
  rw [Nat.sub_add_cancel (by omega)]
  exact Nat.log2_self_le hne

/-- A value of 53 places above some place ends there. -/
theorem lastPlace_eq (hge : 2 ^ (k + 52) ≤ m) (hlt : m < 2 ^ (k + 53)) : lastPlace m = k := by
  have hne : m ≠ 0 := by
    rintro rfl
    exact absurd (Nat.two_pow_pos (k + 52)) (by omega)
  have hlow : k + 52 ≤ m.log2 := (Nat.le_log2 hne).2 hge
  have hhigh : m.log2 < k + 53 := (Nat.log2_lt hne).2 hlt
  unfold lastPlace
  omega

theorem lastPlace_pos (h : 2 ^ (53 : Nat) ≤ m) : 0 < lastPlace m := by
  have hne : m ≠ 0 := by
    rintro rfl
    omega
  have : 53 ≤ m.log2 := (Nat.le_log2 hne).2 h
  unfold lastPlace
  omega

/-- Further places leave the leading 53 where they are. -/
theorem lastPlace_shifted_add (hm : 2 ^ (52 : Nat) ≤ m) (hd : d < 2 ^ k) :
    lastPlace (m * 2 ^ k + d) = lastPlace m + k := by
  have hge : 2 ^ (lastPlace m + 52) ≤ m := by
    rcases Nat.eq_zero_or_pos (lastPlace m) with h | h
    · rwa [h]
    · exact two_pow_le_of_lastPlace h
  apply lastPlace_eq
  · rw [show lastPlace m + k + 52 = lastPlace m + 52 + k by omega, Nat.pow_add]
    exact Nat.le_trans (Nat.mul_le_mul_right _ hge) (Nat.le_add_right _ _)
  · have hlt : m + 1 ≤ 2 ^ (lastPlace m + 53) := lt_two_pow_lastPlace m
    rw [show lastPlace m + k + 53 = lastPlace m + 53 + k by omega, Nat.pow_add]
    refine Nat.lt_of_lt_of_le ?_ (Nat.mul_le_mul_right _ hlt)
    rw [Nat.succ_mul]
    omega

/-! ## Rounded counts -/

theorem roundUnits_one (m : Nat) :
    roundUnits m 1 = roundHalfEven m (2 ^ lastPlace m) * 2 ^ lastPlace m := by
  simp only [roundUnits, Nat.div_one, Nat.one_mul]

theorem roundUnits_mul_right (hden : 0 < den) : roundUnits (m * den) den = roundUnits m 1 := by
  rw [roundUnits_one]
  simp only [roundUnits, Nat.mul_div_cancel _ hden]
  rw [Nat.mul_comm den, roundHalfEven_mul_right hden]

/-- No count of units with 53 significant places is nearer to the exact value. -/
theorem roundUnits_nearest {u : Nat} (hden : 0 < den) (hu : 2 ^ lastPlace u ∣ u) :
    Nat.dist num (roundUnits num den * den) ≤ Nat.dist num (u * den) := by
  generalize hp : lastPlace (num / den) = p
  have hgrid : 0 < den * 2 ^ p := Nat.mul_pos hden (Nat.two_pow_pos _)
  have hround : roundUnits num den * den
      = roundHalfEven num (den * 2 ^ p) * (den * 2 ^ p) := by
    simp only [roundUnits, hp, Nat.mul_assoc, Nat.mul_comm den]
  rw [hround]
  rcases Nat.lt_or_ge (lastPlace u) p with hlt | hge
  · -- a count that ends below the grid lies below its leading power of two, itself on the grid
    have hlow : u * den ≤ 2 ^ (52 : Nat) * (den * 2 ^ p) := by
      have hle : u ≤ 2 ^ (52 + p) :=
        Nat.le_trans (Nat.le_of_lt (lt_two_pow_lastPlace u))
          (Nat.pow_le_pow_right (by decide) (by omega))
      rw [Nat.mul_left_comm, ← Nat.pow_add, Nat.mul_comm]
      exact Nat.mul_le_mul_left _ hle
    have hhigh : 2 ^ (52 : Nat) * (den * 2 ^ p) ≤ num := by
      have hle : 2 ^ (p + 52) ≤ num / den := by
        rw [← hp]
        exact two_pow_le_of_lastPlace (by omega)
      calc 2 ^ (52 : Nat) * (den * 2 ^ p) = 2 ^ (p + 52) * den := by
            rw [Nat.mul_left_comm, ← Nat.pow_add, Nat.mul_comm, Nat.add_comm 52]
        _ ≤ num / den * den := Nat.mul_le_mul_right _ hle
        _ ≤ num := Nat.div_mul_le_self _ _
    refine Nat.le_trans (roundHalfEven_nearest hgrid (2 ^ (52 : Nat))) ?_
    unfold Nat.dist
    omega
  · obtain ⟨q, hq⟩ := Nat.dvd_trans (Nat.pow_dvd_pow 2 hge) hu
    have hmultiple : u * den = q * (den * 2 ^ p) := by
      rw [hq, Nat.mul_comm (2 ^ p) q, Nat.mul_assoc, Nat.mul_comm (2 ^ p)]
    rw [hmultiple]
    exact roundHalfEven_nearest hgrid q

/-- Of all finite numbers none is nearer to an exact value than the one that it is rounded to. -/
theorem round_nearest {negative : Bool} {u v : Nat} (hden : 0 < den) (hu : Fits u) (hv : Fits v)
    (h : round negative num den = .finite negative u hu) :
    Nat.dist num (u * den) ≤ Nat.dist num (v * den) := by
  unfold round at h
  split at h
  · obtain rfl : roundUnits num den = u := (Number.finite.inj h).2
    exact roundUnits_nearest hden hv.2
  · cases h

theorem two_mul_dist_roundUnits (m : Nat) :
    2 * Nat.dist m (roundUnits m 1) ≤ 2 ^ lastPlace m := by
  rw [roundUnits_one]
  exact two_mul_dist_roundHalfEven (Nat.two_pow_pos _)

/-- What is no count of units by 53 places is moved by at most `2 ^ (-53)` of itself. -/
theorem dist_roundUnits_mul_le (m : Nat) : Nat.dist m (roundUnits m 1) * 2 ^ (53 : Nat) ≤ m := by
  have hdist := two_mul_dist_roundUnits m
  rcases Nat.eq_zero_or_pos (lastPlace m) with h | h
  · have hzero : Nat.dist m (roundUnits m 1) = 0 := by
      rw [h] at hdist
      omega
    rw [hzero, Nat.zero_mul]
    exact Nat.zero_le _
  · have hlow := two_pow_le_of_lastPlace h
    calc Nat.dist m (roundUnits m 1) * 2 ^ (53 : Nat)
        = 2 * Nat.dist m (roundUnits m 1) * 2 ^ (52 : Nat) := by
          rw [show (53 : Nat) = 52 + 1 from rfl, Nat.pow_succ', Nat.mul_left_comm, Nat.mul_assoc]
      _ ≤ 2 ^ lastPlace m * 2 ^ (52 : Nat) := Nat.mul_le_mul_right _ hdist
      _ ≤ m := by rwa [← Nat.pow_add]

theorem two_pow_lastPlace_dvd_roundUnits (num den : Nat) :
    2 ^ lastPlace (roundUnits num den) ∣ roundUnits num den :=
  log2_mul_two_pow_sub_dvd _ (roundHalfEven_scaled_le num den)

theorem roundUnits_idem (m : Nat) : roundUnits (roundUnits m 1) 1 = roundUnits m 1 := by
  have := roundUnits_mul_of_dvd (two_pow_lastPlace_dvd_roundUnits m 1) Nat.one_pos
  rwa [Nat.mul_one] at this

/-- Rounding does not go below a count of its own. -/
theorem le_roundUnits {u : Nat} (hu : 2 ^ lastPlace u ∣ u) (h : u ≤ m) : u ≤ roundUnits m 1 := by
  have : Nat.dist m (roundUnits m 1 * 1) ≤ Nat.dist m (u * 1) := roundUnits_nearest Nat.one_pos hu
  simp only [Nat.mul_one, Nat.dist] at this
  omega

theorem two_pow_le_roundUnits (h : 2 ^ (53 : Nat) ≤ m) : 2 ^ (53 : Nat) ≤ roundUnits m 1 :=
  le_roundUnits (by decide +kernel) h

theorem roundUnits_pos (h : 0 < m) : 0 < roundUnits m 1 := le_roundUnits (by decide +kernel) h

/-- What is rounded from below zero stays there. -/
theorem toInt?_round_true {i : Int} (hm : 0 < m) (h : (round true m 1).toInt? = some i) :
    i < 0 := by
  have hpos := roundUnits_pos hm
  unfold round at h
  split at h
  · obtain ⟨n, hunits, rfl⟩ := toInt?_eq_some_iff.1 h
    have hn : n ≠ 0 := by
      rintro rfl
      omega
    simp only [signed, if_true]
    omega
  · cases h

/-- Rounding commutes with a shift. -/
theorem roundUnits_mul_two_pow (m k : Nat) :
    roundUnits (m * 2 ^ k) 1 = roundUnits m 1 * 2 ^ k := by
  rcases Nat.lt_or_ge m (2 ^ (53 : Nat)) with hm | hm
  · -- a short value needs no rounding before the shift or after it
    have hshort : ∀ j, roundUnits (m * 2 ^ j) 1 = m * 2 ^ j := by
      intro j
      have := roundUnits_mul_of_dvd (log2_mul_two_pow_sub_dvd j (Nat.le_of_lt hm)) Nat.one_pos
      rwa [Nat.mul_one] at this
    have hzero := hshort 0
    rw [Nat.pow_zero, Nat.mul_one] at hzero
    rw [hshort, hzero]
  · have hplace : lastPlace (m * 2 ^ k) = lastPlace m + k := by
      have := lastPlace_shifted_add (m := m) (d := 0) (Nat.le_trans (by decide) hm)
        (Nat.two_pow_pos k)
      rwa [Nat.add_zero] at this
    rw [roundUnits_one, roundUnits_one, hplace, Nat.pow_add,
      roundHalfEven_mul_right (Nat.two_pow_pos k), Nat.mul_assoc]

/-! ## Ties -/

/-- A value stands halfway between two counts of 53 places, of which the lower one is even. -/
def IsLowTie (m : Nat) : Prop :=
  2 * (m % 2 ^ lastPlace m) = 2 ^ lastPlace m ∧ m / 2 ^ lastPlace m % 2 = 0

instance (m : Nat) : Decidable (IsLowTie m) := inferInstanceAs (Decidable (_ ∧ _))

/-- Further places change how a value is rounded only if it stands in a tie that goes down. -/
theorem roundUnits_shifted_add (hm : 2 ^ (53 : Nat) ≤ m) (hd : d < 2 ^ k) :
    roundUnits (m * 2 ^ k + d) 1 =
      if IsLowTie m ∧ d ≠ 0 then roundUnits m 1 * 2 ^ k + 2 ^ (lastPlace m + k)
      else roundUnits m 1 * 2 ^ k := by
  have heven : 2 ^ lastPlace m % 2 = 0 := by
    rw [← Nat.sub_add_cancel (lastPlace_pos hm), Nat.pow_succ]
    exact Nat.mul_mod_left _ _
  rw [roundUnits_one, lastPlace_shifted_add (Nat.le_trans (by decide) hm) hd, roundUnits_one,
    Nat.pow_add, roundHalfEven_shifted_add heven (Nat.two_pow_pos _) hd, Nat.mul_assoc]
  by_cases htie : IsLowTie m ∧ d ≠ 0
  · obtain ⟨⟨hhalf, hquotient⟩, hne⟩ := htie
    have hfloor : roundHalfEven m (2 ^ lastPlace m) = m / 2 ^ lastPlace m := by
      simp [roundHalfEven, hhalf, hquotient]
    rw [if_pos ⟨hhalf, hquotient, hne⟩, if_pos ⟨⟨hhalf, hquotient⟩, hne⟩, hfloor, Nat.succ_mul]
  · rw [if_neg htie, if_neg fun h => htie ⟨⟨h.1, h.2.1⟩, h.2.2⟩]

end SearchScript.Number
