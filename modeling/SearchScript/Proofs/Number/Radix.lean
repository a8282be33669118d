import Mathlib.Data.Nat.Digits.Defs
import SearchScript.Proofs.Number.Rounding

/-!
# Digits of another base

Behind a mark such as `0x` every digit is taken in with one product and one sum, each of them
rounded. Up to the digit with which the value reaches `2 ^ 53` nothing is lost. That value is then
rounded, and from there on a digit shifts the number and is itself too small to move it. So what is
read is the integer written with zeros in place of the digits behind, rounded once. It is the
number nearest to the integer that is written, unless the digits up to there leave a tie that goes
down, which the digits behind would have broken.

## Key results

- `Number.ofNat_mul_two_pow`, `Number.ofNat_add_absorbed`: what one digit does to a number
- `Number.readRadixFrom_ofNat`: what a whole text of digits comes to
- `Number.read_radix`: when that is the number nearest to the integer that is written
-/

namespace SearchScript.Number

-- powers are those of the core library, whatever else is imported
attribute [local instance (high)] instPowNat

variable {m n j k d base value : Nat} {cs : List Char} {ds : List Nat}

/-! ## One digit -/

theorem round_congr {negative : Bool} {num den num' den' : Nat}
    (h : roundUnits num den = roundUnits num' den') :
    round negative num den = round negative num' den' := by
  simp only [round, h]

/-- The number nearest to a natural number depends on its leading 53 places. -/
theorem ofNat_congr (h : roundUnits m 1 = roundUnits n 1) : ofNat m = ofNat n := by
  apply round_congr
  rw [unitsPerOne, roundUnits_mul_two_pow, roundUnits_mul_two_pow, h]

theorem ofNat_of_lt (h : roundUnits (m * unitsPerOne) 1 < unitsLimit) :
    ofNat m = .finite false (roundUnits (m * unitsPerOne) 1) (fits_roundUnits h) := by
  rw [ofNat, round, dif_pos h]

theorem ofNat_of_not_lt (h : ¬roundUnits (m * unitsPerOne) 1 < unitsLimit) :
    ofNat m = .infinite false := by
  rw [ofNat, round, dif_neg h]

/-- A product with a power of two rounds nothing that is not rounded already. -/
theorem ofNat_mul_two_pow (hj : j ≤ 53) : ofNat m * ofNat (2 ^ j) = ofNat (m * 2 ^ j) := by
  have hfactor := ofNat_of_le (Nat.pow_le_pow_right (by decide : 0 < 2) hj)
  have hshift : roundUnits (m * 2 ^ j * unitsPerOne) 1
      = roundUnits (m * unitsPerOne) 1 * 2 ^ j := by
    rw [Nat.mul_right_comm, roundUnits_mul_two_pow]
  by_cases h : roundUnits (m * unitsPerOne) 1 < unitsLimit
  · rw [ofNat_of_lt h, hfactor, finite_mul_finite]
    apply round_congr
    rw [← Nat.mul_assoc, roundUnits_mul_right unitsPerOne_pos, roundUnits_mul_two_pow,
      roundUnits_idem, hshift]
  · have hne : 2 ^ j * unitsPerOne ≠ 0 :=
      Nat.ne_of_gt (Nat.mul_pos (Nat.two_pow_pos j) unitsPerOne_pos)
    have hlimit : ¬roundUnits (m * 2 ^ j * unitsPerOne) 1 < unitsLimit := by
      rw [hshift]
      have := Nat.le_mul_of_pos_right (roundUnits (m * unitsPerOne) 1) (Nat.two_pow_pos j)
      omega
    rw [ofNat_of_not_lt h, ofNat_of_not_lt hlimit, hfactor, infinite_mul_finite _ hne]
    rfl

/-- A sum of exact whole numbers is rounded once. -/
theorem ofNat_add_ofNat (hm : Fits (m * unitsPerOne)) (hn : Fits (n * unitsPerOne)) :
    ofNat m + ofNat n = ofNat (m + n) := by
  have hleft : ofNat m = finite false _ hm := round_of_fits hm
  have hright : ofNat n = finite false _ hn := round_of_fits hn
  rw [hleft, hright, unsigned_add_unsigned, ← Nat.add_mul]
  rfl

/-- What is below the last place of a number does not move it. -/
theorem ofNat_add_absorbed (hm : 2 ^ (53 : Nat) ≤ m) (hd : d < 2 ^ k)
    (hsmall : d ≤ 2 ^ (53 : Nat)) : ofNat (m * 2 ^ k) + ofNat d = ofNat (m * 2 ^ k) := by
  have hsummand := ofNat_of_le hsmall
  by_cases h : roundUnits (m * 2 ^ k * unitsPerOne) 1 < unitsLimit
  · rw [ofNat_of_lt h, hsummand, unsigned_add_unsigned, ← ofNat_of_lt h]
    apply round_congr
    have hrounded : roundUnits (m * 2 ^ k * unitsPerOne) 1
        = roundUnits m 1 * 2 ^ k * unitsPerOne := by
      rw [unitsPerOne, roundUnits_mul_two_pow, roundUnits_mul_two_pow]
    rw [hrounded, ← Nat.add_mul, unitsPerOne, roundUnits_mul_two_pow,
      roundUnits_shifted_add (two_pow_le_roundUnits hm) hd, if_neg, roundUnits_idem]
    -- a rounded value stands on its grid and so in no tie
    rintro ⟨⟨hhalf, -⟩, -⟩
    rw [Nat.mod_eq_zero_of_dvd (two_pow_lastPlace_dvd_roundUnits m 1)] at hhalf
    exact absurd (Nat.two_pow_pos (lastPlace (roundUnits m 1))) (by omega)
  · rw [ofNat_of_not_lt h, hsummand]
    rfl

/-! ## A text of digits -/

theorem radixDigit?_lt {c : Char} (h : radixDigit? base c = some d) : d < base := by
  unfold radixDigit? at h
  exact of_decide_eq_true (Option.filter_eq_some_iff.1 h).2

/-- Reads digits onto a value until it reaches `2 ^ 53`: the value then, and the digits behind. -/
def readExactly (base value : Nat) : List Nat → Nat × List Nat
  | [] => (value, [])
  | d :: ds =>
    if 2 ^ (53 : Nat) ≤ value then (value, d :: ds) else readExactly base (value * base + d) ds

/-- The value read exactly and the digits behind it make up the integer that is written. -/
theorem readExactly_value (base value : Nat) (ds : List Nat) :
    (readExactly base value ds).1 * base ^ (readExactly base value ds).2.length
        + Nat.ofDigits base (readExactly base value ds).2.reverse
      = value * base ^ ds.length + Nat.ofDigits base ds.reverse := by
  fun_induction readExactly base value ds with
  | case1 => rfl
  | case2 => rfl
  | case3 value d ds hvalue ih =>
    rw [ih, Nat.ofDigits_reverse_cons, List.length_cons, Nat.pow_succ, Nat.add_mul, Nat.mul_assoc,
      Nat.mul_comm base, Nat.add_assoc, Nat.mul_comm d, Nat.add_comm (Nat.ofDigits _ _)]

section

variable (hbase : base = 2 ^ j) (hj : j ≤ 53)

include hbase hj

theorem readRadixFrom_cons {c : Char} (hdigit : radixDigit? base c = some d) :
    readRadixFrom base (ofNat value) (c :: cs)
      = readRadixFrom base (ofNat (value * base) + ofNat d) cs := by
  simp only [readRadixFrom, hdigit]
  rw [hbase, ofNat_mul_two_pow hj]

/-- Once a value has reached `2 ^ 53`, the digits behind it count as zeros. -/
theorem readRadixFrom_absorbed (hvalue : 2 ^ (53 : Nat) ≤ value)
    (hds : cs.map (radixDigit? base) = ds.map some) (k : Nat) :
    readRadixFrom base (ofNat (value * base ^ k)) cs
      = ofNat (value * base ^ (k + ds.length)) := by
  induction cs generalizing ds k with
  | nil =>
    obtain rfl : ds = [] := by simpa using hds.symm
    rfl
  | cons c cs ih =>
    obtain ⟨d, ds, rfl, hdigit, hds⟩ := List.map_eq_cons_iff.1 hds.symm
    have hd : d < base := radixDigit?_lt hdigit.symm
    have hpow : base ^ (k + 1) = 2 ^ (j * (k + 1)) := by rw [hbase, ← Nat.pow_mul]
    have hstep : ofNat (value * base ^ (k + 1)) + ofNat d = ofNat (value * base ^ (k + 1)) := by
      have hbelow : d < 2 ^ (j * (k + 1)) := by
        rw [← hpow]
        exact Nat.lt_of_lt_of_le hd (Nat.le_self_pow (Nat.succ_ne_zero k) base)
      have hsmall : d ≤ 2 ^ (53 : Nat) := by
        rw [hbase] at hd
        exact Nat.le_trans (Nat.le_of_lt hd) (Nat.pow_le_pow_right (by decide) hj)
      rw [hpow]
      exact ofNat_add_absorbed hvalue hbelow hsmall
    rw [readRadixFrom_cons hbase hj hdigit.symm, Nat.mul_assoc, ← Nat.pow_succ, hstep, ih hds.symm,
      List.length_cons, Nat.add_right_comm, Nat.add_assoc]

/-- Digits that are read onto a value come to what is read exactly, with zeros behind it. -/
theorem readRadixFrom_ofNat (hds : cs.map (radixDigit? base) = ds.map some) :
    readRadixFrom base (ofNat value) cs
      = ofNat ((readExactly base value ds).1 * base ^ (readExactly base value ds).2.length) := by
  fun_induction readExactly base value ds generalizing cs with
  | case1 value =>
    obtain rfl : cs = [] := by simpa using hds
    simp [readRadixFrom]
  | case2 value d ds hvalue =>
    have := readRadixFrom_absorbed hbase hj hvalue hds 0
    rwa [Nat.pow_zero, Nat.mul_one, Nat.zero_add] at this
  | case3 value d ds hvalue ih =>
    obtain ⟨c, cs, rfl, hdigit, hds⟩ := List.map_eq_cons_iff.1 hds
    have hshifted : Fits (value * base * unitsPerOne) := by
      rw [hbase]
      exact fits_shifted (by omega) hj
    have hd : Fits (d * unitsPerOne) := by
      refine fits_whole (Nat.le_trans (Nat.le_of_lt (radixDigit?_lt hdigit)) ?_)
      rw [hbase]
      exact Nat.pow_le_pow_right (by decide) hj
    rw [readRadixFrom_cons hbase hj hdigit, ofNat_add_ofNat hshifted hd]
    exact ih hds

end

/-! ## The nearest number -/

theorem readExactly_sufficient (h : (readExactly base value ds).2 ≠ []) :
    2 ^ (53 : Nat) ≤ (readExactly base value ds).1 := by
  fun_induction readExactly base value ds with
  | case1 => exact absurd rfl h
  | case2 value d ds hvalue => exact hvalue
  | case3 value d ds hvalue ih => exact ih h

theorem mem_of_mem_readExactly (h : d ∈ (readExactly base value ds).2) : d ∈ ds := by
  fun_induction readExactly base value ds with
  | case1 => exact h
  | case2 value e ds hvalue => exact h
  | case3 value e ds hvalue ih => exact List.mem_cons_of_mem e (ih h)

/-- The numbers end at `2 ^ 1024`. -/
theorem roundUnits_units_lt_iff :
    roundUnits (m * unitsPerOne) 1 < unitsLimit ↔ roundUnits m 1 < 2 ^ (1024 : Nat) := by
  have hlimit : unitsLimit = 2 ^ (1024 : Nat) * unitsPerOne := by
    rw [unitsLimit, unitsPerOne, ← Nat.pow_add]
  rw [hlimit, unitsPerOne, roundUnits_mul_two_pow]
  exact Nat.mul_lt_mul_right (Nat.two_pow_pos 1074)

/-- The numbers nearest to two natural numbers are the same if these round to the same value, or if
both are out of range. -/
theorem ofNat_eq_iff : ofNat m = ofNat n ↔ roundUnits m 1 = roundUnits n 1 ∨
    (¬roundUnits m 1 < 2 ^ (1024 : Nat) ∧ ¬roundUnits n 1 < 2 ^ (1024 : Nat)) := by
  rw [← roundUnits_units_lt_iff, ← roundUnits_units_lt_iff]
  by_cases hm : roundUnits (m * unitsPerOne) 1 < unitsLimit
  · by_cases hn : roundUnits (n * unitsPerOne) 1 < unitsLimit
    · refine ⟨fun h => .inl ?_, fun h => ofNat_congr (h.resolve_right fun h => h.1 hm)⟩
      rw [ofNat_of_lt hm, ofNat_of_lt hn] at h
      have hunits := (finite.inj h).2
      rw [unitsPerOne, roundUnits_mul_two_pow, roundUnits_mul_two_pow] at hunits
      exact Nat.eq_of_mul_eq_mul_right (Nat.two_pow_pos 1074) hunits
    · refine ⟨fun h => ?_, fun h => ofNat_congr (h.resolve_right fun h => h.1 hm)⟩
      rw [ofNat_of_lt hm, ofNat_of_not_lt hn] at h
      cases h
  · by_cases hn : roundUnits (n * unitsPerOne) 1 < unitsLimit
    · refine ⟨fun h => ?_, fun h => ofNat_congr (h.resolve_right fun h => h.2 hn)⟩
      rw [ofNat_of_not_lt hm, ofNat_of_lt hn] at h
      cases h
    · rw [ofNat_of_not_lt hm, ofNat_of_not_lt hn]
      exact ⟨fun _ => .inr ⟨hm, hn⟩, fun _ => rfl⟩

/-- Whether a value is below a power of two is a matter of its first place. -/
theorem lt_two_pow_iff_of_places {place top : Nat} (hlow : 2 ^ (place + 52) ≤ n)
    (hhigh : n < 2 ^ (place + 53)) : n < 2 ^ top ↔ place + 53 ≤ top := by
  constructor
  · intro h
    have := (Nat.pow_lt_pow_iff_right (by decide : 1 < 2)).1 (Nat.lt_of_le_of_lt hlow h)
    omega
  · exact fun h => Nat.lt_of_lt_of_le hhigh (Nat.pow_le_pow_right (by decide) h)

/-- What stands above the last place of a value are 53 places. -/
theorem div_lastPlace_bounds (hm : 2 ^ (53 : Nat) ≤ m) :
    2 ^ (52 : Nat) ≤ m / 2 ^ lastPlace m ∧ m / 2 ^ lastPlace m < 2 ^ (53 : Nat) := by
  have hlow := two_pow_le_of_lastPlace (lastPlace_pos hm)
  have hhigh := lt_two_pow_lastPlace m
  rw [Nat.add_comm, Nat.pow_add] at hlow hhigh
  exact ⟨(Nat.le_div_iff_mul_le (Nat.two_pow_pos _)).2 hlow,
    (Nat.div_lt_iff_lt_mul (Nat.two_pow_pos _)).2 hhigh⟩

/-- No power of two lies between the neighbours of a value in a tie that goes down. -/
theorem lt_two_pow_iff_of_isLowTie (top : Nat) (hm : 2 ^ (53 : Nat) ≤ m) (hd : d < 2 ^ k)
    (h : IsLowTie m) :
    (roundUnits m 1 * 2 ^ k < 2 ^ top ↔ m * 2 ^ k + d < 2 ^ top) ∧
      (roundUnits m 1 * 2 ^ k + 2 ^ (lastPlace m + k) < 2 ^ top ↔ m * 2 ^ k + d < 2 ^ top) := by
  obtain ⟨hhalf, heven⟩ := h
  have hrounded : roundUnits m 1 * 2 ^ k = m / 2 ^ lastPlace m * 2 ^ (lastPlace m + k) := by
    have hfloor : roundHalfEven m (2 ^ lastPlace m) = m / 2 ^ lastPlace m := by
      simp [roundHalfEven, hhalf, heven]
    rw [roundUnits_one, hfloor, Nat.pow_add, Nat.mul_assoc]
  obtain ⟨hqlow, hqhigh⟩ := div_lastPlace_bounds hm
  have hplace := lastPlace_shifted_add (Nat.le_trans (by decide) hm) hd
  have hlow := two_pow_le_of_lastPlace (m := m * 2 ^ k + d) (by have := lastPlace_pos hm; omega)
  have hhigh := lt_two_pow_lastPlace (m * 2 ^ k + d)
  rw [hplace] at hlow hhigh
  rw [hrounded, ← Nat.succ_mul]
  generalize m / 2 ^ lastPlace m = q at heven hqlow hqhigh
  generalize lastPlace m + k = place at hlow hhigh
  -- all three have their first place in common: the quotient is even, so its successor has no more
  have hshifted : ∀ q, 2 ^ (52 : Nat) ≤ q → q < 2 ^ (53 : Nat) →
      (q * 2 ^ place < 2 ^ top ↔ place + 53 ≤ top) := by
    intro q hlow hhigh
    apply lt_two_pow_iff_of_places
    · rw [Nat.add_comm, Nat.pow_add]
      exact Nat.mul_le_mul_right _ hlow
    · rw [Nat.add_comm, Nat.pow_add]
      exact Nat.mul_lt_mul_of_pos_right hhigh (Nat.two_pow_pos place)
  rw [hshifted q hqlow hqhigh, hshifted q.succ (by omega) (by omega),
    lt_two_pow_iff_of_places hlow hhigh]
  exact ⟨Iff.rfl, Iff.rfl⟩

/-- Further places are of no account for the nearest number, but in a tie that goes down. -/
theorem ofNat_shifted_eq_iff (hm : 2 ^ (53 : Nat) ≤ m) (hd : d < 2 ^ k) :
    ofNat (m * 2 ^ k) = ofNat (m * 2 ^ k + d) ↔
      ¬(IsLowTie m ∧ d ≠ 0 ∧ m * 2 ^ k + d < 2 ^ (1024 : Nat)) := by
  have hshifted := roundUnits_mul_two_pow m k
  have hfurther := roundUnits_shifted_add hm hd
  by_cases htie : IsLowTie m ∧ d ≠ 0
  · rw [if_pos htie] at hfurther
    obtain ⟨htie, hne⟩ := htie
    have hrange := lt_two_pow_iff_of_isLowTie 1024 hm hd htie
    have hstep : 0 < 2 ^ (lastPlace m + k) := Nat.two_pow_pos _
    rw [ofNat_eq_iff, hshifted, hfurther, hrange.1, hrange.2]
    constructor
    · rintro (heq | hout)
      · omega
      · exact fun h => hout.1 h.2.2
    · intro hin
      have hout : ¬m * 2 ^ k + d < 2 ^ (1024 : Nat) := fun h => hin ⟨htie, hne, h⟩
      exact .inr ⟨hout, hout⟩
  · rw [if_neg htie, ← hshifted] at hfurther
    exact ⟨fun _ h => htie ⟨h.1, h.2.1⟩, fun _ => (ofNat_congr hfurther).symm⟩

/-! ## Reading a text -/

/-- The marks that stand behind a zero, each with the base that it announces. -/
def radixMarks : List (Char × Nat) :=
  [('x', 16), ('X', 16), ('o', 8), ('O', 8), ('b', 2), ('B', 2)]

variable {mark : Char}

theorem exists_two_pow_of_radixMarks (h : (mark, base) ∈ radixMarks) :
    ∃ j, j ≤ 53 ∧ base = 2 ^ j ∧ 1 < base := by
  simp only [radixMarks, List.mem_cons, Prod.mk.injEq, List.not_mem_nil, or_false] at h
  rcases h with ⟨-, rfl⟩ | ⟨-, rfl⟩ | ⟨-, rfl⟩ | ⟨-, rfl⟩ | ⟨-, rfl⟩ | ⟨-, rfl⟩
  · exact ⟨4, by decide⟩
  · exact ⟨4, by decide⟩
  · exact ⟨3, by decide⟩
  · exact ⟨3, by decide⟩
  · exact ⟨1, by decide⟩
  · exact ⟨1, by decide⟩

theorem isBlank_of_radixDigit? {c : Char} (h : radixDigit? base c = some d) :
    Text.isBlank c = false := by
  -- each of the three ranges of digits is visible
  have hrange : ∀ a b : Char, a ≤ c ∧ c ≤ b → a.toNat ≤ c.toNat ∧ c.toNat ≤ b.toNat :=
    fun a b h => h
  have h0 := hrange '0' '9'
  have ha := hrange 'a' 'f'
  have hA := hrange 'A' 'F'
  unfold radixDigit? at h
  apply Text.isBlank_of_visible
  simp only [show '0'.toNat = 0x30 from rfl, show '9'.toNat = 0x39 from rfl,
    show 'a'.toNat = 0x61 from rfl, show 'f'.toNat = 0x66 from rfl,
    show 'A'.toNat = 0x41 from rfl, show 'F'.toNat = 0x46 from rfl] at h0 ha hA
  split at h
  · next hc =>
    have := h0 hc
    omega
  · split at h
    · next hc =>
      have := ha hc
      omega
    · split at h
      · next hc =>
        have := hA hc
        omega
      · cases h

/-- Behind a mark all characters are read as digits. -/
theorem read_mark (hmark : (mark, base) ∈ radixMarks) (hne : cs ≠ [])
    (hds : cs.map (radixDigit? base) = ds.map some) :
    read (String.ofList ('0' :: mark :: cs)) = readRadixFrom base (ofNat 0) cs := by
  have hblank : ∀ c ∈ cs, Text.isBlank c = false := by
    intro c hc
    have hmem : radixDigit? base c ∈ ds.map some := hds ▸ List.mem_map_of_mem hc
    obtain ⟨d, -, hd⟩ := List.mem_map.1 hmem
    exact isBlank_of_radixDigit? hd.symm
  have hisEmpty : cs.isEmpty = false := List.isEmpty_eq_false_iff.2 hne
  simp only [radixMarks, List.mem_cons, Prod.mk.injEq, List.not_mem_nil, or_false] at hmark
  rcases hmark with ⟨rfl, rfl⟩ | ⟨rfl, rfl⟩ | ⟨rfl, rfl⟩ | ⟨rfl, rfl⟩ | ⟨rfl, rfl⟩ | ⟨rfl, rfl⟩ <;>
    · rw [read, String.toList_ofList, Text.trimBlanks_eq (List.forall_mem_cons.2 ⟨rfl,
        List.forall_mem_cons.2 ⟨rfl, hblank⟩⟩)]
      simp only [readRadix, hisEmpty]
      rfl

/-- Digits behind a mark are read as the integer that they write with zeros in place of those that
follow the value `front`, which is the first from `2 ^ 53` on, rounded once. That is the number
nearest to the integer that they write, unless `front` stands halfway between two numbers, of which
the lower one is even, something other than zeros follows it, and the integer is in range. -/
theorem read_radix {front : Nat} {rest : List Nat} (hmark : (mark, base) ∈ radixMarks)
    (hne : cs ≠ []) (hds : cs.map (radixDigit? base) = ds.map some)
    (hfront : readExactly base 0 ds = (front, rest)) :
    read (String.ofList ('0' :: mark :: cs)) = ofNat (front * base ^ rest.length) ∧
      (read (String.ofList ('0' :: mark :: cs)) = ofNat (Nat.ofDigits base ds.reverse) ↔
        ¬(IsLowTie front ∧ (∃ d ∈ rest, d ≠ 0) ∧
          Nat.ofDigits base ds.reverse < 2 ^ (1024 : Nat))) := by
  obtain ⟨j, hj, hbase, hone⟩ := exists_two_pow_of_radixMarks hmark
  have hread : read (String.ofList ('0' :: mark :: cs)) = ofNat (front * base ^ rest.length) := by
    rw [read_mark hmark hne hds, readRadixFrom_ofNat hbase hj hds, hfront]
  -- the value of all digits is that of the digits read exactly, and less than one unit of their
  -- place
  have hvalue : front * base ^ rest.length + Nat.ofDigits base rest.reverse
      = Nat.ofDigits base ds.reverse := by
    have := readExactly_value base 0 ds
    rwa [hfront, Nat.zero_mul, Nat.zero_add] at this
  have hdigit : ∀ d ∈ ds, d < base := by
    intro d hd
    have hmem : some d ∈ cs.map (radixDigit? base) := hds ▸ List.mem_map_of_mem hd
    obtain ⟨c, -, hc⟩ := List.mem_map.1 hmem
    exact radixDigit?_lt hc
  have hlt : Nat.ofDigits base rest.reverse < base ^ rest.length := by
    rw [← List.length_reverse]
    refine Nat.ofDigits_lt_base_pow_length hone fun d hd => hdigit d ?_
    have hmem : d ∈ (readExactly base 0 ds).2 := by
      rw [hfront]
      exact List.mem_reverse.1 hd
    exact mem_of_mem_readExactly hmem
  have hzero : Nat.ofDigits base rest.reverse ≠ 0 ↔ ∃ d ∈ rest, d ≠ 0 := by
    constructor
    · contrapose!
      intro hall
      rw [List.eq_replicate_of_mem hall, List.reverse_replicate, Nat.ofDigits_replicate_zero]
    · rintro ⟨d, hd, hne⟩ hsum
      exact hne (Nat.digits_zero_of_eq_zero (by omega) hsum d (List.mem_reverse.2 hd))
  refine ⟨hread, ?_⟩
  rw [hread, ← hvalue, ← hzero]
  by_cases hrest : rest = []
  · subst hrest
    simp
  -- digits are left over only once the front fills the significand, so they cannot change its
  -- rounding but at a tie
  · have hreached : 2 ^ (53 : Nat) ≤ front := by
      have hexact : (readExactly base 0 ds).2 ≠ [] →
          2 ^ (53 : Nat) ≤ (readExactly base 0 ds).1 := readExactly_sufficient
      rw [hfront] at hexact
      exact hexact hrest
    rw [hbase, ← Nat.pow_mul] at hlt ⊢
    exact ofNat_shifted_eq_iff hreached hlt

/-- What follows a tie that goes down is lost: `2 ^ 57 + 17` is read as `2 ^ 57`, although
`2 ^ 57 + 32` is nearer to it. -/
theorem read_radix_of_tie : ('x', 16) ∈ radixMarks ∧
    readExactly 16 0 [2, 0, 0, 0, 0, 0, 0, 0, 0, 0, 0, 0, 0, 1, 1] = (2 ^ (53 : Nat) + 1, [1]) ∧
    read "0x200000000000011" = ofNat (2 ^ (57 : Nat)) ∧
    read "0x200000000000011" ≠ ofNat (2 ^ (57 : Nat) + 17) := by
  have hmark : ('x', 16) ∈ radixMarks := by decide
  have hfront : readExactly 16 0 [2, 0, 0, 0, 0, 0, 0, 0, 0, 0, 0, 0, 0, 1, 1]
      = (2 ^ (53 : Nat) + 1, [1]) := by decide
  have hdigits : "200000000000011".toList.map (radixDigit? 16)
      = [2, 0, 0, 0, 0, 0, 0, 0, 0, 0, 0, 0, 0, 1, 1].map some := by decide
  obtain ⟨hread, hiff⟩ := read_radix hmark (by decide) hdigits hfront
  have htie : IsLowTie (2 ^ (53 : Nat) + 1) := by decide +kernel
  have hrange : Nat.ofDigits 16 [2, 0, 0, 0, 0, 0, 0, 0, 0, 0, 0, 0, 0, 1, 1].reverse
      < 2 ^ (1024 : Nat) := by decide +kernel
  have hdown : ofNat ((2 ^ (53 : Nat) + 1) * 16 ^ [1].length) = ofNat (2 ^ (57 : Nat)) :=
    ofNat_congr (by decide +kernel)
  exact ⟨hmark, hfront, hread.trans hdown,
    fun h => hiff.1 h ⟨htie, ⟨1, by simp, by decide⟩, hrange⟩⟩

end SearchScript.Number
