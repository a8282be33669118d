import SearchScript.Proofs.Number.Rounding
import SearchScript.Value.Operators

/-!
# Subscripts of lists

An index that is not negative is looked up as it is. To a negative one the length of the list is
added first, and only the sum has to be an integer. The sum of an integer is exact, so integers find
what they ask for. A negative fraction is refused as well, unless the sum is rounded to an integer:
then it finds the item there, to which it must be closer than `2 ^ (-53)` of the length.

## Key definitions

- `Value.PointsTo`: the place that an index asks for
- `Value.Answers`: what is to be answered to an index

## Key results

- `Value.answers_itemAt`: looking up the right places answers an index
- `Value.subscript_answers`: when a subscript answers its index
-/

namespace SearchScript.Value

-- powers are those of the core library, whatever else is imported
attribute [local instance (high)] instPowNat

variable {items : List Value} {item receiver : Value} {index : Number} {length place units : Nat}

/-! ## What is asked for -/

/-- The items of which a subscript picks one. -/
def listed? : Value → Option (List Value)
  | list items => some items
  | stringList _ items => some (items.map string)
  | _ => none

/-- An index asks for a place among `length` items if it is an integer from `-length` on and below
`length`. A negative one counts from the end. -/
def PointsTo (length : Nat) (index : Number) (place : Nat) : Prop :=
  ∃ i : Int, index.toInt? = some i ∧ -(length : Int) ≤ i ∧ i < length ∧
    (place : Int) = if 0 ≤ i then i else length + i

/-- What is to be answered to an index: the item in the place that it asks for, and if there is no
such place, that the index is not found. -/
structure Answers (items : List Value) (index : Number) (answer : Except RunError Value) :
    Prop where
  ok_iff : ∀ item, answer = .ok item ↔
    ∃ place, PointsTo items.length index place ∧ items[place]? = some item
  notFound : (¬∃ place, PointsTo items.length index place) →
    ∃ shown, answer = .error (.indexNotFound shown)

theorem PointsTo.lt (h : PointsTo length index place) : place < length := by
  obtain ⟨i, -, hlow, hhigh, hplace⟩ := h
  split at hplace <;> omega

/-! ## What is looked up -/

/-- The index that is looked up: a negative one is counted from the end. -/
def fromFront (length : Nat) (index : Number) : Number :=
  if index.less 0 then index + Number.ofNat length else index

/-- The item that is looked up, if there is one. -/
def found? (items : List Value) (index : Number) : Option Value :=
  match (fromFront items.length index).toInt? with
  | some (.ofNat place) => items[place]?
  | _ => none

theorem found?_eq_some_iff : found? items index = some item ↔
    ∃ place : Nat, (fromFront items.length index).toInt? = some (place : Int) ∧
      items[place]? = some item := by
  unfold found?
  cases (fromFront items.length index).toInt? with
  | none => simp
  | some i =>
    cases i with
    | ofNat place => simp
    | negSucc k =>
      refine ⟨nofun, ?_⟩
      rintro ⟨place, hplace, -⟩
      cases hplace

theorem itemAt_eq : itemAt items index = match found? items index with
    | some item => .ok item
    | none => .error (RunError.indexNotFound (fromFront items.length index)) := rfl

/-- Looking up the places that an index asks for, and no others, answers it. -/
theorem answers_itemAt (h : ∀ place < items.length,
    (fromFront items.length index).toInt? = some (place : Int) ↔
      PointsTo items.length index place) : Answers items index (itemAt items index) := by
  have hfound : ∀ item, found? items index = some item ↔
      ∃ place, PointsTo items.length index place ∧ items[place]? = some item := by
    intro item
    rw [found?_eq_some_iff]
    constructor
    · rintro ⟨place, hplace, hitem⟩
      have hlt := (List.getElem?_eq_some_iff.1 hitem).1
      exact ⟨place, (h place hlt).1 hplace, hitem⟩
    · rintro ⟨place, hplace, hitem⟩
      exact ⟨place, (h place hplace.lt).2 hplace, hitem⟩
  rw [itemAt_eq]
  cases hitem : found? items index with
  | some found =>
    refine ⟨fun item => ?_, fun hnone => ?_⟩
    · rw [← hfound, hitem, Except.ok.injEq, Option.some.injEq]
    · obtain ⟨place, hplace, -⟩ := (hfound found).1 hitem
      exact absurd ⟨place, hplace⟩ hnone
  | none =>
    refine ⟨fun item => ?_, fun _ => ⟨_, rfl⟩⟩
    rw [← hfound, hitem]
    exact ⟨nofun, nofun⟩

/-! ## Indices that are not negative -/

theorem pointsTo_of_not_less (hsign : index.less 0 = false) (h : place < length) :
    index.toInt? = some (place : Int) ↔ PointsTo length index place := by
  constructor
  · intro hplace
    refine ⟨place, hplace, by omega, by omega, ?_⟩
    rw [if_pos (Int.natCast_nonneg place)]
  · rintro ⟨i, hi, -, -, hplace⟩
    -- an integer that is not less than zero is one without a sign, or zero
    have hnonneg : 0 ≤ i := by
      cases index with
      | nan => cases hi
      | infinite => cases hi
      | finite negative units fits =>
        rw [Number.less_zero_finite] at hsign
        obtain ⟨n, hunits, rfl⟩ := Number.toInt?_eq_some_iff.1 hi
        cases negative with
        | false => exact Int.natCast_nonneg n
        | true =>
          have hzero : n * Number.unitsPerOne = 0 := by
            simpa [← hunits] using hsign
          have : n = 0 := by
            rcases Nat.mul_eq_zero.1 hzero with h | h
            · exact h
            · exact absurd h (Nat.ne_of_gt Number.unitsPerOne_pos)
          simp [Number.signed, this]
    rw [if_pos hnonneg] at hplace
    rw [hi, hplace]

/-! ## Negative indices -/

/-- Adding the length to a negative index takes no rounding. -/
def SumIsExact (length : Nat) (index : Number) : Prop :=
  ∀ units fits, index = .finite true units fits → ∃ negative sum fits',
    index + Number.ofNat length = .finite negative sum fits' ∧
      Number.signed negative sum = (length * Number.unitsPerOne : Nat) - units

/-- A negative index asks for a place if it is as many whole ones below the length. -/
theorem pointsTo_negative {fits : Number.Fits units} (hpos : 0 < units) (h : place < length) :
    PointsTo length (.finite true units fits) place ↔
      place * Number.unitsPerOne + units = length * Number.unitsPerOne := by
  constructor
  · rintro ⟨i, hi, hlow, -, hplace⟩
    obtain ⟨n, hunits, rfl⟩ := Number.toInt?_eq_some_iff.1 hi
    have hn : n ≠ 0 := by
      rintro rfl
      omega
    simp only [Number.signed, if_true] at hlow hplace
    rw [if_neg (by omega)] at hplace
    rw [hunits, ← Nat.add_mul]
    congr 1
    omega
  · intro hsum
    have hunits : units = (length - place) * Number.unitsPerOne := by
      rw [Nat.sub_mul]
      omega
    refine ⟨-(length - place : Nat), ?_, by omega, by omega, ?_⟩
    · exact Number.toInt?_eq_some_iff.2 ⟨length - place, hunits, by simp [Number.signed]⟩
    · rw [if_neg (by omega)]
      omega

/-- An exact sum is the place that is as many whole ones below the length. -/
theorem toInt?_exactSum {negative : Bool} {sum : Nat} {fits : Number.Fits sum}
    (h : Number.signed negative sum = (length * Number.unitsPerOne : Nat) - units) :
    (Number.finite negative sum fits).toInt? = some (place : Int) ↔
      place * Number.unitsPerOne + units = length * Number.unitsPerOne := by
  rw [Number.toInt?_eq_some_iff]
  have hone := Number.unitsPerOne_pos
  cases negative with
  | false =>
    simp only [Number.signed, Bool.false_eq_true, if_false] at h ⊢
    constructor
    · rintro ⟨n, hunits, hplace⟩
      obtain rfl : place = n := by omega
      omega
    · intro hsum
      exact ⟨place, by omega, rfl⟩
  | true =>
    simp only [Number.signed, if_true] at h ⊢
    constructor
    · rintro ⟨n, hunits, hplace⟩
      obtain rfl : n = 0 := by omega
      obtain rfl : place = 0 := by omega
      omega
    · intro hsum
      -- only zero is both below the length and not negative
      have hzero : place * Number.unitsPerOne = 0 := by omega
      obtain rfl : place = 0 := by
        rcases Nat.mul_eq_zero.1 hzero with h | h <;> omega
      exact ⟨0, by omega, rfl⟩

theorem pointsTo_of_exact (hsign : index.less 0 = true) (hexact : SumIsExact length index)
    (h : place < length) :
    (index + Number.ofNat length).toInt? = some (place : Int) ↔ PointsTo length index place := by
  cases index with
  | nan => cases hsign
  | infinite negative =>
    rw [Number.toInt?_infinite_add]
    exact ⟨nofun, fun ⟨i, hi, _⟩ => nomatch hi⟩
  | finite negative units fits =>
    rw [Number.less_zero_finite, Bool.and_eq_true, bne_iff_ne] at hsign
    obtain ⟨rfl, hne⟩ := hsign
    obtain ⟨negative, sum, fits', hadd, hsum⟩ := hexact units fits rfl
    rw [hadd, toInt?_exactSum hsum, pointsTo_negative (Nat.pos_of_ne_zero hne) h]

/-- Up to `2 ^ 53` items an integer index finds what it asks for. -/
theorem pointsTo_of_integer (hsign : index.less 0 = true) (hlength : length ≤ 2 ^ (53 : Nat))
    (hinteger : index.toInt? ≠ none) (h : place < length) :
    (index + Number.ofNat length).toInt? = some (place : Int) ↔ PointsTo length index place := by
  cases index with
  | nan => cases hsign
  | infinite => exact absurd rfl hinteger
  | finite negative units fits =>
    rw [Number.less_zero_finite, Bool.and_eq_true, bne_iff_ne] at hsign
    obtain ⟨rfl, hne⟩ := hsign
    obtain ⟨i, hi⟩ := Option.ne_none_iff_exists'.1 hinteger
    obtain ⟨n, hunits, -⟩ := Number.toInt?_eq_some_iff.1 hi
    rcases Nat.lt_or_ge length n with hn | hn
    · -- below the front of the list nothing is asked for, and the sum stays negative
      have hless : length * Number.unitsPerOne < units := by
        rw [hunits]
        exact Nat.mul_lt_mul_of_pos_right hn Number.unitsPerOne_pos
      rw [pointsTo_negative (Nat.pos_of_ne_zero hne) h, Number.ofNat_of_le hlength,
        Number.negative_add_of_lt _ _ hless]
      refine ⟨fun hsum => ?_, fun hsum => ?_⟩
      · have := Number.toInt?_round_true (by omega) hsum
        omega
      · omega
    -- otherwise both numbers are whole and the sum is exact
    · refine pointsTo_of_exact ?_ ?_ h
      · rw [Number.less_zero_finite, Bool.true_and, bne_iff_ne]
        exact hne
      · rintro _ _ ⟨rfl, rfl⟩
        have hsum : length * Number.unitsPerOne - units = (length - n) * Number.unitsPerOne := by
          rw [hunits, ← Nat.sub_mul]
        have hle : units ≤ length * Number.unitsPerOne := by
          rw [hunits]
          exact Nat.mul_le_mul_right _ hn
        refine ⟨false, _, Number.fits_whole (Nat.le_trans (Nat.sub_le length n) hlength), ?_, ?_⟩
        · rw [Number.ofNat_of_le hlength, Number.negative_add_of_le _ _ hle, hsum]
          exact Number.round_of_fits _
        · rw [← hsum]
          simp only [Number.signed, Bool.false_eq_true, if_false]
          omega

/-- A negative index whose sum comes to a place lies close to the integer that asks for it. -/
theorem dist_of_toInt? {fits : Number.Fits units} (hlength : length ≤ 2 ^ (53 : Nat))
    (h : (Number.finite true units fits + Number.ofNat length).toInt? = some (place : Int)) :
    Nat.dist (place * Number.unitsPerOne + units) (length * Number.unitsPerOne) * 2 ^ (53 : Nat)
      ≤ length * Number.unitsPerOne := by
  rw [Number.ofNat_of_le hlength] at h
  rcases Nat.lt_or_ge (length * Number.unitsPerOne) units with hlt | hle
  · rw [Number.negative_add_of_lt _ _ hlt] at h
    have := Number.toInt?_round_true (by omega) h
    omega
  · rw [Number.negative_add_of_le _ _ hle] at h
    unfold Number.round at h
    split at h
    · obtain ⟨n, hunits, hplace⟩ := Number.toInt?_eq_some_iff.1 h
      obtain rfl : place = n := by
        simp only [Number.signed, Bool.false_eq_true, if_false] at hplace
        omega
      -- the sum is moved as far as the index is away from the integer
      have hmoved := Number.dist_roundUnits_mul_le (length * Number.unitsPerOne - units)
      rw [hunits] at hmoved
      have hdist : Nat.dist (length * Number.unitsPerOne - units) (place * Number.unitsPerOne)
          = Nat.dist (place * Number.unitsPerOne + units) (length * Number.unitsPerOne) := by
        unfold Nat.dist
        omega
      rw [hdist] at hmoved
      omega
    · cases h

/-! ## Subscripts -/

theorem subscript_eq_itemAt (h : receiver.listed? = some items) :
    receiver.subscript (number index) = itemAt items index := by
  cases receiver with
  | list => cases h; rfl
  | stringList => cases h; rfl
  | _ => cases h

theorem answers_of_not_less (hsign : index.less 0 = false) :
    Answers items index (itemAt items index) := by
  apply answers_itemAt
  intro place hlt
  rw [fromFront, if_neg (by rw [hsign]; exact Bool.false_ne_true)]
  exact pointsTo_of_not_less hsign hlt

theorem answers_of_exact (hexact : SumIsExact items.length index) :
    Answers items index (itemAt items index) := by
  by_cases hsign : index.less 0 = true
  · apply answers_itemAt
    intro place hlt
    rw [fromFront, if_pos hsign]
    exact pointsTo_of_exact hsign hexact hlt
  · exact answers_of_not_less (Bool.eq_false_of_not_eq_true hsign)

/-- A negative index is answered unless it is a fraction and its sum with the length a place. -/
theorem answers_of_less (hlength : items.length ≤ 2 ^ (53 : Nat)) (hsign : index.less 0 = true)
    (h : index.toInt? = none → ∀ place < items.length,
      (index + Number.ofNat items.length).toInt? ≠ some (place : Int)) :
    Answers items index (itemAt items index) := by
  apply answers_itemAt
  intro place hlt
  rw [fromFront, if_pos hsign]
  cases hinteger : index.toInt? with
  | some i => exact pointsTo_of_integer hsign hlength (by simp [hinteger]) hlt
  | none =>
    refine ⟨fun hplace => absurd hplace (h hinteger place hlt), ?_⟩
    rintro ⟨i, hi, -⟩
    rw [hinteger] at hi
    cases hi

/-- A negative fraction that is rounded to a place finds the item there, although it asks for
none. -/
theorem not_answers_of_rounded (hsign : index.less 0 = true) (hfraction : index.toInt? = none)
    (hlt : place < items.length)
    (hplace : (index + Number.ofNat items.length).toInt? = some (place : Int)) :
    ¬Answers items index (itemAt items index) := by
  intro hanswers
  have hitem : found? items index = some items[place] := by
    refine found?_eq_some_iff.2 ⟨place, ?_, List.getElem?_eq_getElem hlt⟩
    rw [fromFront, if_pos hsign]
    exact hplace
  obtain ⟨place', ⟨i, hi, -⟩, -⟩ := (hanswers.ok_iff items[place]).1 (by rw [itemAt_eq, hitem])
  rw [hfraction] at hi
  cases hi

/-- A subscript of a list answers every index that is not negative, and every negative one whose
sum with the length takes no rounding. Up to `2 ^ 53` items that is every index but the negative
fractions whose sum is rounded to a place of the list: these find the item there. Such a fraction
is closer than `2 ^ (-53)` of the length to the integer that asks for the item. -/
theorem subscript_answers (hlisted : receiver.listed? = some items) :
    (index.less 0 = false → Answers items index (receiver.subscript (number index))) ∧
    (SumIsExact items.length index → Answers items index (receiver.subscript (number index))) ∧
    (items.length ≤ 2 ^ (53 : Nat) →
      (Answers items index (receiver.subscript (number index)) ↔
        ¬(index.less 0 = true ∧ index.toInt? = none ∧ ∃ place < items.length,
          (index + Number.ofNat items.length).toInt? = some (place : Int)))) ∧
    (items.length ≤ 2 ^ (53 : Nat) → ∀ units fits (place : Nat),
      index = .finite true units fits →
      (index + Number.ofNat items.length).toInt? = some (place : Int) →
      Nat.dist (place * Number.unitsPerOne + units) (items.length * Number.unitsPerOne)
          * 2 ^ (53 : Nat) ≤ items.length * Number.unitsPerOne) := by
  rw [subscript_eq_itemAt hlisted]
  refine ⟨answers_of_not_less, answers_of_exact, fun hlength => ⟨?_, fun h => ?_⟩, ?_⟩
  · rintro hanswers ⟨hsign, hfraction, place, hlt, hplace⟩
    exact not_answers_of_rounded hsign hfraction hlt hplace hanswers
  · by_cases hsign : index.less 0 = true
    · exact answers_of_less hlength hsign fun hfraction place hlt hplace =>
        h ⟨hsign, hfraction, place, hlt, hplace⟩
    · exact answers_of_not_less (Bool.eq_false_of_not_eq_true hsign)
  · rintro hlength units fits place rfl hplace
    exact dist_of_toInt? hlength hplace

/-- The least fraction above `-1` takes the last of two items, where nothing is asked for. -/
theorem subscript_answers_of_fraction :
    (list [string "a", string "b"]).listed? = some [string "a", string "b"] ∧
    (list [string "a", string "b"]).subscript (number (Number.read "-0.9999999999999999"))
      = .ok (string "b") ∧
    ¬Answers [string "a", string "b"] (Number.read "-0.9999999999999999")
      ((list [string "a", string "b"]).subscript (number (Number.read "-0.9999999999999999"))) := by
  have hlisted : (list [string "a", string "b"]).listed? = some [string "a", string "b"] := rfl
  have hsign : (Number.read "-0.9999999999999999").less 0 = true := by decide +kernel
  have hfraction : (Number.read "-0.9999999999999999").toInt? = none := by decide +kernel
  have hsum : (Number.read "-0.9999999999999999" + Number.ofNat 2).toInt? =
      some ((1 : Nat) : Int) := by decide +kernel
  obtain ⟨-, -, hiff, -⟩ :=
    @subscript_answers _ _ (Number.read "-0.9999999999999999") hlisted
  refine ⟨hlisted, ?_, fun hanswers => ?_⟩
  · have hitem : found? [string "a", string "b"] (Number.read "-0.9999999999999999")
        = some (string "b") := by
      refine found?_eq_some_iff.2 ⟨1, ?_, rfl⟩
      rw [fromFront, if_pos hsign]
      exact hsum
    rw [subscript_eq_itemAt hlisted, itemAt_eq, hitem]
  · exact (hiff (by decide)).1 hanswers ⟨hsign, hfraction, 1, by decide, hsum⟩

end SearchScript.Value
