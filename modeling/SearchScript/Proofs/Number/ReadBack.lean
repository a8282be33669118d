import SearchScript.Number.Notation
import SearchScript.Number.Reading

/-!
# Numbers read back from their text

The shortest digits of a number are found by reading back, and where none of the grids that are
tried has any, the exact digits are taken, which read back because the number fits its places. The
digits of a decimal are read as that decimal, with a point among them or an exponent behind them.

## Key results

- `Decimal.ofDecimal_shortest`: the shortest decimal of a number is nearest to that number
- `Number.readDecimal?_plain`: positional digits are read as their decimal
- `Number.readDecimal?_scientific`: so are digits with an exponent
-/

namespace SearchScript

-- powers are those of the core library, whatever else is imported
attribute [local instance (high)] instPowNat

/-! ## Digits -/

section

variable {c : Char} {ds rest : List Char} {value : Nat}

theorem digitValue?_of_isDigit (h : c.isDigit = true) :
    digitValue? c = some (c.toNat - '0'.toNat) := by
  simp only [Char.isDigit, Bool.and_eq_true, decide_eq_true_eq] at h
  exact if_pos h

/-- Digits in front of a text are read up to its first other character. -/
theorem spanDigits_append (hds : ∀ c ∈ ds, c.isDigit = true)
    (hrest : ∀ c, rest.head? = some c → digitValue? c = none) :
    spanDigits value (ds ++ rest) = (Nat.ofDigitChars 10 ds value, rest) := by
  induction ds generalizing value with
  | nil =>
    cases rest with
    | nil => rfl
    | cons c rest => simp [spanDigits, hrest c rfl]
  | cons d ds ih =>
    obtain ⟨hd, hds⟩ := List.forall_mem_cons.1 hds
    simp only [List.cons_append, spanDigits, digitValue?_of_isDigit hd, ih hds,
      Nat.ofDigitChars_cons, Nat.mul_comm]

theorem isDigit_of_mem_toDigits {n : Nat} (h : c ∈ Nat.toDigits 10 n) : c.isDigit = true :=
  Nat.isDigit_of_mem_toDigits (by decide) (by decide) h

end

/-! ## Rounding what needs no rounding -/

namespace Number

/-- A quotient that is a count of units with 53 significant places is left alone. -/
theorem roundUnits_mul_of_dvd {units den : Nat} (h : 2 ^ lastPlace units ∣ units)
    (hden : 0 < den) : roundUnits (units * den) den = units := by
  obtain ⟨q, hq⟩ := h
  have hplace : 0 < 2 ^ lastPlace units := Nat.two_pow_pos _
  simp only [roundUnits, Nat.mul_div_cancel _ hden]
  generalize 2 ^ lastPlace units = place at hq hplace
  subst hq
  have hnum : place * q * den = q * (den * place) := by
    rw [Nat.mul_comm place q, Nat.mul_assoc, Nat.mul_comm place den]
  have hpos : 0 < den * place := Nat.mul_pos hden hplace
  have hrest : 2 * (q * (den * place) % (den * place)) < den * place := by
    rw [Nat.mul_mod_left]
    exact hpos
  simp only [hnum, roundHalfEven, if_pos hrest, Nat.mul_div_cancel _ hpos]
  exact Nat.mul_comm q place

/-- A quotient that is a count of units which fits is left alone. -/
theorem roundUnits_mul_self {units den : Nat} (h : Fits units) (hden : 0 < den) :
    roundUnits (units * den) den = units := roundUnits_mul_of_dvd h.2 hden

theorem round_mul_self {negative : Bool} {units den : Nat} (h : Fits units) (hden : 0 < den) :
    round negative (units * den) den = .finite negative units h := by
  have hr := roundUnits_mul_self h hden
  unfold round
  rw [dif_pos (Nat.lt_of_le_of_lt (Nat.le_of_eq hr) h.1)]
  congr 1

end Number

namespace Decimal

open Number

variable {units : Nat} {tie : Tie}

/-- The exact value of a count of units reads back. -/
theorem ofDecimal_exact (h : Fits units) (hpos : 0 < units) :
    ofDecimal false (exact units) = .finite false units h := by
  have hfive : ∀ k, 0 < 5 ^ k := fun k => Nat.pow_pos (by decide)
  have hne : ∀ k, units * 5 ^ k ≠ 0 := fun k =>
    Nat.pos_iff_ne_zero.1 (Nat.mul_pos hpos (hfive k))
  have hlog : ∀ k, 2 * k ≤ (units * 5 ^ k).log2 := by
    intro k
    rw [Nat.le_log2 (hne k), Nat.pow_mul]
    exact Nat.le_trans (Nat.pow_le_pow_left (by decide) k) (Nat.le_mul_of_pos_left _ hpos)
  have hdigits := hne 1074
  have hsize : ¬(units * 5 ^ (1074 : Nat)).log2 + 1080 < 3 * (-1074 : Int).natAbs := by
    have := hlog 1074
    rw [show (-1074 : Int).natAbs = 1074 from rfl]
    omega
  have hten : ∀ k, units * 5 ^ k * 2 ^ k = units * 10 ^ k := by
    intro k
    rw [Nat.mul_assoc, ← Nat.mul_pow]
  unfold ofDecimal exact
  rw [if_neg hdigits, if_neg (show ¬(0 : Int) ≤ -1074 by decide), if_neg hsize, unitsPerOne, hten]
  exact round_mul_self h (Nat.pow_pos (by decide))

/-- Whether a number has a count of units and no sign. -/
private def hasUnits (n : Nat) : Number → Bool
  | .finite false u _ => u == n
  | _ => false

private theorem eq_of_hasUnits {n : Number} (h : Fits units) (hn : hasUnits units n = true) :
    n = .finite false units h := by
  unfold hasUnits at hn
  split at hn
  · cases eq_of_beq hn
    rfl
  · cases hn

/-- What is found on a grid reads back. -/
theorem ofDecimal_onGrid? {exponent : Int} {d : Decimal} (h : Fits units)
    (hd : onGrid? tie units exponent = some d) : ofDecimal false d = .finite false units h := by
  unfold onGrid? at hd
  simp only at hd
  split at hd
  · next hb ha =>
    cases hd
    split
    · exact eq_of_hasUnits h ha
    · exact eq_of_hasUnits h hb
  · next hb _ =>
    cases hd
    exact eq_of_hasUnits h hb
  · next _ ha =>
    cases hd
    exact eq_of_hasUnits h ha
  · cases hd

/-- The shortest decimal of a count of units reads back. -/
theorem ofDecimal_shortest (h : Fits units) (hpos : 0 < units) :
    ofDecimal false (shortest tie units) = .finite false units h := by
  have hsearch : ∀ steps exponent,
      ofDecimal false (searchGrids tie units steps exponent) = .finite false units h := by
    intro steps
    induction steps with
    | zero => exact fun _ => ofDecimal_exact h hpos
    | succ steps ih =>
      intro exponent
      unfold searchGrids
      split
      · next d hd => exact ofDecimal_onGrid? h hd
      · exact ih _
  exact hsearch _ _

end Decimal

namespace Number

open Number.Notation

variable {cs ds : List Char} {negative : Bool}

/-- A decimal with the opposite sign is nearest to the number of the opposite sign. -/
theorem ofDecimal_true (d : Decimal) : ofDecimal true d = neg (ofDecimal false d) := by
  unfold ofDecimal round signedZero
  repeat' split
  all_goals rfl

/-- Zeros behind the digits stand for a positive exponent. -/
theorem ofDecimal_mul_pow {digits exponent : Nat} (h : exponent ≤ 309) :
    ofDecimal false ⟨digits * 10 ^ exponent, 0⟩ = ofDecimal false ⟨digits, exponent⟩ := by
  have hle : ¬(309 : Int) < exponent := by omega
  by_cases h0 : digits = 0
  · simp [ofDecimal, h0]
  · have hne : digits * 10 ^ exponent ≠ 0 :=
      Nat.mul_ne_zero h0 (Nat.ne_of_gt (Nat.pow_pos (by decide)))
    simp [ofDecimal, h0, hne, hle]

theorem readSign_of_isDigit {c : Char} (h : c.isDigit = true) :
    readSign (c :: cs) = (false, c :: cs) := by
  unfold readSign
  split
  · next heq => cases heq; cases h
  · next heq => cases heq; cases h
  · rfl

/-- A minus in front of a decimal text is read as the sign. -/
theorem readDecimal?_minus {c : Char} (h : c.isDigit = true) :
    readDecimal? ('-' :: c :: cs) = (readDecimal? (c :: cs)).map neg := by
  unfold readDecimal?
  rw [readSign_of_isDigit h]
  simp only [readSign]
  split <;> split
  all_goals first
    | rfl
    | rw [Option.map_map]
      congr 1
      funext exponent
      exact ofDecimal_true _

/-- An exponent that is read starts with its mark. -/
theorem head?_of_readExponent? {exponent : Int} (h : readExponent? cs = some exponent) :
    ∀ c, cs.head? = some c → digitValue? c = none ∧ c ≠ '.' := by
  intro c hc
  cases cs with
  | nil => cases hc
  | cons c' cs =>
    cases hc
    unfold readExponent? at h
    split at h
    · next heq => cases heq
    · next heq =>
      cases heq
      split at h
      · next hmark => rcases hmark with rfl | rfl <;> decide
      · cases h

/-- Digits and an exponent are read as the whole number that the digits are, scaled. -/
theorem readDecimal?_digits {rest : List Char} {exponent : Int}
    (h : ∀ c ∈ ds, c.isDigit = true) (hne : ds ≠ []) (hrest : readExponent? rest = some exponent) :
    readDecimal? (ds ++ rest) = some (ofDecimal false ⟨Nat.ofDigitChars 10 ds 0, exponent⟩) := by
  obtain ⟨c, cs, rfl⟩ := List.exists_cons_of_ne_nil hne
  have hhead := head?_of_readExponent? hrest
  have hspan : spanDigits 0 ((c :: cs) ++ rest) = (_, rest) :=
    spanDigits_append h fun c hc => (hhead c hc).1
  unfold readDecimal?
  rw [List.cons_append, readSign_of_isDigit (h c List.mem_cons_self), ← List.cons_append]
  simp only [hspan]
  split
  · exact absurd rfl (hhead '.' rfl).2
  · rw [if_neg (by simp only [List.length_append, List.length_cons]; omega), hrest]
    simp

/-- Digits around a point are read as those digits without the point, scaled. -/
theorem readDecimal?_point {fs rest : List Char} {exponent : Int}
    (h : ∀ c ∈ ds, c.isDigit = true) (hne : ds ≠ []) (hfs : ∀ c ∈ fs, c.isDigit = true)
    (hrest : readExponent? rest = some exponent) :
    readDecimal? (ds ++ '.' :: (fs ++ rest)) =
      some (ofDecimal false ⟨Nat.ofDigitChars 10 (ds ++ fs) 0, exponent - fs.length⟩) := by
  obtain ⟨c, cs, rfl⟩ := List.exists_cons_of_ne_nil hne
  have hspan : spanDigits 0 ((c :: cs) ++ '.' :: (fs ++ rest)) = (_, '.' :: (fs ++ rest)) :=
    spanDigits_append h (by rintro _ ⟨⟩; decide)
  have hspan' : spanDigits (Nat.ofDigitChars 10 (c :: cs) 0) (fs ++ rest) = (_, rest) :=
    spanDigits_append hfs fun c hc => (head?_of_readExponent? hrest c hc).1
  unfold readDecimal?
  rw [List.cons_append, readSign_of_isDigit (h c List.mem_cons_self), ← List.cons_append]
  simp only [hspan, hspan', Nat.ofDigitChars_append, hrest]
  rw [if_neg (by simp only [List.length_append, List.length_cons]; omega)]
  simp

theorem readDecimal?_whole (h : ∀ c ∈ ds, c.isDigit = true) (hne : ds ≠ []) :
    readDecimal? ds = some (ofDecimal false ⟨Nat.ofDigitChars 10 ds 0, 0⟩) := by
  have hread := readDecimal?_digits h hne (show readExponent? [] = some 0 from rfl)
  rwa [List.append_nil] at hread

theorem readDecimal?_fraction {fs : List Char} (h : ∀ c ∈ ds, c.isDigit = true) (hne : ds ≠ [])
    (hfs : ∀ c ∈ fs, c.isDigit = true) :
    readDecimal? (ds ++ '.' :: fs) =
      some (ofDecimal false ⟨Nat.ofDigitChars 10 (ds ++ fs) 0, -fs.length⟩) := by
  have hread := readDecimal?_point h hne hfs (show readExponent? [] = some 0 from rfl)
  rwa [List.append_nil, Int.zero_sub] at hread

/-- Positional digits are read as their decimal. -/
theorem readDecimal?_plain (d : Decimal) (h : d.exponent ≤ 309) :
    readDecimal? (scriptNotation.plain (Nat.toDigits 10 d.digits) d.exponent) =
      some (ofDecimal false d) := by
  have hdigits := fun c => isDigit_of_mem_toDigits (c := c) (n := d.digits)
  have hzeros : ∀ k, ∀ c ∈ List.replicate k '0', c.isDigit = true := by
    intro k c hc
    rw [List.eq_of_mem_replicate hc]
    rfl
  simp only [plain, scriptNotation, Bool.false_eq_true, if_false, List.append_nil]
  split
  -- the point stands behind the digits, among them, or in front of them
  · next hpos =>
    obtain ⟨exponent, hexp⟩ := Int.eq_ofNat_of_zero_le hpos
    rw [readDecimal?_whole (List.forall_mem_append.2 ⟨hdigits, hzeros _⟩)
      (by simp [Nat.toDigits_ne_nil])]
    simp only [Nat.ofDigitChars_append, Nat.ofDigitChars_ten_toDigits,
      Nat.ofDigitChars_replicate_zero]
    rw [Nat.mul_comm, ofDecimal_mul_pow (by omega)]
    congr
    omega
  · next hneg =>
    split
    · next hlt =>
      have hds : ∀ k, ∀ c ∈ (Nat.toDigits 10 d.digits).take k, c.isDigit = true :=
        fun k c hc => hdigits c (List.mem_of_mem_take hc)
      rw [readDecimal?_fraction (hds _) (by simp [Nat.toDigits_ne_nil]; omega)
        (fun c hc => hdigits c (List.mem_of_mem_drop hc)), List.take_append_drop,
        Nat.ofDigitChars_ten_toDigits]
      congr
      simp only [List.length_drop]
      omega
    · next hle =>
      rw [← List.singleton_append (l := '.' :: _), readDecimal?_fraction (by simp) (by simp)
        (List.forall_mem_append.2 ⟨hzeros _, hdigits⟩)]
      simp only [List.singleton_append, Nat.ofDigitChars_append, Nat.ofDigitChars_cons,
        Nat.ofDigitChars_replicate_zero]
      simp only [List.length_append, List.length_replicate]
      congr
      · simp
      · omega

/-- The exponent that is written behind digits is read. -/
theorem readExponent?_exponentPart (exponent : Int) :
    readExponent? (exponentPart exponent) = some exponent := by
  have hspan : spanDigits 0 (Nat.toDigits 10 exponent.natAbs ++ []) = (_, []) :=
    spanDigits_append (fun c => isDigit_of_mem_toDigits) (by simp)
  rw [List.append_nil, Nat.ofDigitChars_ten_toDigits] at hspan
  obtain ⟨c, cs, hcs⟩ :=
    List.exists_cons_of_ne_nil (Nat.toDigits_ne_nil (n := exponent.natAbs) (b := 10))
  rw [hcs] at hspan
  unfold readExponent? exponentPart
  rw [hcs]
  simp only [true_or, if_true]
  by_cases hneg : exponent < 0
  · simp only [if_pos hneg, readSign, hspan, signed]
    congr 1
    simp only [if_true]
    omega
  · simp only [if_neg hneg, readSign, hspan, signed]
    congr 1
    simp only [Bool.false_eq_true, if_false]
    omega

/-- Digits with an exponent are read as their decimal. -/
theorem readDecimal?_scientific (m : Nat) (leading : Int) :
    readDecimal? (scientific (Nat.toDigits 10 m) leading) =
      some (ofDecimal false ⟨m, leading - ((Nat.toDigits 10 m).length - 1 : Nat)⟩) := by
  have hdigits := fun c => isDigit_of_mem_toDigits (c := c) (n := m)
  have hvalue := Nat.ofDigitChars_ten_toDigits (n := m)
  have hexponent := readExponent?_exponentPart leading
  obtain ⟨d, ds, hds⟩ := List.exists_cons_of_ne_nil (Nat.toDigits_ne_nil (n := m) (b := 10))
  rw [hds] at hdigits hvalue ⊢
  -- one digit is written without a point
  cases ds with
  | nil =>
    have := readDecimal?_digits hdigits (by simp) hexponent
    simpa [scientific, hvalue] using this
  | cons d' ds =>
    obtain ⟨hd, hds⟩ := List.forall_mem_cons.1 hdigits
    have hfirst : ∀ c ∈ [d], c.isDigit = true := List.forall_mem_singleton.2 hd
    have := readDecimal?_point hfirst (by simp) hds hexponent
    simpa [scientific, hvalue] using this

end Number

end SearchScript
