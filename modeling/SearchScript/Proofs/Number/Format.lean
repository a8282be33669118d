import SearchScript.Proofs.Number.ReadBack

/-!
# Texts of numbers

The text of a number is read as that number. A finite one is written positionally or with an
exponent, and its text is made of the same few characters either way: so it is none of the words,
starts with no prefix of another base, and is read as a decimal, which is nearest to the number.
Only the sign of zero is lost.

## Key results

- `Number.read_format`: the text of a number is read as that number
- `Number.format_eq_iff`: two numbers have the same text only if both are zero
-/

namespace SearchScript

namespace Number

open Number.Notation

variable {n : Number} {cs : List Char}

/-! ## The characters of a text -/

/-- Digits and points, a digit first. -/
def IsPositional (cs : List Char) : Prop :=
  (∃ d ds, cs = d :: ds ∧ d.isDigit = true) ∧ ∀ c ∈ cs, c.isDigit = true ∨ c = '.'

/-- A digit, and then what may stand in the text of a finite number. -/
def IsDecimalText (cs : List Char) : Prop :=
  (∃ d ds, cs = d :: ds ∧ d.isDigit = true) ∧
    ∀ c ∈ cs, c.isDigit = true ∨ c ∈ ['.', 'e', '+', '-']

theorem IsPositional.isDecimalText (h : IsPositional cs) : IsDecimalText cs := by
  refine ⟨h.1, fun c hc => (h.2 c hc).imp_right ?_⟩
  rintro rfl
  exact List.mem_cons_self

theorem toDigits_eq_cons (m : Nat) :
    ∃ d ds, Nat.toDigits 10 m = d :: ds ∧ d.isDigit = true ∧ ∀ c ∈ ds, c.isDigit = true := by
  obtain ⟨d, ds, h⟩ := List.exists_cons_of_ne_nil (Nat.toDigits_ne_nil (n := m) (b := 10))
  have hdigits := fun c => isDigit_of_mem_toDigits (c := c) (n := m)
  rw [h] at hdigits
  exact ⟨d, ds, h, hdigits d List.mem_cons_self, fun c hc => hdigits c (List.mem_cons_of_mem _ hc)⟩

theorem isPositional_plain (m : Nat) (exponent : Int) :
    IsPositional (scriptNotation.plain (Nat.toDigits 10 m) exponent) := by
  have hdigits := fun c => isDigit_of_mem_toDigits (c := c) (n := m)
  have hzeros : ∀ k, ∀ c ∈ List.replicate k '0', c.isDigit = true := by
    intro k c hc
    rw [List.eq_of_mem_replicate hc]
    rfl
  obtain ⟨d, ds, h, hd, -⟩ := toDigits_eq_cons m
  simp only [plain, scriptNotation, Bool.false_eq_true, if_false, List.append_nil]
  split
  · refine ⟨⟨d, _, by rw [h, List.cons_append], hd⟩, fun c hc => .inl ?_⟩
    exact (List.mem_append.1 hc).elim (hdigits c) (hzeros _ c)
  · split
    · next hlt =>
      obtain ⟨k, hk⟩ := Nat.exists_eq_succ_of_ne_zero (Nat.sub_ne_zero_of_lt hlt)
      refine ⟨⟨d, _, by rw [hk, h, List.take_succ_cons, List.cons_append], hd⟩, fun c hc => ?_⟩
      rcases List.mem_append.1 hc with hc | hc
      · exact .inl (hdigits c (List.mem_of_mem_take hc))
      · rcases List.mem_cons.1 hc with rfl | hc
        · exact .inr rfl
        · exact .inl (hdigits c (List.mem_of_mem_drop hc))
    · refine ⟨⟨'0', _, rfl, rfl⟩, fun c hc => ?_⟩
      rcases List.mem_cons.1 hc with rfl | hc
      · exact .inl rfl
      rcases List.mem_cons.1 hc with rfl | hc
      · exact .inr rfl
      · exact .inl ((List.mem_append.1 hc).elim (hzeros _ c) (hdigits c))

theorem isDecimalText_scientific (m : Nat) (leading : Int) :
    IsDecimalText (scientific (Nat.toDigits 10 m) leading) := by
  obtain ⟨d, ds, h, hd, hds⟩ := toDigits_eq_cons m
  have hexponent : ∀ c ∈ exponentPart leading, c.isDigit = true ∨ c ∈ ['.', 'e', '+', '-'] := by
    intro c hc
    rcases List.mem_cons.1 hc with rfl | hc
    · exact .inr (by decide)
    rcases List.mem_cons.1 hc with rfl | hc
    · refine .inr ?_
      split <;> decide
    · exact .inl (isDigit_of_mem_toDigits hc)
  rw [h]
  cases ds with
  | nil => exact ⟨⟨d, _, rfl, hd⟩, List.forall_mem_cons.2 ⟨.inl hd, hexponent⟩⟩
  | cons d' ds =>
    refine ⟨⟨d, _, rfl, hd⟩, List.forall_mem_cons.2 ⟨.inl hd, ?_⟩⟩
    refine List.forall_mem_cons.2 ⟨.inr List.mem_cons_self, ?_⟩
    exact List.forall_mem_append.2 ⟨fun c hc => .inl (hds c hc), hexponent⟩

/-- The text of a decimal is read as that decimal. -/
theorem readDecimal?_decimal (d : Decimal) :
    IsDecimalText (scriptNotation.decimal d) ∧
      readDecimal? (scriptNotation.decimal d) = some (ofDecimal false d) := by
  unfold decimal
  simp only
  split
  · next hplain =>
    refine ⟨(isPositional_plain _ _).isDecimalText, readDecimal?_plain d ?_⟩
    simp only [scriptNotation] at hplain
    omega
  · refine ⟨isDecimalText_scientific _ _, ?_⟩
    rw [readDecimal?_scientific, Int.add_sub_cancel]

/-- What a finite number is written with, without its sign, is read as its size. -/
theorem readDecimal?_magnitude {units : Nat} (fits : Fits units) :
    IsDecimalText (scriptNotation.magnitude units) ∧
      readDecimal? (scriptNotation.magnitude units) = some (.finite false units fits) := by
  unfold magnitude
  split
  · next h0 =>
    subst h0
    exact readDecimal?_decimal ⟨0, 0⟩
  · next h0 =>
    rw [← Decimal.ofDecimal_shortest fits (Nat.pos_of_ne_zero h0)]
    exact readDecimal?_decimal _

/-! ## Reading a text -/

theorem isBlank_of_isDigit {c : Char} (h : c.isDigit = true) : Text.isBlank c = false := by
  simp only [Char.isDigit, Bool.and_eq_true, decide_eq_true_eq] at h
  have hlow : 48 ≤ c.toNat := h.1
  have hhigh : c.toNat ≤ 57 := h.2
  exact Text.isBlank_of_visible (by omega)

theorem isBlank_of_isDecimalText (h : IsDecimalText cs) : ∀ c ∈ cs, Text.isBlank c = false := by
  intro c hc
  rcases h.2 c hc with hdigit | hmark
  · exact isBlank_of_isDigit hdigit
  · simp only [List.mem_cons, List.not_mem_nil, or_false] at hmark
    rcases hmark with rfl | rfl | rfl | rfl <;> rfl

/-- A decimal text has no prefix of another base and is no word: it is read as a decimal. -/
theorem read_decimalText (h : IsDecimalText cs) :
    read (String.ofList cs) = (readDecimal? cs).getD .nan := by
  have hblank := isBlank_of_isDecimalText h
  obtain ⟨⟨d, ds, hcs, hd⟩, hall⟩ := h
  have hfirst : ∀ {c : Char} {w}, cs = c :: w → c.isDigit = true := by
    intro c w heq
    rw [hcs] at heq
    cases heq
    exact hd
  have hmark : ∀ {c m : Char} {w}, cs = c :: m :: w →
      m.isDigit = true ∨ m ∈ ['.', 'e', '+', '-'] := by
    rintro c m w rfl
    exact hall m (by simp)
  unfold read
  rw [String.toList_ofList, Text.trimBlanks_eq hblank]
  -- the marks of other bases are no characters of a decimal text, and no word starts with a digit
  split
  · cases hcs
  · exact absurd (hmark rfl) (by decide)
  · exact absurd (hmark rfl) (by decide)
  · exact absurd (hmark rfl) (by decide)
  · exact absurd (hmark rfl) (by decide)
  · exact absurd (hmark rfl) (by decide)
  · exact absurd (hmark rfl) (by decide)
  · rw [if_neg, if_neg]
    · intro heq
      cases hfirst heq
    · rintro (heq | heq) <;> cases hfirst heq

/-- A text that starts with a digit is read as a decimal behind a minus, and of the opposite
sign. -/
theorem read_minus_of_isDigit {c : Char} (hc : c.isDigit = true)
    (hblank : ∀ d ∈ c :: cs, Text.isBlank d = false) :
    read (String.ofList ('-' :: c :: cs)) = ((readDecimal? (c :: cs)).map neg).getD .nan := by
  have hinf : c :: cs ≠ "Infinity".toList := by
    rintro heq
    cases heq
    cases hc
  unfold read
  rw [String.toList_ofList, Text.trimBlanks_eq (List.forall_mem_cons.2 ⟨rfl, hblank⟩)]
  split
  all_goals try (next heq => cases heq)
  rw [if_neg (by simp), if_neg (by simpa using hinf), readDecimal?_minus hc]

/-- A decimal text behind a minus is read as a decimal of the opposite sign. -/
theorem read_minus_decimalText (h : IsDecimalText cs) :
    read (String.ofList ('-' :: cs)) = ((readDecimal? cs).map neg).getD .nan := by
  have hblank := isBlank_of_isDecimalText h
  obtain ⟨d, ds, rfl, hd⟩ := h.1
  exact read_minus_of_isDigit hd hblank

/-- The text of a number is read as that number, but for the sign of zero. -/
theorem read_format (n : Number) :
    read n.format = if n = signedZero true then signedZero false else n := by
  match n with
  | .nan => rfl
  | .infinite false => decide
  | .infinite true => decide
  | .finite false units fits =>
    obtain ⟨htext, hread⟩ := readDecimal?_magnitude fits
    rw [if_neg (by simp [signedZero])]
    simp only [format, Bool.false_and, Bool.false_eq_true, if_false]
    rw [read_decimalText htext, hread]
    rfl
  | .finite true units fits =>
    obtain ⟨htext, hread⟩ := readDecimal?_magnitude fits
    simp only [format]
    by_cases h0 : units = 0
    · subst h0
      rw [if_neg (by simp), read_decimalText htext, hread,
        if_pos (show finite true 0 fits = signedZero true from rfl)]
      rfl
    · -- only a number that is not zero is written with its sign
      rw [if_pos (by simp [h0]), read_minus_decimalText htext, hread, if_neg]
      · rfl
      · intro heq
        cases heq
        exact h0 rfl

theorem isZero_iff : n.isZero = true ↔ n = signedZero false ∨ n = signedZero true := by
  constructor
  · intro h
    match n with
    | .nan => cases h
    | .infinite _ => cases h
    | .finite negative units fits =>
      cases eq_of_beq h
      cases negative
      · exact .inl rfl
      · exact .inr rfl
  · rintro (rfl | rfl) <;> rfl

/-- Two numbers have the same text if they are the same, or both zero. -/
theorem format_eq_iff {a b : Number} :
    a.format = b.format ↔ a = b ∨ a.isZero = true ∧ b.isZero = true := by
  constructor
  · intro h
    have hread := congrArg read h
    rw [read_format, read_format] at hread
    simp only [isZero_iff]
    -- whichever of the two is negative zero is read as zero
    split at hread <;> split at hread
    · next ha hb => exact .inl (ha.trans hb.symm)
    · next ha _ => exact .inr ⟨.inr ha, .inl hread.symm⟩
    · next _ hb => exact .inr ⟨.inl hread, .inr hb⟩
    · exact .inl hread
  · have hzero : ∀ {n : Number}, n.isZero = true → n.format = "0" := by
      intro n h
      rcases isZero_iff.1 h with rfl | rfl <;> rfl
    rintro (rfl | ⟨ha, hb⟩)
    · rfl
    · rw [hzero ha, hzero hb]

end Number

end SearchScript
