import SearchScript.Proofs.Number.Format
import SearchScript.Syntax.Printer
import SearchScript.Token.Scan

/-!
# Number literals

A literal is a digit and characters that continue a number, behind a minus if the number is
negative. The exception are finite numbers whose exponent is written: the sign of the exponent is
where the scanner ends the literal.

## Key results

- `Number.literal_eq`: what literals look like
- `Number.read_literal`: a literal is read as its number
- `Number.read_minus`: what becomes of a literal when a minus is written in front of it
-/

namespace SearchScript

namespace Number

open Number.Notation

/-- Whether a number, as a literal, is scanned as one token. -/
def isScannable (n : Number) : Bool := n.literal.toList.tail.all Piece.continuesNumber

/-- A digit and what continues a number. -/
def IsDigits (cs : List Char) : Prop :=
  ∃ d ds, cs = d :: ds ∧ d.isDigit = true ∧ ds.all Piece.continuesNumber = true

variable {n : Number} {cs : List Char}

theorem continuesNumber_of_isDigit {c : Char} (h : c.isDigit = true) :
    Piece.continuesNumber c = true := by
  simp [Piece.continuesNumber, h]

theorem IsPositional.isDigits (h : IsPositional cs) : IsDigits cs := by
  obtain ⟨⟨d, ds, rfl, hd⟩, h⟩ := h
  refine ⟨d, ds, rfl, hd, List.all_eq_true.2 fun c hc => ?_⟩
  rcases h c (List.mem_cons_of_mem d hc) with hc | rfl
  · exact continuesNumber_of_isDigit hc
  · rfl

/-- A digit and what continues a number, and then the sign of an exponent and its digits. -/
def IsScientific (cs : List Char) : Prop :=
  ∃ mantissa sign digits, cs = mantissa ++ sign :: digits ∧ IsDigits mantissa ∧
    (sign = '+' ∨ sign = '-') ∧ IsDigits digits

theorem isScientific_scientific (m : Nat) (leading : Int) :
    IsScientific (scientific (Nat.toDigits 10 m) leading) := by
  obtain ⟨d, ds, h, hd, hds⟩ := toDigits_eq_cons m
  obtain ⟨x, xs, hx, hxd, hxs⟩ := toDigits_eq_cons leading.natAbs
  have hall : ∀ {cs : List Char}, (∀ c ∈ cs, c.isDigit = true) →
      cs.all Piece.continuesNumber = true := fun h =>
    List.all_eq_true.2 fun c hc => continuesNumber_of_isDigit (h c hc)
  have hexp : IsDigits (Nat.toDigits 10 leading.natAbs) := ⟨x, xs, hx, hxd, hall hxs⟩
  have hsign : (if leading < 0 then '-' else '+') = '+' ∨
      (if leading < 0 then '-' else '+') = '-' := by
    split
    · exact .inr rfl
    · exact .inl rfl
  rw [h]
  cases ds with
  | nil => exact ⟨[d, 'e'], _, _, rfl, ⟨d, ['e'], rfl, hd, rfl⟩, hsign, hexp⟩
  | cons d' ds =>
    refine ⟨d :: '.' :: d' :: ds ++ ['e'], _, _, ?_, ⟨d, '.' :: d' :: ds ++ ['e'], rfl, hd, ?_⟩,
      hsign, hexp⟩
    · simp [scientific, exponentPart]
    · have := hall hds
      simp_all [Piece.continuesNumber]

/-- The digits of a number without its sign. -/
theorem magnitude_cases (units : Nat) :
    IsPositional (scriptNotation.magnitude units) ∨
      IsScientific (scriptNotation.magnitude units) := by
  have hdecimal : ∀ d : Decimal, IsPositional (scriptNotation.decimal d) ∨
      IsScientific (scriptNotation.decimal d) := by
    intro d
    unfold decimal
    simp only
    split
    · exact .inl (isPositional_plain _ _)
    · exact .inr (isScientific_scientific _ _)
  unfold magnitude
  split
  · exact hdecimal _
  · exact hdecimal _

theorem not_all_of_isScientific (h : IsScientific cs) :
    cs.tail.all Piece.continuesNumber = false := by
  obtain ⟨mantissa, sign, digits, rfl, ⟨d, ds, rfl, -, -⟩, hsign, -⟩ := h
  rcases hsign with rfl | rfl <;> simp [Piece.continuesNumber]

/-- What follows the sign of a literal: digits, or digits that end in a signed exponent. -/
theorem literal_eq (n : Number) :
    ∃ body, n.literal.toList = (if n.isNegative && !n.isZero then '-' :: body else body) ∧
      ((IsDigits body ∧ n.isScannable = true) ∨ (IsScientific body ∧ n.isScannable = false)) := by
  have hdigits : ∀ {body : List Char}, IsDigits body → body.all Piece.continuesNumber = true ∧
      body.tail.all Piece.continuesNumber = true := by
    rintro body ⟨d, ds, rfl, hd, hds⟩
    simp [hds, continuesNumber_of_isDigit hd]
  have hscientific : ∀ {body : List Char}, IsScientific body →
      body.all Piece.continuesNumber = false ∧
        body.tail.all Piece.continuesNumber = false := by
    intro body h
    have htail := not_all_of_isScientific h
    refine ⟨?_, htail⟩
    cases body with
    | nil => exact htail
    | cons c cs => simp_all
  -- what is not finite has a spelling of its own; the digits of the others are read from the
  -- magnitude
  match n with
  | .nan => exact ⟨"0x".toList, rfl, .inl ⟨⟨'0', ['x'], rfl, rfl, rfl⟩, rfl⟩⟩
  | .infinite false =>
    exact ⟨"1e999".toList, rfl, .inl ⟨⟨'1', "e999".toList, rfl, rfl, rfl⟩, rfl⟩⟩
  | .infinite true =>
    exact ⟨"1e999".toList, rfl, .inl ⟨⟨'1', "e999".toList, rfl, rfl, rfl⟩, rfl⟩⟩
  | .finite negative units fits =>
    refine ⟨scriptNotation.magnitude units, ?_, ?_⟩
    · simp [literal, format, isNegative, isZero, bne]
    · unfold isScannable
      simp only [literal, format, String.toList_ofList]
      rcases magnitude_cases units with hp | hs
      · have := hdigits hp.isDigits
        refine .inl ⟨hp.isDigits, ?_⟩
        split <;> simp [this]
      · have := hscientific hs
        refine .inr ⟨hs, ?_⟩
        split <;> simp_all

/-! ## Reading literals -/

/-- A literal is read as its number, but for the sign of zero. -/
theorem read_literal (n : Number) :
    read n.literal = if n = signedZero true then signedZero false else n := by
  cases n with
  | nan => rfl
  | infinite negative => cases negative <;> decide
  | finite negative units fits => exact read_format _

/-! ## Literals behind a minus -/

/-- Whether a text starts with the mark of another base than ten. -/
def startsWithMark : List Char → Bool
  | '0' :: mark :: _ => mark ∈ ['x', 'X', 'o', 'O', 'b', 'B']
  | _ => false

theorem isBlank_of_continuesNumber {c : Char} (h : Piece.continuesNumber c = true) :
    Text.isBlank c = false := by
  refine Text.isBlank_of_visible ?_
  simp only [Piece.continuesNumber, Char.isDigit, Bool.or_eq_true, Bool.and_eq_true,
    decide_eq_true_eq, beq_iff_eq] at h
  rcases h with ((((⟨h₁, h₂⟩ | ⟨h₁, h₂⟩) | ⟨h₁, h₂⟩) | rfl) | rfl) | rfl
  · have h₁ : 48 ≤ c.toNat := h₁
    have h₂ : c.toNat ≤ 57 := h₂
    omega
  · have h₁ : 97 ≤ c.toNat := h₁
    have h₂ : c.toNat ≤ 102 := h₂
    omega
  · have h₁ : 65 ≤ c.toNat := h₁
    have h₂ : c.toNat ≤ 70 := h₂
    omega
  all_goals decide

theorem IsDigits.isBlank (h : IsDigits cs) : ∀ c ∈ cs, Text.isBlank c = false := by
  obtain ⟨d, ds, rfl, hd, hds⟩ := h
  exact List.forall_mem_cons.2 ⟨isBlank_of_continuesNumber (continuesNumber_of_isDigit hd),
    fun c hc => isBlank_of_continuesNumber (List.all_eq_true.1 hds c hc)⟩

/-- A text with the mark of another base is no decimal text. -/
theorem readDecimal?_of_startsWithMark (h : startsWithMark cs = true) : readDecimal? cs = none := by
  unfold startsWithMark at h
  split at h
  · next mark rest =>
    simp only [List.mem_cons, List.not_mem_nil, or_false, decide_eq_true_eq] at h
    rcases h with rfl | rfl | rfl | rfl | rfl | rfl <;>
      simp [readDecimal?, readSign, spanDigits, digitValue?, readExponent?]
  · cases h

/-- Digits without such a mark are read as a decimal text. -/
theorem read_of_isDigits (h : IsDigits cs) (hmark : startsWithMark cs = false) :
    read (String.ofList cs) = (readDecimal? cs).getD .nan := by
  rw [read, String.toList_ofList, Text.trimBlanks_eq h.isBlank]
  obtain ⟨d, ds, rfl, hd, -⟩ := h
  have hword : ∀ {word : List Char}, word.head?.any Char.isDigit = false → d :: ds ≠ word := by
    rintro _ hne rfl
    simp [hd] at hne
  split
  · next heq => cases heq
  all_goals try (next heq => rw [heq] at hmark; cases hmark)
  rw [if_neg (not_or.2 ⟨hword rfl, hword rfl⟩), if_neg (hword rfl)]

/-- Digits behind a minus are read as the opposite number, unless they are digits of another base:
those have no sign. -/
theorem read_minus (h : IsDigits cs) :
    read (String.ofList ('-' :: cs)) =
      if startsWithMark cs then .nan else (read (String.ofList cs)).neg := by
  have hsigned : read (String.ofList ('-' :: cs)) = ((readDecimal? cs).map neg).getD .nan := by
    have hblank := h.isBlank
    obtain ⟨d, ds, rfl, hd, -⟩ := h
    exact read_minus_of_isDigit hd hblank
  rw [hsigned]
  split
  · next hmark => rw [readDecimal?_of_startsWithMark hmark]; rfl
  · next hmark =>
    rw [read_of_isDigits h (by simpa using hmark)]
    cases readDecimal? cs <;> rfl

end Number

end SearchScript
