import SearchScript.Text.Quoted
import SearchScript.Token.Scan

/-!
# Quoted text read back

A text in quotes is one string of the scanner and decodes to what was quoted. Both are proved one
character at a time: whatever a character is written as, the scanner steps over it and the decoder
makes the character of it again.

## Key results

- `Quoted.decode_encode`: quoting is undone by decoding
- `Quoted.stringLength?_encodeBody`: the scanner finds the closing quote of a quoted text
- `Quoted.newline_not_mem_encode`: no line ends inside a quoted text
-/

namespace SearchScript.Quoted

variable {c : Char} {cs rest : List Char}

theorem radixDigit?_hexDigit {n : Nat} (h : n < 16) : radixDigit? 16 (hexDigit n) = some n := by
  have hall : ∀ n, n < 16 → radixDigit? 16 (hexDigit n) = some n := by decide
  exact hall n h

/-- The escape of a control character by its code unit. -/
theorem decodeUnits_hexDigits (h : c.toNat < 0x20) :
    decodeUnits ('0' :: '0' :: hexDigit (c.toNat / 16) :: hexDigit (c.toNat % 16) :: rest) =
      .ok (c, 4) := by
  have h₁ := radixDigit?_hexDigit (show c.toNat / 16 < 16 by omega)
  have h₂ := radixDigit?_hexDigit (show c.toNat % 16 < 16 by omega)
  have hunit : hexUnit? ('0' :: '0' :: hexDigit (c.toNat / 16) :: hexDigit (c.toNat % 16) :: rest) =
      some c.toNat := by
    have h₀ : radixDigit? 16 '0' = some 0 := rfl
    simp only [hexUnit?, h₀, h₁, h₂, Option.some.injEq]
    omega
  have htrailing : isTrailing c.toNat = false := by simp [isTrailing]; omega
  have hleading : isLeading c.toNat = false := by simp [isLeading]; omega
  unfold decodeUnits
  simp only [hunit, htrailing, hleading, Bool.false_eq_true, if_false, Char.ofNat_toNat]

/-- What a character is written as decodes to the character. -/
theorem decodeFrom_encodeChar (bound taken : Nat) (c : Char) (rest : List Char) :
    ∃ taken', decodeFrom (bound + 1) taken (encodeChar c ++ rest) =
      match decodeFrom bound taken' rest with
      | .ok (ds, after) => .ok (c :: ds, after)
      | .error f => .error f := by
  -- one of the short escapes, an escape in hexadecimal digits, or the character itself
  unfold encodeChar
  split
  · next h => subst h; exact ⟨taken + 2, rfl⟩
  split
  · next h => subst h; exact ⟨taken + 2, rfl⟩
  split
  · next h => subst h; exact ⟨taken + 2, rfl⟩
  split
  · next h => subst h; exact ⟨taken + 2, rfl⟩
  split
  · next h => subst h; exact ⟨taken + 2, rfl⟩
  split
  · next h => subst h; exact ⟨taken + 2, rfl⟩
  split
  · next h => subst h; exact ⟨taken + 2, rfl⟩
  split
  · next h =>
    refine ⟨taken + 6, ?_⟩
    have hescape : decodeEscape ('u' :: '0' :: '0' :: hexDigit (c.toNat / 16) ::
        hexDigit (c.toNat % 16) :: rest) = .ok (c, 5) := by
      simp only [decodeEscape, decodeUnits_hexDigits h]
    simp only [List.cons_append, List.nil_append]
    rw [decodeFrom, if_neg (by decide), if_pos rfl, hescape]
    rfl
  · next hquote hslash _ _ _ _ _ hcontrol =>
    exact ⟨taken + c.utf8Size,
      (if_neg hquote).trans ((if_neg hslash).trans (if_neg hcontrol))⟩

theorem decodeFrom_encodeBody {bound taken : Nat} (h : cs.length < bound) :
    decodeFrom bound taken (encodeBody cs ++ '"' :: rest) = .ok (cs, rest) := by
  induction cs generalizing bound taken with
  | nil =>
    obtain ⟨bound, rfl⟩ := Nat.exists_eq_succ_of_ne_zero (Nat.ne_of_gt h)
    rfl
  | cons c cs ih =>
    obtain ⟨bound, rfl⟩ := Nat.exists_eq_succ_of_ne_zero (Nat.ne_of_gt (Nat.zero_lt_of_lt h))
    obtain ⟨taken', hc⟩ := decodeFrom_encodeChar bound taken c (encodeBody cs ++ '"' :: rest)
    have happend : encodeBody (c :: cs) ++ '"' :: rest =
        encodeChar c ++ (encodeBody cs ++ '"' :: rest) := by
      simp [encodeBody]
    rw [happend, hc, ih (Nat.lt_of_succ_lt_succ h)]

theorem one_le_length_encodeChar (c : Char) : 1 ≤ (encodeChar c).length := by
  unfold encodeChar
  repeat' split
  all_goals simp

theorem length_le_length_encodeBody (cs : List Char) : cs.length ≤ (encodeBody cs).length := by
  induction cs with
  | nil => exact Nat.le_refl _
  | cons c cs ih =>
    have := one_le_length_encodeChar c
    simp only [encodeBody, List.flatMap_cons, List.length_append, List.length_cons] at ih ⊢
    omega

/-- Quoting is undone by decoding. -/
theorem decode_encode (text : String) : decode (encode text) = .ok text := by
  have hlen := length_le_length_encodeBody text.toList
  have hbody : decodeFrom (encodeBody text.toList ++ ['"']).length 1
      (encodeBody text.toList ++ ['"']) = .ok (text.toList, []) :=
    decodeFrom_encodeBody (by simp; omega)
  unfold decode encode
  rw [String.toList_ofList]
  simp only [hbody, String.ofList_toList]

/-- The scanner steps over what a character is written as. -/
theorem stringLength?_encodeChar (c : Char) (rest : List Char) :
    Piece.stringLength? (encodeChar c ++ rest) =
      (Piece.stringLength? rest).map (· + (encodeChar c).length) := by
  have hplain : ∀ {c : Char} {cs : List Char}, c ≠ '"' → c ≠ '\\' →
      Piece.stringLength? (c :: cs) = (Piece.stringLength? cs).map (· + 1) := by
    intro c cs hquote hslash
    rw [Piece.stringLength?]
    · exact hquote
    · exact fun _ _ h => absurd h hslash
  -- the short escapes evaluate; what is left is a control character or a plain one
  unfold encodeChar
  split
  · rfl
  split
  · rfl
  split
  · rfl
  split
  · rfl
  split
  · rfl
  split
  · rfl
  split
  · rfl
  split
  · next h =>
    have hhex : ∀ n, n < 16 → hexDigit n ≠ '"' ∧ hexDigit n ≠ '\\' := by decide
    have h₁ := hhex (c.toNat / 16) (by omega)
    have h₂ := hhex (c.toNat % 16) (by omega)
    simp only [List.cons_append, List.nil_append, List.length_cons, List.length_nil]
    rw [Piece.stringLength?, hplain (by decide) (by decide), hplain (by decide) (by decide),
      hplain h₁.1 h₁.2, hplain h₂.1 h₂.2]
    simp only [Option.map_map]
    rfl
  · next hquote hslash _ _ _ _ _ _ => exact hplain hquote hslash

/-- The scanner finds the closing quote of a quoted text. -/
theorem stringLength?_encodeBody (cs rest : List Char) :
    Piece.stringLength? (encodeBody cs ++ '"' :: rest) = some ((encodeBody cs).length + 1) := by
  induction cs with
  | nil => rfl
  | cons c cs ih =>
    have happend : encodeBody (c :: cs) ++ '"' :: rest =
        encodeChar c ++ (encodeBody cs ++ '"' :: rest) := by
      simp [encodeBody]
    rw [happend, stringLength?_encodeChar, ih]
    simp only [Option.map_some, encodeBody, List.flatMap_cons, List.length_append]
    congr 1
    omega

/-- No line ends inside a quoted text. -/
theorem newline_not_mem_encode (text : String) : '\n' ∉ (encode text).toList := by
  have hchar : ∀ c, '\n' ∉ encodeChar c := by
    intro c
    unfold encodeChar
    split; · decide
    split; · decide
    split; · decide
    split; · decide
    split; · decide
    split; · decide
    split; · decide
    split
    · have hhex : ∀ n, n < 16 → hexDigit n ≠ '\n' := by decide
      have h₁ := hhex (c.toNat / 16) (by omega)
      have h₂ := hhex (c.toNat % 16) (by omega)
      simp [Ne.symm h₁, Ne.symm h₂]
    · simpa [eq_comm] using ‹c ≠ '\n'›
  simp [encode, encodeBody, hchar]

end SearchScript.Quoted
