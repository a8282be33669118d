import SearchScript.Proofs.Parse.Complete

/-!
# How far a cursor has come

Reading takes tokens away from the front, but the tokens that are left are not always the last of
those that were there: a negative number may have been cut in two on the way. So they are counted in
two ways. Once every negative number is cut, what is left is the end of what was there. And where a
minus directly in front of a number counts as a part of it, no number of tokens ever grows, and
there are never more than there are tokens in the list.

The two ways differ where a minus is taken and its number is not.

## Key definitions

- `Cursor.Reaches`: what is left at one place is left of what there was at the other
- `Cursor.Consumes`: at least one token is taken, once negative numbers are cut
- `Cursor.Advances`: at least one token is taken, however negative numbers are counted
-/

namespace SearchScript.Cursor

open Parse

/-! ## Two ways to count tokens -/

/-- The signs and the digits that a number consists of. -/
def numberParts (stop : Nat) : (start : Nat) → List Char → List Token
  | start, '-' :: digits =>
    ⟨.minus, ⟨start, start + 1⟩, "-"⟩ :: numberParts stop (start + 1) digits
  | start, digits => [⟨.number, ⟨start, stop⟩, String.ofList digits⟩]

/-- The tokens that a token may become. -/
def tokenParts (t : Token) : List Token :=
  match t.kind with
  | .number => numberParts t.span.stop t.span.start t.text.toList
  | _ => [t]

/-- The tokens left, once negative numbers are cut. -/
def parts (c : Cursor) : List Token := c.rest.flatMap tokenParts

/-- How many tokens there are, if a minus directly in front of a number is a part of it. -/
def countTokens : List Token → Nat
  | [] => 0
  | t :: rest =>
    (if t.kind = .minus ∧ rest.head?.map (·.kind) = some .number then 0 else 1) + countTokens rest

/-- How many tokens are left, if a minus directly in front of a number is a part of it. -/
def count (c : Cursor) : Nat := countTokens c.rest

variable {c d e : Cursor} {t : Token} {kind : TokenKind} {mode : ParseMode}

theorem length_numberParts (start stop : Nat) (cs : List Char) :
    (numberParts stop start cs).length = (cs.takeWhile (· == '-')).length + 1 := by
  fun_induction numberParts stop start cs with
  | case1 start digits ih => simp [ih]
  | case2 start digits hne =>
    cases digits with
    | nil => rfl
    | cons a digits =>
      have ha : a ≠ '-' := fun h => hne digits (by rw [h])
      simp [ha]

theorem length_tokenParts (t : Token) : (tokenParts t).length = tokenWeight t := by
  by_cases hk : t.kind = .number
  · simp only [tokenParts, tokenWeight, hk, length_numberParts]
  · simp only [tokenParts, tokenWeight, List.length_singleton]

theorem length_parts (c : Cursor) : c.parts.length = c.weight := by
  simp only [parts, weight, List.length_flatMap, length_tokenParts]

/-- The two parts of a negative number become what the number becomes. -/
theorem tokenParts_of_splitToken? {minus number : Token}
    (h : splitToken? t = some (minus, number)) :
    tokenParts t = tokenParts minus ++ tokenParts number ∧
      t.kind = .number ∧ minus.kind = .minus ∧ number.kind = .number := by
  unfold splitToken? at h
  split at h
  · next digits hk ht =>
    cases h
    exact ⟨by simp [tokenParts, hk, ht, numberParts], hk, rfl, rfl⟩
  · cases h

theorem count_le_length (c : Cursor) : c.count ≤ c.rest.length := by
  rw [count]
  induction c.rest with
  | nil => exact Nat.le_refl _
  | cons t rest ih =>
    rw [countTokens, List.length_cons]
    split <;> omega

theorem count_of_next? (h : c.next? = some (t, d)) :
    c.count = (if t.kind = .minus ∧ d.kind? = some .number then 0 else 1) + d.count := by
  obtain ⟨rest, hr, rfl⟩ := next?_eq_some_iff.1 h
  rw [count, hr]
  rfl

/-! ## Coming to a place -/

/-- Whether what is left at a place is left of what there was at another one. -/
structure Reaches (c d : Cursor) : Prop where
  suffix : d.parts <:+ c.parts
  count_le : d.count ≤ c.count

/-- Whether a token is taken between two places, once negative numbers are cut. -/
structure Consumes (c d : Cursor) : Prop extends Reaches c d where
  weight_lt : d.weight < c.weight

/-- Whether a token is taken between two places, however negative numbers are counted. -/
structure Advances (c d : Cursor) : Prop extends Consumes c d where
  count_lt : d.count < c.count

theorem Reaches.weight_le (h : c.Reaches d) : d.weight ≤ c.weight := by
  rw [← length_parts, ← length_parts]
  exact h.suffix.length_le

theorem reaches_of_rest (h : d.rest = c.rest) : c.Reaches d := by
  have hparts : d.parts = c.parts := by rw [parts, parts, h]
  have hcount : d.count = c.count := by rw [count, count, h]
  exact ⟨hparts ▸ List.suffix_refl _, Nat.le_of_eq hcount⟩

theorem Reaches.refl (c : Cursor) : c.Reaches c := reaches_of_rest rfl

theorem Reaches.trans (h : c.Reaches d) (h' : d.Reaches e) : c.Reaches e where
  suffix := h'.suffix.trans h.suffix
  count_le := Nat.le_trans h'.count_le h.count_le

theorem Consumes.trans (h : c.Consumes d) (h' : d.Reaches e) : c.Consumes e where
  toReaches := h.toReaches.trans h'
  weight_lt := Nat.lt_of_le_of_lt h'.weight_le h.weight_lt

theorem Advances.trans (h : c.Advances d) (h' : d.Reaches e) : c.Advances e where
  toConsumes := h.toConsumes.trans h'
  count_lt := Nat.lt_of_le_of_lt h'.count_le h.count_lt

theorem Reaches.trans_advances (h : c.Reaches d) (h' : d.Advances e) : c.Advances e where
  toReaches := h.trans h'.toReaches
  weight_lt := Nat.lt_of_lt_of_le h'.weight_lt h.weight_le
  count_lt := Nat.lt_of_lt_of_le h'.count_lt h.count_le

theorem reaches_splitNegative (c : Cursor) : c.Reaches c.splitNegative := by
  unfold splitNegative
  split
  · next t rest hr =>
    split
    · next minus number hs =>
      obtain ⟨hparts, ht, hminus, hnumber⟩ := tokenParts_of_splitToken? hs
      constructor
      · simp [parts, hr, hparts]
      · simp [count, hr, countTokens, ht, hminus, hnumber]
    · exact .refl c
  · exact .refl c

theorem consumes_of_next? (h : c.next? = some (t, d)) : c.Consumes d where
  suffix := by
    obtain ⟨rest, hr, rfl⟩ := next?_eq_some_iff.1 h
    rw [parts, parts, hr, List.flatMap_cons]
    exact List.suffix_append _ _
  count_le := by
    rw [count_of_next? h]
    exact Nat.le_add_left _ _
  weight_lt := weight_lt_of_next? h

/-- Only behind a minus is it left open whether a token has been taken. -/
theorem advances_of_next? (h : c.next? = some (t, d))
    (ht : t.kind = .minus → d.kind? ≠ some .number) : c.Advances d where
  toConsumes := consumes_of_next? h
  count_lt := by
    rw [count_of_next? h, if_neg fun hk => ht hk.1 hk.2]
    omega

theorem advances_of_accept? (h : c.accept? kind = some (t, d)) (hk : kind ≠ .minus) :
    c.Advances d := by
  obtain ⟨hn, rfl⟩ := accept?_eq_some_iff.1 h
  exact advances_of_next? hn fun h => absurd h hk

/-- A required token is taken or taken as read. -/
theorem of_expect {t? : Option Token} (h : c.expect mode kind = .ok (t?, d)) (hk : kind ≠ .minus) :
    c.Reaches d ∧ (t?.isSome = true → c.Advances d) := by
  rcases expect_eq_ok_iff.1 h with ⟨t, rfl, hn, rfl⟩ | ⟨rfl, -, -, rfl⟩
  · have hadv := advances_of_next? hn fun h => absurd h hk
    exact ⟨hadv.toReaches, fun _ => hadv⟩
  · exact ⟨reaches_of_rest rfl, nofun⟩

theorem of_require (h : c.require mode kind = .ok d) (hk : kind ≠ .minus) :
    c.Reaches d ∧ (c.kind? = some kind → c.Advances d) := by
  rcases require_eq_ok_iff.1 h with ⟨t, hn, rfl⟩ | ⟨hne, -, rfl⟩
  · have hadv := advances_of_next? hn fun h => absurd h hk
    exact ⟨hadv.toReaches, fun _ => hadv⟩
  · exact ⟨reaches_of_rest rfl, fun h => absurd h hne⟩

end SearchScript.Cursor
