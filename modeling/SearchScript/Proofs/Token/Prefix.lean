import SearchScript.Proofs.Token.Pieces

/-!
# Prefixes of a text

A text that is typed from left to right has the tokens of the whole text as far as it goes, when it
ends behind one of them: what a piece is classified as depends on the characters of the piece only.

## Key results

- `Piece.classify_take`: the class of a piece does not change when the text is cut behind it
- `Token.scan_of_prefix`: the prefix that ends with the `k`-th token has the first `k` tokens
-/

namespace SearchScript

namespace Piece

variable {c : Char} {cs : List Char} {m n : Nat}

/-! ## Classes of cut texts -/

theorem takeWhile_take {p : Char → Bool} (h : (cs.takeWhile p).length ≤ m) :
    (cs.take m).takeWhile p = cs.takeWhile p := by
  rw [← List.take_takeWhile, List.take_of_length_le h]

theorem stringLength?_take (h : stringLength? cs = some n) (hn : n ≤ m) :
    stringLength? (cs.take m) = some n := by
  fun_induction stringLength? cs generalizing m n with
  | case1 => cases h
  | case2 cs =>
    cases m with
    | zero => cases h; omega
    | succ m => exact h
  | case3 c cs ih =>
    obtain ⟨n, hs, rfl⟩ := Option.map_eq_some_iff.1 h
    match m with
    | 0 | 1 => omega
    | m + 2 => simp [stringLength?, ih hs (Nat.le_of_add_le_add_right hn)]
  | case4 c cs hq hb ih =>
    obtain ⟨n, hs, rfl⟩ := Option.map_eq_some_iff.1 h
    match m, cs with
    | 0, _ => omega
    | _, [] => cases hs
    | m + 1, c' :: cs =>
      have ih := ih hs (Nat.le_of_succ_le_succ hn)
      cases m with
      | zero => simp [stringLength?] at ih
      | succ m =>
        have hb : c ≠ '\\' := fun hc => hb c' cs hc rfl
        rw [List.take_succ_cons, stringLength?, ih]
        · rfl
        · exact hq
        · exact fun _ _ hc => absurd hc hb

theorem commentLength?_take (h : commentLength? cs = some n) (hn : n ≤ m) :
    commentLength? (cs.take m) = some n := by
  fun_induction commentLength? cs generalizing m n with
  | case1 => cases h
  | case2 cs =>
    cases h
    match m with
    | 0 | 1 => omega
    | m + 2 => rfl
  | case3 c cs hb ih =>
    obtain ⟨n, hs, rfl⟩ := Option.map_eq_some_iff.1 h
    match m, cs with
    | 0, _ => omega
    | _, [] => cases hs
    | m + 1, c' :: cs =>
      have ih := ih hs (Nat.le_of_succ_le_succ hn)
      cases m with
      | zero => simp [commentLength?] at ih
      | succ m =>
        rw [List.take_succ_cons, commentLength?, ih]
        · rfl
        · intro cs' hc hcs
          rw [List.take_succ_cons, List.cons.injEq] at hcs
          exact hb cs hc (by rw [hcs.1])

theorem operator?_take (h : ∀ kind, operator? cs = some kind → kind.describe.length ≤ m) :
    operator? (cs.take m) = operator? cs := by
  unfold operator? at *
  generalize TokenKind.operators = kinds at *
  induction kinds with
  | nil => rfl
  | cons kind kinds ih =>
    rw [List.find?_cons] at h ⊢
    rw [List.find?_cons]
    by_cases hk : kind.describe.toList.isPrefixOf cs = true
    · have hlen := h kind (by rw [hk])
      have hk' : kind.describe.toList.isPrefixOf (cs.take m) = true := by
        rw [List.isPrefixOf_iff_prefix] at hk ⊢
        exact List.prefix_take_iff.2 ⟨hk, String.length_toList ▸ hlen⟩
      rw [hk, hk']
    · have hk' : kind.describe.toList.isPrefixOf (cs.take m) = false := by
        rw [Bool.eq_false_iff]
        intro hp
        rw [List.isPrefixOf_iff_prefix] at hp
        exact hk (List.isPrefixOf_iff_prefix.2 (hp.trans (List.take_prefix _ _)))
      rw [Bool.not_eq_true] at hk
      rw [hk] at h ⊢
      rw [hk']
      exact ih h

theorem isPrefixOf_take {a b : Char} (h : [a, b].isPrefixOf (c :: cs) = true → 1 ≤ m) :
    [a, b].isPrefixOf (c :: cs.take m) = [a, b].isPrefixOf (c :: cs) := by
  cases cs with
  | nil => simp
  | cons c' cs =>
    cases m with
    | zero => grind [List.isPrefixOf]
    | succ m => rfl

theorem startsNumber_take
    (h : startsNumber (c :: cs) = true → (cs.takeWhile continuesNumber).length ≤ m) :
    startsNumber (c :: cs.take m) = startsNumber (c :: cs) := by
  cases cs with
  | nil => simp
  | cons c' cs =>
    cases m with
    | zero =>
      simp only [startsNumber, List.take_zero, List.takeWhile_cons] at h ⊢
      grind [continuesNumber]
    | succ m => rfl

/-- The class of a piece does not change when the text is cut behind it. -/
theorem classify_take (h : (classify c cs).2 ≤ m) : classify c (cs.take m) = classify c cs := by
  by_cases hm : cs.length ≤ m
  · rw [List.take_of_length_le hm]
  -- a comment keeps both characters of its mark
  have hline : ['/', '/'].isPrefixOf (c :: cs) = true → 1 ≤ m := by
    intro hp
    match cs with
    | [] => simp at hp
    | c' :: cs =>
      obtain ⟨rfl, rfl⟩ : '/' = c ∧ '/' = c' := by simpa using hp
      simp [classify, isBlank] at h
      omega
  have hblock : ['/', '*'].isPrefixOf (c :: cs) = true → 1 ≤ m := by
    intro hp
    match cs with
    | [] => simp at hp
    | c' :: cs =>
      obtain ⟨rfl, rfl⟩ : '/' = c ∧ '*' = c' := by simpa using hp
      simp [classify, isBlank] at h
      split at h <;> simp at h <;> omega
  -- then the rules in their order, each with its own lemma on what it takes
  unfold classify at h ⊢
  rw [isPrefixOf_take hline, isPrefixOf_take hblock]
  split at h
  · next hb => rw [if_pos hb, if_pos hb, takeWhile_take h]
  next hb =>
  rw [if_neg hb, if_neg hb]
  split at h
  · next hl => rw [if_pos hl, if_pos hl, takeWhile_take h]
  next hl =>
  rw [if_neg hl, if_neg hl]
  split at h
  · next hc =>
    rw [if_pos hc, if_pos hc]
    split at h
    · next n hn =>
      have hdrop : (cs.take m).drop 1 = (cs.drop 1).take (m - 1) := by rw [List.drop_take]
      rw [hdrop, commentLength?_take hn (by simp at h; omega)]
    · exact absurd h hm
  next hc =>
  rw [if_neg hc, if_neg hc]
  split at h
  · next hw => rw [if_pos hw, if_pos hw, takeWhile_take h]
  next hw =>
  rw [if_neg hw, if_neg hw]
  split at h
  · next hs => rw [startsNumber_take fun _ => h, if_pos hs, if_pos hs, takeWhile_take h]
  next hs =>
  rw [startsNumber_take fun h => absurd h hs, if_neg hs, if_neg hs]
  split at h
  · next hq =>
    rw [if_pos hq, if_pos hq]
    split at h
    · next n hn => rw [stringLength?_take hn h]
    · exact absurd h hm
  next hq =>
  rw [if_neg hq, if_neg hq]
  have htake : c :: cs.take m = (c :: cs).take (m + 1) := rfl
  rw [htake, operator?_take]
  intro kind hk
  rw [hk] at h
  simp only at h
  omega

/-- The pieces of a text that is cut behind its first piece or later. -/
theorem pieces_cons_append {head tail : List Char} (h : cs.drop (classify c cs).2 = head ++ tail) :
    pieces (c :: (cs.take (classify c cs).2 ++ head)) =
      ⟨(classify c cs).1, c :: cs.take (classify c cs).2⟩ :: pieces head := by
  have htake : cs.take (classify c cs).2 ++ head =
      cs.take ((classify c cs).2 + head.length) := by
    rw [List.take_add, h, List.take_left]
  rw [htake, pieces_cons, classify_take (Nat.le_add_right _ _), List.take_take,
    Nat.min_eq_left (Nat.le_add_right _ _), List.drop_take, h, Nat.add_sub_cancel_left,
    List.take_left]

theorem stop_of_report? {offset : Nat} {piece : Piece} {t : Token}
    (h : report? offset piece = some (.ok t)) : t.span.stop = offset + utf8Length piece.text := by
  unfold report? at h
  split at h <;> cases h
  rfl

/-- The prefix of a text that ends behind a token has the tokens up to that one. -/
theorem exists_prefix {tokens : List Token} {offset k : Nat}
    (h : reports offset (pieces cs) = tokens.map .ok) (hk : k ≤ tokens.length) :
    ∃ head tail, cs = head ++ tail ∧ reports offset (pieces head) = (tokens.take k).map .ok ∧
      (k = 0 → head = []) ∧
      ∀ t, (tokens.take k).getLast? = some t → t.span.stop = offset + utf8Length head := by
  induction cs using pieces_induction generalizing offset tokens k with
  | nil =>
    cases tokens with
    | nil => exact ⟨[], [], rfl, by simpa using h, fun _ => rfl, by simp⟩
    | cons t tokens => cases h
  | cons c cs ih =>
    cases k with
    | zero => exact ⟨[], c :: cs, rfl, by simp [reports], fun _ => rfl, by simp⟩
    | succ k =>
      rw [pieces_cons, reports] at h
      have hcut : ∀ {head tail}, cs.drop (classify c cs).2 = head ++ tail →
          c :: cs = c :: (cs.take (classify c cs).2 ++ head) ++ tail := by
        intro head tail hd
        rw [List.cons_append, List.append_assoc, ← hd, List.take_append_drop]
      -- a piece that reports a token counts as one of the `k`; trivia do not
      split at h
      · next r hr =>
        cases tokens with
        | nil => cases h
        | cons t tokens =>
          obtain ⟨rfl, hrest⟩ := List.cons_eq_cons.1 h
          obtain ⟨head, tail, hd, hreports, hnil, hlast⟩ :=
            ih hrest (Nat.le_of_succ_le_succ hk)
          refine ⟨_, tail, hcut hd, ?_, by simp, ?_⟩
          · simp only [pieces_cons_append hd, reports, hr, hreports, List.take_succ_cons,
              List.map_cons]
          · intro t' ht'
            rw [List.take_succ_cons, List.getLast?_cons] at ht'
            cases hl : (tokens.take k).getLast? with
            | none =>
              -- no token is left, so this was the last and the prefix ends with it
              have hk0 : k = 0 := by
                have hnone := congrArg List.length (List.getLast?_eq_none_iff.1 hl)
                simp only [List.length_take, List.length_cons, List.length_nil] at hnone hk
                omega
              rw [hl] at ht'
              cases ht'
              simp [stop_of_report? hr, hnil hk0]
            | some last =>
              rw [hl] at ht'
              cases ht'
              simp [hlast _ hl, Nat.add_assoc]
      · next hr =>
        obtain ⟨head, tail, hd, hreports, hnil, hlast⟩ := ih h hk
        refine ⟨_, tail, hcut hd, ?_, by simp, ?_⟩
        · simp only [pieces_cons_append hd, reports, hr, hreports]
        · intro t ht
          rw [hlast t ht]
          simp [Nat.add_assoc]

end Piece

namespace Token

variable {source head tail : String} {tokens : List Token}

/-- Two prefixes of a text that take as many bytes are the same. -/
theorem prefix_unique {a b c d : List Char} (h : a ++ b = c ++ d)
    (hlen : utf8Length a = utf8Length c) : a = c := by
  have hnil : ∀ cs : List Char, utf8Length cs = 0 → cs = [] := by
    intro cs h0
    cases cs with
    | nil => rfl
    | cons c cs =>
      have := Char.utf8Size_pos c
      rw [utf8Length_cons] at h0
      omega
  rcases List.append_eq_append_iff.1 h with ⟨x, rfl, -⟩ | ⟨x, rfl, -⟩
  · rw [utf8Length_append] at hlen
    rw [hnil x (by omega), List.append_nil]
  · rw [utf8Length_append] at hlen
    rw [hnil x (by omega), List.append_nil]

/-- The prefix of a text that ends behind its `k`-th token has the first `k` tokens. -/
theorem scan_of_prefix {k : Nat} (h : scan source = .ok tokens) (hs : source = head ++ tail)
    (hk : head.utf8ByteSize = ((tokens.take k).getLast?.map (·.span.stop)).getD 0) :
    scan head = .ok (tokens.take k) := by
  have htake : tokens.take (min k tokens.length) = tokens.take k := by
    rw [← List.take_take, List.take_length]
  obtain ⟨cs, rest, hcs, hreports, hnil, hlast⟩ :=
    Piece.exists_prefix (scan_eq_ok_iff.1 h) (Nat.min_le_right k tokens.length)
  rw [htake] at hreports hlast
  have hhead : head.toList = cs := by
    refine prefix_unique (b := tail.toList) (d := rest) ?_ ?_
    · rw [← hcs, hs, String.toList_append]
    · rw [utf8Length_toList, hk]
      cases hl : (tokens.take k).getLast? with
      | none =>
        have h0 := List.getLast?_eq_none_iff.1 hl
        have hk0 : min k tokens.length = 0 := by
          have := congrArg List.length h0
          simp only [List.length_take, List.length_nil] at this
          exact this
        rw [hnil hk0]
        rfl
      | some t => simpa using hlast t hl
  rw [scan_eq_ok_iff, hhead, hreports]

end Token

end SearchScript
