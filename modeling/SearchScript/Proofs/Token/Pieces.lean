import SearchScript.Proofs.Except
import SearchScript.Token.Scan

/-!
# The pieces of a text

The pieces of a text are the piece that its front is classified as and the pieces of what remains.
Everything else about scanning is proved from this equation and from what `classify` looks at.

## Key results

- `pieces_cons`: the pieces of a text, one after the other
- `classify_eq_token_iff`: what a token starts with and how far it goes
- `scan_eq_ok_iff`: the tokens of a text are what its pieces report
-/

namespace SearchScript

namespace Piece

variable {c : Char} {cs : List Char} {kind : TokenKind} {n : Nat}

/-! ## Cutting -/

/-- The bound does not matter as long as it is large enough. -/
theorem cut_of_le {bound : Nat} (h : cs.length ≤ bound) : cut bound cs = pieces cs := by
  suffices h : ∀ a b (cs : List Char), cs.length ≤ a → cs.length ≤ b → cut a cs = cut b cs from
    h _ _ _ ‹_› (Nat.le_refl _)
  intro a
  induction a with
  | zero =>
    intro b cs ha hb
    rw [List.eq_nil_of_length_eq_zero (Nat.le_zero.1 ha)]
    cases b <;> rfl
  | succ a ih =>
    intro b cs ha hb
    match cs, b with
    | [], 0 | [], b + 1 => rfl
    | c :: cs, b + 1 =>
      simp only [List.length_cons] at ha hb
      have hd : (cs.drop (classify c cs).2).length ≤ cs.length := by
        rw [List.length_drop]; omega
      simp only [cut]
      rw [ih b _ (by omega) (by omega)]

@[simp] theorem pieces_nil : pieces [] = [] := rfl

/-- The piece that a text starts with, and the pieces of what remains. -/
theorem pieces_cons (c : Char) (cs : List Char) :
    pieces (c :: cs) =
      ⟨(classify c cs).1, c :: cs.take (classify c cs).2⟩ ::
        pieces (cs.drop (classify c cs).2) := by
  have hd : (cs.drop (classify c cs).2).length ≤ cs.length := by
    rw [List.length_drop]; omega
  rw [← cut_of_le hd]
  rfl

/-- Induction on a text from piece to piece. -/
theorem pieces_induction {motive : List Char → Prop} (nil : motive [])
    (cons : ∀ c cs, motive (cs.drop (classify c cs).2) → motive (c :: cs)) (cs : List Char) :
    motive cs := by
  induction hn : cs.length using Nat.strongRecOn generalizing cs with
  | ind n ih =>
    cases cs with
    | nil => exact nil
    | cons c cs =>
      refine cons c cs (ih _ ?_ _ rfl)
      simp only [List.length_drop, List.length_cons] at hn ⊢
      omega

/-! ## Classes of tokens -/

/-- What an operator is spelt like. -/
theorem operator?_eq_some (h : operator? cs = some kind) :
    kind ∈ TokenKind.operators ∧ kind.describe.toList <+: cs := by
  have hp := List.find?_some (p := fun k : TokenKind => k.describe.toList.isPrefixOf cs) h
  exact ⟨List.mem_of_find?_eq_some h, List.isPrefixOf_iff_prefix.1 hp⟩

/-- What a token starts with and how far it goes. -/
theorem classify_eq_token (h : classify c cs = (.token kind, n)) :
    (startsWord c = true ∧ n = (cs.takeWhile continuesWord).length ∧
      kind = TokenKind.ofWord (String.ofList (c :: cs.takeWhile continuesWord))) ∨
    (startsNumber (c :: cs) = true ∧ n = (cs.takeWhile continuesNumber).length ∧
      kind = .number) ∨
    (c = '"' ∧ stringLength? cs = some n ∧ kind = .string) ∨
    (operator? (c :: cs) = some kind ∧ n = kind.describe.length - 1) := by
  unfold classify at h
  split at h; · cases h
  split at h; · cases h
  split at h
  · split at h <;> cases h
  split at h
  · next hw =>
    cases h
    exact .inl ⟨hw, rfl, rfl⟩
  split at h
  · next hs =>
    cases h
    exact .inr (.inl ⟨hs, rfl, rfl⟩)
  split at h
  · next hq =>
    split at h <;> cases h
    next hs => exact .inr (.inr (.inl ⟨by simpa using hq, hs, rfl⟩))
  · split at h <;> cases h
    next ho => exact .inr (.inr (.inr ⟨ho, rfl⟩))

/-- A token that is reported is a piece of the text. -/
theorem of_mem_reports {t : Token} {offset : Nat} (h : .ok t ∈ reports offset (pieces cs)) :
    ∃ c rest n, classify c rest = (.token t.kind, n) ∧ t.text.toList = c :: rest.take n ∧
      t.span.start < t.span.stop := by
  induction cs using pieces_induction generalizing offset with
  | nil => cases h
  | cons c cs ih =>
    rw [pieces_cons] at h
    simp only [reports] at h
    split at h
    · next r hr =>
      rcases List.mem_cons.1 h with rfl | h
      · unfold report? at hr
        split at hr <;> cases hr
        next kind hk =>
        refine ⟨c, cs, (classify c cs).2, Prod.ext hk rfl, by simp, ?_⟩
        have := Char.utf8Size_pos c
        simp only [utf8Length_cons]
        omega
      · exact ih h
    · exact ih h

end Piece

namespace Token

variable {source : String} {tokens : List Token}

/-- Reports are collected if none of them is an error. -/
theorem collect_eq_ok_iff {reports : List (Except ScanError Token)} :
    collect reports = .ok tokens ↔ reports = tokens.map .ok := by
  induction reports generalizing tokens with
  | nil => cases tokens <;> simp [collect]
  | cons r reports ih =>
    cases r with
    | error e => cases tokens <;> simp [collect]
    | ok t =>
      cases h : collect reports with
      | error e =>
        have hne : ∀ ts : List Token, reports ≠ ts.map .ok := fun ts hts => by
          simp [ih.2 hts] at h
        cases tokens <;> simp_all [collect]
      | ok ts =>
        have := ih.1 h
        subst this
        cases tokens <;> simp_all [collect, List.map_inj_right]

/-- The tokens of a text are what its pieces report. -/
theorem scan_eq_ok_iff :
    scan source = .ok tokens ↔
      Piece.reports 0 (Piece.pieces source.toList) = tokens.map .ok :=
  collect_eq_ok_iff

/-- A token of a text is a piece of it. -/
theorem of_mem_scan {t : Token} (h : scan source = .ok tokens) (ht : t ∈ tokens) :
    ∃ c rest n, Piece.classify c rest = (.token t.kind, n) ∧
      t.text.toList = c :: rest.take n ∧ t.span.start < t.span.stop := by
  have hmem : .ok t ∈ Piece.reports 0 (Piece.pieces source.toList) := by
    rw [scan_eq_ok_iff.1 h]
    exact List.mem_map_of_mem ht
  exact Piece.of_mem_reports hmem

/-- A token of a text has a width. -/
theorem isEmpty_of_mem_scan {t : Token} (h : scan source = .ok tokens) (ht : t ∈ tokens) :
    t.span.isEmpty = false := by
  obtain ⟨-, -, -, -, -, hlt⟩ := of_mem_scan h ht
  exact decide_eq_false (Nat.ne_of_lt hlt)

end Token

end SearchScript
