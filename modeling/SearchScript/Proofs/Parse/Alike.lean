import SearchScript.Proofs.Parse.Complete
import SearchScript.Proofs.Syntax.Signs

/-!
# Tokens that differ in the spacing of their minus signs

Between an operand and a number, the tokens of a program do not tell a minus with a blank behind it
from one without: the scanner makes two tokens of the first and one of the second, and the parser
cuts that one in two. Elsewhere one token and two tokens stay what they are, but the number that the
one token stands for may be the opposite of the number of the other two.

`Token.Alike` relates lists of tokens that differ in nothing else than this. It knows whether an
operand ends in front of the tokens, since the two cases differ in that. This module says what
cursors at such lists do alike; that phrases are read alike follows from it rule by rule.

## Key definitions

- `Token.Alike`: lists of tokens with the same minus signs in front of the same numbers
- `Cursor.Parallel`: cursors with such lists in front

## Key results

- `Parallel.next`, `Parallel.require`, `Parallel.expect`: the cursors take the same tokens
- `Parallel.splitNegative`: where negative numbers are cut, the next tokens are of one kind
-/

namespace SearchScript

namespace TokenKind

/-- Whether an operand may end with a token of the kind. -/
def endsOperand : TokenKind → Bool
  | rightParen | rightBracket | rightBrace => true
  | kind => Parse.startsAtom kind

/-- Whether a token of the kind may be a minus, with or without the number behind it. -/
def isSign (kind : TokenKind) : Bool := kind == minus || kind == number

variable {kind : TokenKind}

theorem endsOperand_of_startsAtom (h : Parse.startsAtom kind = true) : kind.endsOperand = true := by
  cases kind <;> first | rfl | cases h

theorem endsOperand_of_unary {op : UnaryOp} (h : UnaryOp.ofToken? kind = some op) :
    kind.endsOperand = false := by
  cases kind <;> first | rfl | cases h

theorem endsOperand_of_binary {op : BinaryOp} (h : BinaryOp.ofToken? kind = some op) :
    kind.endsOperand = false := by
  cases kind <;> first | rfl | cases h

theorem endsOperand_of_assign {op : AssignOp} (h : AssignOp.ofToken? kind = some op) :
    kind.endsOperand = false ∧ kind.isSign = false := by
  cases kind <;> first | exact ⟨rfl, rfl⟩ | cases h

end TokenKind

namespace Token

/-- Whether tokens are the same but for their places. Of a `null` the place says whether it was
written. -/
structure SameAs (t t' : Token) : Prop where
  kind : t'.kind = t.kind
  text : t'.text = t.text
  empty : t.kind = .null → t'.span.isEmpty = t.span.isEmpty

/-- Whether a token is a negative number that consists of a minus and a number. -/
structure Fuses (t m n : Token) : Prop where
  kind : t.kind = .number
  minus : m.kind = .minus ∧ m.text = "-"
  number : n.kind = .number
  text : t.text.toList = '-' :: n.text.toList

/-- Whether lists of tokens are the same but for the spacing of their minus signs, behind an operand
or not. Where a minus in front of an operand is not spaced alike, the literal must be the opposite
of the number and no suffix may follow, and this must be allowed. -/
inductive Alike (fold : Bool) : Bool → List Token → List Token → Prop
  | nil {operand} : Alike fold operand [] []
  | same {operand t t' ts ts'} : SameAs t t' → Alike fold t.kind.endsOperand ts ts' →
      Alike fold operand (t :: ts) (t' :: ts')
  | joined {t m n ts ts'} : Fuses t m n → Alike fold true ts ts' →
      Alike fold true (m :: n :: ts) (t :: ts')
  | parted {t m n ts ts'} : Fuses t m n → Alike fold true ts ts' →
      Alike fold true (t :: ts) (m :: n :: ts')
  | signed {t m n ts ts'} : fold = true → Fuses t m n →
      Number.read t.text = (Number.read n.text).neg →
      (∀ u, ts.head? = some u → Parse.startsSuffix u.kind = false) → Alike fold true ts ts' →
      Alike fold false (m :: n :: ts) (t :: ts')

variable {t t' m n : Token}

theorem SameAs.symm (h : SameAs t t') : SameAs t' t :=
  ⟨h.kind.symm, h.text.symm, fun hk => (h.empty (h.kind ▸ hk)).symm⟩

theorem SameAs.of_sign (hs : t.kind.isSign = true) (hk : t'.kind = t.kind)
    (htext : t'.text.toList = t.text.toList) : SameAs t t' := by
  refine ⟨hk, String.toList_inj.1 htext, fun hnull => ?_⟩
  rw [hnull] at hs
  cases hs

theorem Fuses.splitToken? (h : Fuses t m n) :
    ∃ m' n', Cursor.splitToken? t = some (m', n') ∧ SameAs m m' ∧ SameAs n n' := by
  unfold Cursor.splitToken?
  rw [h.kind, h.text]
  refine ⟨_, _, rfl, .of_sign (by rw [h.minus.1]; rfl) h.minus.1.symm (by rw [h.minus.2]),
    .of_sign (by rw [h.number]; rfl) h.number.symm ?_⟩
  rw [String.ofList_toList]

/-- What is the same is cut in the same way. -/
theorem SameAs.splitToken? (h : SameAs t t') :
    (Cursor.splitToken? t = none ∧ Cursor.splitToken? t' = none) ∨
      ∃ m n m' n', Cursor.splitToken? t = some (m, n) ∧ Cursor.splitToken? t' = some (m', n') ∧
        Fuses t m n ∧ SameAs m m' ∧ SameAs n n' := by
  unfold Cursor.splitToken?
  rw [h.kind, h.text]
  split
  · next digits hk htext =>
    refine .inr ⟨_, _, _, _, rfl, rfl, ⟨hk, ⟨rfl, rfl⟩, rfl, ?_⟩, ⟨rfl, rfl, nofun⟩,
      ⟨rfl, rfl, nofun⟩⟩
    rw [htext, String.toList_ofList]
  · exact .inl ⟨rfl, rfl⟩

end Token

namespace Cursor

open Token

/-- Whether the tokens in front of two cursors are alike. -/
def Parallel (fold operand : Bool) (c c' : Cursor) : Prop := Alike fold operand c.rest c'.rest

variable {fold operand : Bool} {c c' c₁ : Cursor} {t : Token} {kind : TokenKind}

/-- The next tokens are of one kind, or both are signs. -/
theorem Parallel.kind?_cases (h : Parallel fold operand c c') :
    c'.kind? = c.kind? ∨ (c.kind?.any TokenKind.isSign = true ∧
      c'.kind?.any TokenKind.isSign = true) := by
  unfold Parallel at h
  unfold kind?
  generalize c.rest = rest at h
  generalize c'.rest = rest' at h
  cases h with
  | nil => exact .inl rfl
  | same ht _ => exact .inl (by simp [ht.kind])
  | joined hf _ | parted hf _ | signed _ hf _ _ _ =>
    exact .inr ⟨by simp [hf.kind, hf.minus.1, TokenKind.isSign],
      by simp [hf.kind, hf.minus.1, TokenKind.isSign]⟩

theorem Parallel.kind?_eq (h : Parallel fold operand c c')
    (hk : c.kind?.any TokenKind.isSign = false) : c'.kind? = c.kind? := by
  rcases h.kind?_cases with heq | ⟨hsign, -⟩
  · exact heq
  · rw [hk] at hsign
    cases hsign

/-- The next token is of a kind at both cursors or at neither. -/
theorem Parallel.kind?_eq_some_iff (h : Parallel fold operand c c')
    (hs : kind.isSign = false := by rfl) : c'.kind? = some kind ↔ c.kind? = some kind := by
  rcases h.kind?_cases with heq | ⟨hsign, hsign'⟩
  · rw [heq]
  · constructor <;> intro hk <;> simp_all

theorem Parallel.kind?_eq_none_iff (h : Parallel fold operand c c') :
    c'.kind? = none ↔ c.kind? = none := by
  rcases h.kind?_cases with heq | ⟨hsign, hsign'⟩
  · rw [heq]
  · constructor <;> intro hk <;> simp_all

/-- What is said of all kinds, and not of signs, is said of both cursors. -/
theorem Parallel.forall_kind? {P : TokenKind → Bool} (h : Parallel fold operand c c')
    (hP : ∀ kind, kind.isSign = true → P kind = false)
    (hc : ∀ kind, c.kind? = some kind → P kind = false) :
    ∀ kind, c'.kind? = some kind → P kind = false := by
  intro kind hk
  rcases h.kind?_cases with heq | ⟨-, hsign⟩
  · exact hc kind (heq ▸ hk)
  · rw [hk] at hsign
    exact hP kind hsign

/-- In front of an operand, next tokens of two kinds are a minus with a number behind it and the
literal that it is part of. -/
theorem Parallel.exists_signed (h : Parallel fold false c c') (hk : c'.kind? ≠ c.kind?) :
    ∃ t m n ts ts', c.rest = m :: n :: ts ∧ c'.rest = t :: ts' ∧ fold = true ∧ Fuses t m n ∧
      Number.read t.text = (Number.read n.text).neg ∧
      (∀ u, ts.head? = some u → Parse.startsSuffix u.kind = false) ∧ Alike fold true ts ts' := by
  unfold Parallel at h
  unfold kind? at hk
  generalize c.rest = rest at h hk
  generalize c'.rest = rest' at h hk
  cases h with
  | nil => exact absurd rfl hk
  | same ht _ => exact absurd (by simp [ht.kind]) hk
  | signed hfold hf hread hs hts => exact ⟨_, _, _, _, _, rfl, rfl, hfold, hf, hread, hs, hts⟩

/-- Tokens of one kind are the same. -/
theorem Parallel.next (h : Parallel fold operand c c') (hk : c'.kind? = c.kind?)
    (hn : c.next? = some (t, c₁)) :
    ∃ t' c₁', c'.next? = some (t', c₁') ∧ SameAs t t' ∧
      Parallel fold t.kind.endsOperand c₁ c₁' := by
  obtain ⟨rest, hr, rfl⟩ := next?_eq_some_iff.1 hn
  unfold Parallel at h ⊢
  unfold kind? at hk
  rw [hr] at h hk
  generalize hr' : c'.rest = rest' at h hk
  cases h with
  | same ht hts => exact ⟨_, _, next?_of_rest hr', ht, hts⟩
  | joined hf _ | parted hf _ | signed _ hf _ _ _ => simp [hf.kind, hf.minus.1] at hk

/-- A token that is no sign is the same at both cursors. -/
theorem Parallel.nextOf (h : Parallel fold operand c c') (hn : c.next? = some (t, c₁))
    (hk : t.kind = kind) (hs : kind.isSign = false := by rfl) :
    ∃ t' c₁', c'.next? = some (t', c₁') ∧ t'.kind = kind ∧ t'.text = t.text ∧
      Parallel fold kind.endsOperand c₁ c₁' := by
  subst hk
  have hkind := kind?_of_next? hn
  obtain ⟨t', c₁', hn', ht, hp⟩ := h.next (h.kind?_eq (by rw [hkind]; exact hs)) hn
  exact ⟨t', c₁', hn', ht.kind, ht.text, hp⟩

theorem Parallel.expect {t? : Option Token} (h : Parallel fold operand c c')
    (he : c.expect .strict kind = .ok (t?, c₁)) (hs : kind.isSign = false := by rfl) :
    ∃ t t' c₁', t? = some t ∧ c'.expect .strict kind = .ok (some t', c₁') ∧ t'.text = t.text ∧
      Parallel fold kind.endsOperand c₁ c₁' := by
  rcases expect_eq_ok_iff.1 he with ⟨t, rfl, hn, hk⟩ | ⟨-, -, ⟨⟩, -⟩
  obtain ⟨t', c₁', hn', hk', htext, hp⟩ := h.nextOf hn hk hs
  exact ⟨t, t', c₁', rfl, expect_eq_ok_iff.2 (.inl ⟨t', rfl, hn', hk'⟩), htext, hp⟩

theorem Parallel.require (h : Parallel fold operand c c')
    (hr : c.require .strict kind = .ok c₁) (hs : kind.isSign = false := by rfl) :
    ∃ c₁', c'.require .strict kind = .ok c₁' ∧ Parallel fold kind.endsOperand c₁ c₁' := by
  rcases require_eq_ok_iff.1 hr with ⟨t, hn, hk⟩ | ⟨-, ⟨⟩, -⟩
  obtain ⟨t', c₁', hn', hk', -, hp⟩ := h.nextOf hn hk hs
  exact ⟨c₁', require_eq_ok_iff.2 (.inl ⟨t', hn', hk'⟩), hp⟩

/-! ## Cutting negative numbers -/

theorem rest_splitNegative_of_some {m n : Token} {rest : List Token} (hr : c.rest = t :: rest)
    (hs : splitToken? t = some (m, n)) : c.splitNegative.rest = m :: n :: rest := by
  unfold splitNegative
  simp only [hr, hs]

theorem splitNegative_of_none {rest : List Token} (hr : c.rest = t :: rest)
    (hs : splitToken? t = none) : c.splitNegative = c := by
  unfold splitNegative
  simp only [hr, hs]

/-- Cutting changes the kind of the next token to a minus, if at all. -/
theorem kind?_splitNegative (c : Cursor) :
    c.splitNegative.kind? = c.kind? ∨ c.splitNegative.kind? = some .minus := by
  cases hr : c.rest with
  | nil => exact .inl (by rw [splitNegative_of_kind? (by simp [kind?_of_rest_nil hr])])
  | cons t rest =>
    cases hs : splitToken? t with
    | none => exact .inl (by rw [splitNegative_of_none hr hs])
    | some pair =>
      obtain ⟨m, n⟩ := pair
      refine .inr ((kind?_of_rest (rest_splitNegative_of_some hr hs)).trans ?_)
      unfold splitToken? at hs
      split at hs <;> cases hs
      rfl

/-- A minus is not cut. -/
theorem splitNegative_of_minus {rest : List Token} (hr : c.rest = t :: rest)
    (hk : t.kind = .minus) : c.splitNegative = c :=
  splitNegative_of_kind? (by rw [kind?_of_rest hr, hk]; nofun)

/-- Behind an operand it does not matter whether a negative number was cut. -/
theorem Parallel.splitNegative_left (h : Parallel fold true c c') :
    Parallel fold true c.splitNegative c' := by
  unfold Parallel at h ⊢
  generalize hr : c.rest = rest at h
  generalize hr' : c'.rest = rest' at h
  cases h with
  | nil =>
    rw [splitNegative_of_kind? (by simp [kind?_of_rest_nil hr]), hr]
    exact .nil
  | same ht hts =>
    rcases ht.splitToken? with ⟨hs, -⟩ | ⟨m, n, -, -, hs, -, hf, -, -⟩
    · rw [splitNegative_of_none hr hs, hr]
      exact .same ht hts
    · -- one of two literals is cut
      rw [rest_splitNegative_of_some hr hs]
      rw [hf.kind] at hts
      exact .joined ⟨ht.kind.trans hf.kind, hf.minus, hf.number, by rw [ht.text, hf.text]⟩ hts
  | joined hf hts =>
    rw [splitNegative_of_minus hr hf.minus.1, hr]
    exact .joined hf hts
  | parted hf hts =>
    -- the literal is cut into what stands at the other cursor
    obtain ⟨m', n', hs, hm, hn⟩ := hf.splitToken?
    rw [rest_splitNegative_of_some hr hs]
    refine .same hm.symm (.same hn.symm ?_)
    rw [hn.kind, hf.number]
    exact hts

/-- Where negative numbers are cut behind an operand, the next tokens are of one kind. -/
theorem Parallel.splitNegative (h : Parallel fold true c c') :
    Parallel fold true c.splitNegative c'.splitNegative ∧
      c'.splitNegative.kind? = c.splitNegative.kind? := by
  have hleft := h.splitNegative_left
  unfold Parallel at h ⊢
  generalize hr : c.rest = rest at h
  generalize hr' : c'.rest = rest' at h
  cases h with
  | nil =>
    rw [splitNegative_of_kind? (by simp [kind?_of_rest_nil hr]),
      splitNegative_of_kind? (by simp [kind?_of_rest_nil hr']), hr, hr', kind?_of_rest_nil hr,
      kind?_of_rest_nil hr']
    exact ⟨.nil, rfl⟩
  | same ht hts =>
    -- the heads are alike: neither is split, or both are
    rcases ht.splitToken? with ⟨hs, hs'⟩ | ⟨m, n, m', n', hs, hs', hf, hm, hn⟩
    · rw [splitNegative_of_none hr hs, splitNegative_of_none hr' hs', hr, hr', kind?_of_rest hr,
        kind?_of_rest hr', ht.kind]
      exact ⟨.same ht hts, rfl⟩
    · have hsplit := rest_splitNegative_of_some hr hs
      have hsplit' := rest_splitNegative_of_some hr' hs'
      rw [kind?_of_rest hsplit, kind?_of_rest hsplit', hsplit, hsplit', hm.kind]
      refine ⟨.same hm (.same hn ?_), rfl⟩
      rw [hf.number, ← hf.kind]
      exact hts
  | joined hf hts =>
    -- on one side the minus stands alone already, on the other it is split off
    obtain ⟨m', n', hs', hm, hn⟩ := hf.splitToken?
    have hsplit' := rest_splitNegative_of_some hr' hs'
    rw [splitNegative_of_minus hr hf.minus.1, kind?_of_rest hr, kind?_of_rest hsplit', hr, hsplit',
      hm.kind]
    exact ⟨.same hm (.same hn (hf.number ▸ hts)), rfl⟩
  | parted hf hts =>
    obtain ⟨m', n', hs, hm, hn⟩ := hf.splitToken?
    have hsplit := rest_splitNegative_of_some hr hs
    rw [splitNegative_of_minus hr' hf.minus.1, kind?_of_rest hr', kind?_of_rest hsplit, hm.kind]
    exact ⟨hleft, rfl⟩

end Cursor

end SearchScript
