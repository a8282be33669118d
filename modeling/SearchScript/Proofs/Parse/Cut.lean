import SearchScript.Proofs.Parse.Complete

/-!
# Cutting a text behind a token

A cursor on a text and one on a prefix of it stand at the same place as long as the prefix lasts.
What the rules read in front of the cut is the same for both. How many parentheses are open and
whether a statement is due where the tokens end is said of the tokens alone.

## Key results

- `Reads.cut`: what ends in front of a cut is read alike on both sides of it
- `Token.awaitsStatement`: when the tokens end where a statement is due
- `Reads.passes`: what is strictly read has complete headers, so none of them reaches over its end
-/

namespace SearchScript

-- sums begin at the core zero, whatever else is imported
attribute [local instance (high)] Zero.ofOfNat0

namespace TokenKind

/-- Whether a keyword is followed by a header in parentheses and a statement. -/
def startsHeader : TokenKind → Bool
  | ifWord | forWord | whileWord => true
  | _ => false

/-- Whether a token plays no part in headers and in what follows them. -/
def isPlain : TokenKind → Bool
  | elseWord | ifWord | forWord | whileWord | leftParen | rightParen => false
  | _ => true

variable {kind : TokenKind}

theorem isPlain_of_unary {op : UnaryOp} (h : UnaryOp.ofToken? kind = some op) :
    kind.isPlain = true := by
  cases kind <;> first | rfl | cases h

theorem isPlain_of_binary {op : BinaryOp} (h : BinaryOp.ofToken? kind = some op) :
    kind.isPlain = true := by
  cases kind <;> first | rfl | cases h

theorem isPlain_of_assign {op : AssignOp} (h : AssignOp.ofToken? kind = some op) :
    kind.isPlain = true := by
  cases kind <;> first | rfl | cases h

theorem isPlain_of_startsAtom (h : Parse.startsAtom kind = true) : kind.isPlain = true := by
  cases kind <;> first | rfl | cases h

end TokenKind

namespace Token

/-- What is left behind the parenthesis that closes the outermost of those that are open. -/
def closeParens : (depth : Nat) → List Token → Option (List Token)
  | 0, tokens => some tokens
  | _ + 1, [] => none
  | depth + 1, t :: tokens =>
    if t.kind = .leftParen then closeParens (depth + 2) tokens
    else if t.kind = .rightParen then closeParens depth tokens
    else closeParens (depth + 1) tokens

/-- Whether a header in parentheses is complete and another token follows. -/
def headerFollows : List Token → Bool
  | t :: tokens => t.kind == .leftParen && (closeParens 1 tokens).any (!·.isEmpty)
  | [] => false

/-- Whether a statement is required where the tokens end: behind an `else`, or in or behind the
header that follows an `if`, a `for` or a `while`. -/
def awaitsStatement : List Token → Bool
  | [] => false
  | t :: tokens =>
    (t.kind == .elseWord && tokens.isEmpty) || (t.kind.startsHeader && !headerFollows tokens) ||
      awaitsStatement tokens

variable {t : Token} {tokens rest : List Token} {depth : Nat}

theorem closeParens_cons_of_isPlain (h : t.kind.isPlain = true) :
    closeParens (depth + 1) (t :: tokens) = closeParens (depth + 1) tokens := by
  have hl : t.kind ≠ .leftParen := by intro hk; rw [hk] at h; cases h
  have hr : t.kind ≠ .rightParen := by intro hk; rw [hk] at h; cases h
  simp [closeParens, hl, hr]

theorem awaitsStatement_cons_of_isPlain (h : t.kind.isPlain = true) :
    awaitsStatement (t :: tokens) = awaitsStatement tokens := by
  have he : (t.kind == .elseWord) = false := by
    rw [beq_eq_false_iff_ne]; intro hk; rw [hk] at h; cases h
  have hs : t.kind.startsHeader = false := by
    cases hk : t.kind <;> first | rfl | (rw [hk] at h; cases h)
  simp [awaitsStatement, he, hs]

theorem awaitsStatement_cons_of_paren (h : t.kind = .leftParen ∨ t.kind = .rightParen) :
    awaitsStatement (t :: tokens) = awaitsStatement tokens := by
  rcases h with h | h <;> simp [awaitsStatement, h, TokenKind.startsHeader]

/-- Tokens behind those that close the parentheses are left as well. -/
theorem closeParens_append (h : closeParens depth tokens = some rest) (more : List Token) :
    closeParens depth (tokens ++ more) = some (rest ++ more) := by
  induction tokens generalizing depth with
  | nil =>
    cases depth with
    | zero => cases h; simp [closeParens]
    | succ depth => cases h
  | cons t tokens ih =>
    cases depth with
    | zero => cases h; simp [closeParens]
    | succ depth =>
      simp only [closeParens, List.cons_append] at h ⊢
      repeat' split
      all_goals grind

/-- What is left is the end of what was there. -/
theorem suffix_of_closeParens (h : closeParens depth tokens = some rest) : rest <:+ tokens := by
  induction tokens generalizing depth with
  | nil =>
    cases depth with
    | zero => cases h; exact List.suffix_refl _
    | succ depth => cases h
  | cons t tokens ih =>
    cases depth with
    | zero => cases h; exact List.suffix_refl _
    | succ depth =>
      refine List.IsSuffix.trans ?_ (List.suffix_cons t tokens)
      simp only [closeParens] at h
      split at h
      · exact ih h
      · split at h <;> exact ih h

end Token

namespace Cursor

variable {c d c' d' : Cursor} {t : Token} {kind : TokenKind} {W : Nat} {mode : ParseMode}

/-- Whether a cursor stands at the same place as another one, but the last tokens, which weigh `W`,
are cut off. -/
structure Cuts (W : Nat) (c c' : Cursor) : Prop where
  rest : ∃ cut, c.rest = c'.rest ++ cut ∧ (cut.map tokenWeight).sum = W
  accepted : c'.accepted = c.accepted

/-- Whether a cursor stands at the end of the tokens and another one at the cut or behind it. -/
structure Past (W : Nat) (c c' : Cursor) : Prop where
  weight : c.weight ≤ W
  rest : c'.rest = []

theorem rest_of_next? (h : c.next? = some (t, d)) : c.rest = t :: d.rest := by
  obtain ⟨rest, hr, rfl⟩ := next?_eq_some_iff.1 h
  simp [hr, pass]

namespace Cuts

theorem weight (h : Cuts W c c') : c.weight = c'.weight + W := by
  obtain ⟨cut, hcut, rfl⟩ := h.rest
  simp [Cursor.weight, hcut]

/-- As long as more is left than was cut off, something is left. -/
theorem rest_ne_nil (h : Cuts W c c') (hw : W < c.weight) : c'.rest ≠ [] := by
  intro hr
  have := h.weight
  simp [Cursor.weight, hr] at this hw
  omega

theorem next? (h : Cuts W c c') (hc : c'.rest ≠ []) (hn : c.next? = some (t, d)) :
    ∃ d', c'.next? = some (t, d') ∧ Cuts W d d' := by
  obtain ⟨cut, hcut, hsum⟩ := h.rest
  obtain ⟨rest, hr, rfl⟩ := next?_eq_some_iff.1 hn
  cases hr' : c'.rest with
  | nil => exact absurd hr' hc
  | cons t' rest' =>
    rw [hr', hr, List.cons_append, List.cons.injEq] at hcut
    obtain ⟨rfl, rfl⟩ := hcut
    exact ⟨_, next?_of_rest hr', ⟨cut, rfl, hsum⟩, rfl⟩

theorem kind? (h : Cuts W c c') (hc : c'.rest ≠ []) : c'.kind? = c.kind? := by
  obtain ⟨cut, hcut, -⟩ := h.rest
  cases hr' : c'.rest with
  | nil => exact absurd hr' hc
  | cons t' rest' => simp [Cursor.kind?, hcut, hr']

theorem kind?_ne (h : Cuts W c c') (hk : c.kind? ≠ some kind) : c'.kind? ≠ some kind := by
  by_cases hc : c'.rest = []
  · simp [Cursor.kind?, hc]
  · rwa [h.kind? hc]

theorem position (h : Cuts W c c') (hc : c'.rest ≠ []) : c'.position = c.position := by
  obtain ⟨cut, hcut, -⟩ := h.rest
  cases hr' : c'.rest with
  | nil => exact absurd hr' hc
  | cons t' rest' => simp [Cursor.position, hcut, hr']

theorem spanFrom (h : Cuts W c c') (start : Nat) : c'.spanFrom start = c.spanFrom start := by
  simp only [Cursor.spanFrom, h.accepted]

theorem splitNegative (h : Cuts W c c') : Cuts W c.splitNegative c'.splitNegative := by
  obtain ⟨cut, hcut, hsum⟩ := h.rest
  cases hr' : c'.rest with
  | nil =>
    have hc' : c'.splitNegative = c' := by simp [Cursor.splitNegative, hr']
    rw [hc']
    refine ⟨⟨c.splitNegative.rest, by simp [hr'], ?_⟩, ?_⟩
    · have := h.weight
      rw [← weight_splitNegative] at this
      simpa [Cursor.weight, hr'] using this
    · rw [h.accepted]
      unfold Cursor.splitNegative
      repeat' split
      all_goals rfl
  | cons t rest =>
    rw [hr'] at hcut
    simp only [Cursor.splitNegative, hcut, hr', List.cons_append]
    split
    · exact ⟨⟨cut, rfl, hsum⟩, h.accepted⟩
    · exact ⟨⟨cut, by simp [hcut, hr'], hsum⟩, h.accepted⟩

theorem past (h : Cuts W c c') (hc : c'.rest = []) : Past W c c' := by
  have := h.weight
  simp [Cursor.weight, hc] at this
  exact ⟨Nat.le_of_eq (by simpa [Cursor.weight] using this), hc⟩

theorem past_of_le (h : Cuts W c c') (hw : c.weight ≤ W) : Past W c c' := by
  refine h.past ?_
  have := h.weight
  cases hr : c'.rest with
  | nil => rfl
  | cons t rest =>
    have := one_le_tokenWeight t
    simp only [Cursor.weight, hr, List.map_cons, List.sum_cons] at *
    omega

theorem next?_or (h : Cuts W c c') (hn : c.next? = some (t, d)) :
    Past W c c' ∨ ∃ d', c'.next? = some (t, d') ∧ Cuts W d d' ∧ c'.rest = t :: d'.rest := by
  by_cases hc : c'.rest = []
  · exact .inl (h.past hc)
  · obtain ⟨d', hn', hd'⟩ := h.next? hc hn
    exact .inr ⟨d', hn', hd', rest_of_next? hn'⟩

theorem require_or (h : Cuts W c c') (hr : c.require .strict kind = .ok d) :
    Past W c c' ∨ ∃ t d', c'.require .tolerant kind = .ok d' ∧ Cuts W d d' ∧
      c'.rest = t :: d'.rest ∧ t.kind = kind := by
  rcases require_eq_ok_iff.1 hr with ⟨t, hn, hk⟩ | ⟨-, ⟨⟩, -⟩
  exact (h.next?_or hn).imp_right fun ⟨d', hn', hd', hr'⟩ =>
    ⟨t, d', require_eq_ok_iff.2 (.inl ⟨t, hn', hk⟩), hd', hr', hk⟩

theorem expect_or {t? : Option Token} (h : Cuts W c c')
    (he : c.expect .strict kind = .ok (t?, d)) :
    Past W c c' ∨ ∃ t d', t? = some t ∧ c'.expect .tolerant kind = .ok (t?, d') ∧
      Cuts W d d' ∧ c'.rest = t :: d'.rest ∧ t.kind = kind := by
  rcases expect_eq_ok_iff.1 he with ⟨t, rfl, hn, hk⟩ | ⟨-, -, ⟨⟩, -⟩
  exact (h.next?_or hn).imp_right fun ⟨d', hn', hd', hr'⟩ =>
    ⟨t, d', rfl, expect_eq_ok_iff.2 (.inl ⟨t, rfl, hn', hk⟩), hd', hr', hk⟩

theorem position_of_lt (h : Cuts W c c') (hw : W < c.weight) : c'.position = c.position :=
  h.position (h.rest_ne_nil hw)

theorem kind?_of_lt (h : Cuts W c c') (hw : W < c.weight) : c'.kind? = c.kind? :=
  h.kind? (h.rest_ne_nil hw)

theorem next?_of_lt (h : Cuts W c c') (hn : c.next? = some (t, d)) (hw : W < d.weight) :
    ∃ d', c'.next? = some (t, d') ∧ Cuts W d d' :=
  h.next? (h.rest_ne_nil (Nat.lt_trans hw (weight_lt_of_next? hn))) hn

theorem require_of_lt (h : Cuts W c c') (hr : c.require .strict kind = .ok d)
    (hw : W < d.weight) : ∃ d', c'.require mode kind = .ok d' ∧ Cuts W d d' := by
  rcases require_eq_ok_iff.1 hr with ⟨t, hn, hk⟩ | ⟨-, ⟨⟩, -⟩
  obtain ⟨d', hn', hd'⟩ := h.next?_of_lt hn hw
  exact ⟨d', require_eq_ok_iff.2 (.inl ⟨t, hn', hk⟩), hd'⟩

theorem expect_of_lt {t? : Option Token} (h : Cuts W c c')
    (he : c.expect .strict kind = .ok (t?, d)) (hw : W < d.weight) :
    ∃ d', c'.expect mode kind = .ok (t?, d') ∧ Cuts W d d' := by
  rcases expect_eq_ok_iff.1 he with ⟨t, rfl, hn, hk⟩ | ⟨-, -, ⟨⟩, -⟩
  obtain ⟨d', hn', hd'⟩ := h.next?_of_lt hn hw
  exact ⟨d', expect_eq_ok_iff.2 (.inl ⟨t, rfl, hn', hk⟩), hd'⟩

end Cuts

theorem rest_of_require_strict (h : c.require .strict kind = .ok d) :
    ∃ t, t.kind = kind ∧ c.rest = t :: d.rest := by
  rcases require_eq_ok_iff.1 h with ⟨t, hn, hk⟩ | ⟨-, ⟨⟩, -⟩
  exact ⟨t, hk, rest_of_next? hn⟩

theorem rest_of_expect_strict {t? : Option Token} (h : c.expect .strict kind = .ok (t?, d)) :
    ∃ t, t? = some t ∧ t.kind = kind ∧ c.rest = t :: d.rest := by
  rcases expect_eq_ok_iff.1 h with ⟨t, ht, hn, hk⟩ | ⟨-, -, ⟨⟩, -⟩
  exact ⟨t, ht, hk, rest_of_next? hn⟩

/-- Cutting a negative number in two leaves the other tokens alone. -/
theorem rest_splitNegative (c : Cursor) :
    c.splitNegative.rest = c.rest ∨
      ∃ t minus number rest, c.rest = t :: rest ∧ c.splitNegative.rest = minus :: number :: rest ∧
        t.kind = .number ∧ minus.kind = .minus ∧ number.kind = .number := by
  unfold splitNegative
  split
  · next t rest hr =>
    split
    · next minus number hs =>
      unfold splitToken? at hs
      split at hs <;> cases hs
      next hk _ => exact .inr ⟨t, _, _, rest, hr, rfl, hk, rfl, rfl⟩
    · exact .inl rfl
  · exact .inl rfl

end Cursor

namespace Parse

open Cursor

variable {mode : ParseMode} {p : Phrase} {c d c' : Cursor} {W : Nat}

/-- Whether the strict mode takes at least one token to read a phrase to a result. -/
def Phrase.strictlyAdvances : (p : Phrase) → p.Result → Bool
  | expr _, _ | operators _ _ _ none, _ | arguments, _ | functionTail _, _ | lambdaTail _, _
  | params _ _, _ | forTail _, _ | initializer, _ | condition, _ | iterator, _ | block, _ => true
  | operand, e? => e?.isSome
  | _, _ => false

theorem missing_strict {e : Expr} (h : missing .strict c = .ok (e, d)) : False := by
  cases h

/-- In the strict mode, every phrase but a list that may be empty takes a token. -/
theorem Reads.weight_lt_of_strict {r : p.Result} (h : Reads .strict p c r d)
    (hp : p.strictlyAdvances r = true) : d.weight < c.weight := by
  induction h with
  | @exprOperators _ _ node? _ _ _ _ _ ho hops iho ihops =>
    cases node? with
    | none => exact Nat.lt_of_lt_of_le (ihops rfl) ho.weight.1
    | some e => exact Nat.lt_of_le_of_lt hops.weight.1 (iho rfl)
  | _ =>
    simp only [Phrase.strictlyAdvances, Bool.false_eq_true, Option.isSome_none,
      Option.isSome_some] at * <;>
    grind -linarith [Phrase.advances, → Reads.weight, → weight_lt_of_next?, → weight_lt_of_require_strict,
      → weight_lt_of_expect_strict, → missing_strict]

-- weights are natural numbers: linear arithmetic over ordered fields would only take time below
attribute [local grind →] Reads.weight weight_lt_of_next? weight_lt_of_require_strict
  weight_lt_of_expect_strict Cuts.next?_of_lt Cuts.position_of_lt Cuts.kind?_of_lt

attribute [local grind .] Cuts.spanFrom

/-- What ends in front of a cut is read alike on both sides of it. -/
theorem Reads.cut {r : p.Result} (mode : ParseMode) (h : Reads .strict p c r d) (hc : Cuts W c c')
    (hd : W < d.weight) : ∃ d', Reads mode p c' r d' ∧ Cuts W d d' := by
  have hrequire := fun c d c' kind => @Cuts.require_of_lt c d c' kind W mode
  have hexpect := fun c d c' kind => @Cuts.expect_of_lt c d c' kind W mode
  -- every part ends in front of the cut, so the tokens it looks at are still there and the same
  -- rule applies
  induction h generalizing c' with
  | exprOperators h₁ h₂ ho hops ih₁ ih₂ =>
    have hw := (Reads.exprOperators h₁ h₂ ho hops).weight.1
    obtain ⟨c₁', ho', hc₁⟩ := ih₁ hc (Nat.lt_of_lt_of_le hd hops.weight.1)
    obtain ⟨d', hops', hd'⟩ := ih₂ hc₁ hd
    have hlt := Nat.lt_of_lt_of_le hd hw
    rw [← hc.position_of_lt hlt] at hops'
    rw [← hc.kind?_of_lt hlt] at h₁ h₂
    exact ⟨d', .exprOperators h₁ h₂ ho' hops', hd'⟩
  | operatorsMissing _ _ hm => cases hm
  | operatorsMore hr hs ho ihs iho =>
    obtain ⟨c₁', hs', hc₁⟩ := ihs hc.splitNegative (Nat.lt_of_lt_of_le hd ho.weight.1)
    obtain ⟨d', ho', hd'⟩ := iho hc₁ hd
    exact ⟨d', .operatorsMore hr hs' ho', hd'⟩
  | operatorsDone hr hs ihs =>
    obtain ⟨d', hs', hd'⟩ := ihs hc.splitNegative hd
    exact ⟨d', .operatorsDone hr hs', hd'⟩
  | assignmentMissing _ _ _ _ hm => cases hm
  | @exprFunction depth =>
    have rule := @Reads.exprFunction mode depth c'
    grind -linarith
  | @exprLambda depth =>
    have rule := @Reads.exprLambda mode depth c'
    grind -linarith
  | operandParens =>
    have rule := @Reads.operandParens mode c'
    grind -linarith
  | operandAtom =>
    have rule := @Reads.operandAtom mode c'
    grind -linarith
  | operandNone =>
    have rule := @Reads.operandNone mode c'
    grind -linarith
  | @operatorsPrefix depth start rounds =>
    have rule := @Reads.operatorsPrefix mode depth start rounds c'
    grind -linarith
  | @prefixDone depth start =>
    have rule := @Reads.prefixDone mode depth start c'
    grind -linarith
  | @prefixUnary depth start =>
    have rule := @Reads.prefixUnary mode depth start c'
    grind -linarith
  | @infixDone depth left =>
    have rule := @Reads.infixDone mode depth left c'
    grind -linarith
  | @infixMember depth left =>
    have rule := @Reads.infixMember mode depth left c'
    grind -linarith
  | @infixCall depth left =>
    have rule := @Reads.infixCall mode depth left c'
    grind -linarith
  | @infixSubscript depth left =>
    have rule := @Reads.infixSubscript mode depth left c'
    grind -linarith
  | @infixTernary depth left =>
    have rule := @Reads.infixTernary mode depth left c'
    grind -linarith
  | @infixBinary depth left =>
    have rule := @Reads.infixBinary mode depth left c'
    grind -linarith
  | argumentsNone =>
    have rule := @Reads.argumentsNone mode c'
    grind -linarith
  | argumentsSome =>
    have rule := @Reads.argumentsSome mode c'
    grind -linarith
  | @functionMissing start =>
    have rule := @Reads.functionMissing mode start c'
    grind -linarith
  | @functionBare start =>
    have rule := @Reads.functionBare mode start c'
    grind -linarith
  | @functionParams start =>
    have rule := @Reads.functionParams mode start c'
    grind -linarith
  | @lambda start =>
    have rule := @Reads.lambda mode start c'
    grind -linarith
  | @paramsNone closing rounds =>
    have rule := @Reads.paramsNone mode closing rounds c'
    grind -linarith
  | @paramsLast closing rounds =>
    have rule := @Reads.paramsLast mode closing rounds c'
    grind -linarith
  | @paramsCut closing rounds =>
    have rule := @Reads.paramsCut mode closing rounds c'
    grind -linarith
  | @paramsMore closing rounds =>
    have rule := @Reads.paramsMore mode closing rounds c'
    grind -linarith
  | @statementsDone rounds =>
    have rule := @Reads.statementsDone mode rounds c'
    grind -linarith
  | @statementsMore rounds =>
    have rule := @Reads.statementsMore mode rounds c'
    grind -linarith
  | statementBlock =>
    have rule := @Reads.statementBlock mode c'
    grind -linarith
  | statementReturn =>
    have rule := @Reads.statementReturn mode c'
    grind -linarith
  | statementReturnValue =>
    have rule := @Reads.statementReturnValue mode c'
    grind -linarith
  | statementBreak =>
    have rule := @Reads.statementBreak mode c'
    grind -linarith
  | statementContinue =>
    have rule := @Reads.statementContinue mode c'
    grind -linarith
  | statementIf =>
    have rule := @Reads.statementIf mode c'
    grind -linarith
  | statementIfElse hn hk hp he hq hs hn' hk' hs' ihe ihs ihs' =>
    have hw := (Reads.statementIfElse hn hk hp he hq hs hn' hk' hs').weight.1
    have hw₆ := hs'.weight.1
    have hw₅ := weight_lt_of_next? hn'
    have hw₄ := hs.weight.1
    have hw₃ := weight_le_of_require hq
    have hw₂ := he.weight.1
    have hw₁ := weight_le_of_require hp
    obtain ⟨c₁', hn₁, hc₁⟩ := hc.next?_of_lt hn (by omega)
    obtain ⟨c₂', hp₁, hc₂⟩ := hc₁.require_of_lt hp (by omega)
    obtain ⟨c₃', he₁, hc₃⟩ := ihe hc₂ (by omega)
    obtain ⟨c₄', hq₁, hc₄⟩ := hc₃.require_of_lt hq (by omega)
    obtain ⟨c₅', hs₁, hc₅⟩ := ihs hc₄ (by omega)
    obtain ⟨c₆', hn₂, hc₆⟩ := hc₅.next?_of_lt hn' (by omega)
    obtain ⟨c₇', hs₂, hc₇⟩ := ihs' hc₆ hd
    rw [← hc₇.spanFrom, ← hc.position_of_lt (by omega)]
    exact ⟨c₇', .statementIfElse hn₁ hk hp₁ he₁ hq₁ hs₁ hn₂ hk' hs₂, hc₇⟩
  | statementFor =>
    have rule := @Reads.statementFor mode c'
    grind -linarith
  | statementWhile =>
    have rule := @Reads.statementWhile mode c'
    grind -linarith
  | statementEmpty =>
    have rule := @Reads.statementEmpty mode c'
    grind -linarith
  | statementSimple =>
    have rule := @Reads.statementSimple mode c'
    grind -linarith
  | simple =>
    have rule := @Reads.simple mode c'
    grind -linarith
  | @forLoop start =>
    have rule := @Reads.forLoop mode start c'
    grind -linarith
  | initializerNone =>
    have rule := @Reads.initializerNone mode c'
    grind -linarith
  | initializerSome =>
    have rule := @Reads.initializerSome mode c'
    grind -linarith
  | conditionNone =>
    have rule := @Reads.conditionNone mode c'
    grind -linarith
  | conditionSome =>
    have rule := @Reads.conditionSome mode c'
    grind -linarith
  | iteratorNone =>
    have rule := @Reads.iteratorNone mode c'
    grind -linarith
  | iteratorSome =>
    have rule := @Reads.iteratorSome mode c'
    grind -linarith
  | block =>
    have rule := @Reads.block mode c'
    grind -linarith
  | declarationAssignment =>
    have rule := @Reads.declarationAssignment mode c'
    grind -linarith
  | declarationBare =>
    have rule := @Reads.declarationBare mode c'
    grind -linarith
  | declarationValue =>
    have rule := @Reads.declarationValue mode c'
    grind -linarith
  | assignmentCall =>
    have rule := @Reads.assignmentCall mode c'
    grind -linarith
  | assignmentValue =>
    have rule := @Reads.assignmentValue mode c'
    grind -linarith
  | @suffixesDone rounds node isCall =>
    have rule := @Reads.suffixesDone mode rounds node isCall c'
    grind -linarith
  | @suffixesMember rounds node isCall =>
    have rule := @Reads.suffixesMember mode rounds node isCall c'
    grind -linarith
  | @suffixesCall rounds node isCall =>
    have rule := @Reads.suffixesCall mode rounds node isCall c'
    grind -linarith
  | @suffixesSubscript rounds node isCall =>
    have rule := @Reads.suffixesSubscript mode rounds node isCall c'
    grind -linarith

open Token TokenKind

/-- How many parentheses reading a phrase closes that it did not open. -/
def Phrase.closes : Phrase → Nat
  | arguments | iterator => 1
  | params closing _ => if closing = .rightParen then 1 else 0
  | _ => 0

/-- Whether parameters end in one of the two ways that the grammar has. -/
def Phrase.IsProper : Phrase → Prop
  | params closing _ => closing = .rightParen ∨ closing = .colon
  | arguments | iterator | expr _ | operand | operators _ _ _ _ | prefixOperator _ _
  | operator _ _ | functionTail _ | lambdaTail _ | statements _ | statement | simpleStatement
  | forTail _ | initializer | condition | block | declaration | assignment | suffixes _ _ _ => True

/-- Whether headers are the same in front of what a phrase reads and behind it, and the header that
a phrase begins with is complete. -/
def Phrase.Passes (p : Phrase) (c d : Cursor) : Prop :=
  awaitsStatement c.rest = awaitsStatement d.rest ∧
    (∀ n, closeParens (n + 1) c.rest = closeParens (n + 1 - p.closes) d.rest) ∧
    ∀ start, p = .forTail start → headerFollows c.rest = true

theorem passes_splitNegative (c : Cursor) :
    awaitsStatement c.splitNegative.rest = awaitsStatement c.rest ∧
      ∀ n, closeParens (n + 1) c.splitNegative.rest = closeParens (n + 1) c.rest := by
  rcases rest_splitNegative c with h | ⟨t, minus, number, rest, h, h', ht, hm, hn⟩
  · simp [h]
  · simp [h, h', awaitsStatement, closeParens, ht, hm, hn, startsHeader]

/-- A phrase that takes a token begins at one. -/
theorem rest_ne_nil_of_weight (h : d.weight < c.weight) : c.rest ≠ [] := by
  intro hr
  simp [Cursor.weight, hr] at h

/-- What is strictly read has its headers complete. -/
theorem Reads.passes {r : p.Result} (h : Reads .strict p c r d) (hp : p.IsProper) :
    p.Passes c d := by
  induction h with
  | operandAtom hn ha =>
    have hk := isPlain_of_startsAtom (startsAtom_of_atomOf? ha)
    simp [Phrase.Passes, Phrase.closes, rest_of_next? hn, awaitsStatement_cons_of_isPlain hk,
      closeParens_cons_of_isPlain hk]
  | operatorsMissing _ _ hm => cases hm
  | assignmentMissing _ _ _ _ hm => cases hm
  | _ =>
    simp only [Phrase.Passes, Phrase.IsProper, Phrase.closes, passes_splitNegative,
      Nat.add_sub_cancel, Nat.sub_zero, reduceCtorEq, false_implies, implies_true, true_implies,
      and_true] at * <;>
    grind -linarith [→ rest_of_next?, → rest_of_require_strict, → rest_of_expect_strict,
      → isPlain_of_unary, → isPlain_of_binary, → isPlain_of_assign,
      awaitsStatement_cons_of_isPlain, closeParens_cons_of_isPlain, awaitsStatement, closeParens,
      headerFollows, startsHeader, isPlain, Phrase.advances, rest_ne_nil_of_weight]

/-- Where a header is closed in front of a cut, what is read in it ends in front of the cut. -/
theorem Reads.lt_weight_of_closeParens {r : p.Result} (h : Reads .strict p c r d)
    (hp : p.IsProper) (hc : Cuts W c c') {n : Nat} {t : Token} {rest : List Token}
    (hn : closeParens (n + 1) c'.rest = some (t :: rest)) : W < d.weight := by
  obtain ⟨cut, hcut, hsum⟩ := hc.rest
  have hfull : closeParens (n + 1 - p.closes) d.rest = some (t :: rest ++ cut) := by
    rw [← (h.passes hp).2.1 n, hcut, closeParens_append hn]
  obtain ⟨front, hfront⟩ := suffix_of_closeParens hfull
  have := one_le_tokenWeight t
  simp only [Cursor.weight, ← hfront, List.map_append, List.map_cons, List.cons_append,
    List.sum_append, List.sum_cons]
  omega

end Parse

end SearchScript
