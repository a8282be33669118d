import SearchScript.Proofs.Parse.Complete

/-!
# The rules read backwards

The tokens that a phrase starts with decide which rule reads it. One lemma for each rule that calls
for other phrases says what it calls for, once its first tokens are known. They hold in both modes.
-/

namespace SearchScript

namespace Parse

open Cursor TokenKind

variable {mode : ParseMode} {c d c₁ c₂ : Cursor} {t t' : Token} {depth start rounds : Nat}

/-! ## Expressions -/

section

variable {e left : Expr} {e? : Option Expr} {step : Step}

theorem Reads.of_functionWord (h : Reads mode (.expr depth) c e d) (hn : c.next? = some (t, c₁))
    (hk : t.kind = .functionWord) : Reads mode (.functionTail c.position) c₁ e d := by
  cases h <;> grind [kind?_of_next?]

theorem Reads.of_lambdaWord (h : Reads mode (.expr depth) c e d) (hn : c.next? = some (t, c₁))
    (hk : t.kind = .lambdaWord) : Reads mode (.lambdaTail c.position) c₁ e d := by
  cases h <;> grind [kind?_of_next?]

theorem Reads.of_operand (h : Reads mode (.expr depth) c e d)
    (hf : c.kind? ≠ some .functionWord) (hl : c.kind? ≠ some .lambdaWord) :
    ∃ node? c₁, Reads mode .operand c node? c₁ ∧
      Reads mode (.operators depth c.position 0 node?) c₁ e d := by
  cases h <;> grind [kind?_of_next?]

theorem Reads.of_parens (h : Reads mode .operand c e? d) (hn : c.next? = some (t, c₁))
    (hk : t.kind = .leftParen) :
    ∃ e c₂, Reads mode (.expr 1) c₁ e c₂ ∧ c₂.require mode .rightParen = .ok d := by
  cases h <;> grind [kind?_of_next?, startsAtom_of_atomOf?, startsAtom]

theorem Reads.of_operators_none (h : Reads mode (.operators depth start rounds none) c e d) :
    Reads mode (.prefixOperator depth start) c .done d ∨
      ∃ left c₁, Reads mode (.prefixOperator depth start) c (.more left) c₁ ∧
        Reads mode (.operators depth start (rounds + 1) (some left)) c₁ e d := by
  cases h <;> grind [eq_of_missing]

theorem Reads.of_operators_some
    (h : Reads mode (.operators depth start rounds (some left)) c e d) :
    Reads mode (.operator depth left) c.splitNegative .done d ∨
      ∃ left' c₁, Reads mode (.operator depth left) c.splitNegative (.more left') c₁ ∧
        Reads mode (.operators depth start (rounds + 1) (some left')) c₁ e d := by
  cases h <;> grind

theorem Reads.of_unary {op : UnaryOp} (h : Reads mode (.prefixOperator depth start) c step d)
    (hn : c.next? = some (t, c₁)) (hk : UnaryOp.ofToken? t.kind = some op) (hd : depth < 8) :
    ∃ e, Reads mode (.expr 7) c₁ e d := by
  cases h <;> grind [noPrefix, kind?_of_next?]

theorem Reads.of_period (h : Reads mode (.operator depth left) c step d)
    (hn : c.next? = some (t, c₁)) (hk : t.kind = .period) (hd : depth < 8) :
    ∃ e, Reads mode (.expr 8) c₁ e d := by
  cases h <;> grind [noInfix, infixDepth?, kind?_of_next?, BinaryOp.ofToken?]

theorem Reads.of_call (h : Reads mode (.operator depth left) c step d)
    (hn : c.next? = some (t, c₁)) (hk : t.kind = .leftParen) (hd : depth < 8) :
    ∃ e, Reads mode .arguments c₁ e d := by
  cases h <;> grind [noInfix, infixDepth?, kind?_of_next?, BinaryOp.ofToken?]

theorem Reads.of_subscript (h : Reads mode (.operator depth left) c step d)
    (hn : c.next? = some (t, c₁)) (hk : t.kind = .leftBracket) (hd : depth < 8) :
    ∃ e c₂, Reads mode (.expr 1) c₁ e c₂ ∧ c₂.require mode .rightBracket = .ok d := by
  cases h <;> grind [noInfix, infixDepth?, kind?_of_next?, BinaryOp.ofToken?]

theorem Reads.of_question (h : Reads mode (.operator depth left) c step d)
    (hn : c.next? = some (t, c₁)) (hk : t.kind = .question) (hd : depth < 3) :
    ∃ e c₂ c₃ e', Reads mode (.expr 3) c₁ e c₂ ∧ c₂.require mode .colon = .ok c₃ ∧
      Reads mode (.expr 3) c₃ e' d := by
  cases h <;> grind [noInfix, infixDepth?, kind?_of_next?, BinaryOp.ofToken?]

theorem Reads.of_binary {op : BinaryOp} (h : Reads mode (.operator depth left) c step d)
    (hn : c.next? = some (t, c₁)) (hk : BinaryOp.ofToken? t.kind = some op) (hd : depth < op.depth) :
    ∃ e, Reads mode (.expr op.depth) c₁ e d := by
  have hk' := infixDepth?_of_binary hk
  cases h <;> grind [noInfix, kind?_of_next?]

theorem Reads.of_argument (h : Reads mode .arguments c e d) (hk : c.kind? ≠ some .rightParen) :
    ∃ e c₁, Reads mode (.expr 1) c e c₁ ∧ c₁.require mode .rightParen = .ok d := by
  cases h <;> grind [kind?_of_next?]

theorem Reads.of_functionBare (h : Reads mode (.functionTail start) c e d)
    (hp : c.expect mode .leftParen = .ok (some t, c₁)) (hn : c₁.next? = some (t', c₂))
    (hk : t'.kind = .rightParen) : ∃ s, Reads mode .block c₂ s d := by
  cases h <;> grind [kind?_of_next?]

theorem Reads.of_functionParams (h : Reads mode (.functionTail start) c e d)
    (hp : c.expect mode .leftParen = .ok (some t, c₁)) (hk : c₁.kind? ≠ some .rightParen) :
    ∃ names c₂ s, Reads mode (.params .rightParen 0) c₁ names c₂ ∧ Reads mode .block c₂ s d := by
  cases h <;> grind [kind?_of_next?]

theorem Reads.of_params {closing : TokenKind} {names : List String}
    (h : Reads mode (.params closing rounds) c names d)
    (hi : c.expect mode .identifier = .ok (some t, c₁)) (hk : c₁.kind? ≠ some closing)
    (hc : c₁.expect mode .comma = .ok (some t', c₂)) :
    ∃ names, Reads mode (.params closing (rounds + 1)) c₂ names d := by
  cases h <;> grind [kind?_of_next?]

theorem Reads.of_lambda (h : Reads mode (.lambdaTail start) c e d) :
    ∃ names c₁ e, Reads mode (.params .colon 0) c names c₁ ∧ Reads mode (.expr 0) c₁ e d := by
  cases h
  exact ⟨_, _, _, ‹_›, ‹_›⟩

end

/-! ## Statements -/

section

variable {s : Statement} {e? : Option Expr} {s? : Option Statement} {kind : TokenKind}

theorem Reads.of_statements {ss : List Statement} (h : Reads mode (.statements rounds) c ss d)
    (hk : c.kind? = some kind) (hne : kind ≠ .rightBrace) :
    ∃ s c₁ ss, Reads mode .statement c s c₁ ∧ Reads mode (.statements (rounds + 1)) c₁ ss d := by
  cases h <;> grind

theorem Reads.of_leftBrace (h : Reads mode .statement c s d) (hk : c.kind? = some .leftBrace) :
    Reads mode .block c s d := by
  cases h <;> grind [kind?_of_next?, startsStatement]

theorem Reads.of_returnWord (h : Reads mode .statement c s d) (hn : c.next? = some (t, c₁))
    (hk : t.kind = .returnWord) (hne : c₁.kind? ≠ some .semicolon) :
    ∃ e c₂, Reads mode (.expr 0) c₁ e c₂ ∧ c₂.require mode .semicolon = .ok d := by
  cases h <;> grind [kind?_of_next?, startsStatement]

theorem Reads.of_ifWord (h : Reads mode .statement c s d) (hn : c.next? = some (t, c₁))
    (hk : t.kind = .ifWord) :
    ∃ c₂ e c₃ c₄ s' c₅, c₁.require mode .leftParen = .ok c₂ ∧ Reads mode (.expr 0) c₂ e c₃ ∧
      c₃.require mode .rightParen = .ok c₄ ∧ Reads mode .statement c₄ s' c₅ ∧
      (c₅.kind? = some .elseWord →
        ∃ t' c₆ s'', c₅.next? = some (t', c₆) ∧ Reads mode .statement c₆ s'' d) := by
  cases h <;> grind [kind?_of_next?, startsStatement]

theorem Reads.of_forWord (h : Reads mode .statement c s d) (hn : c.next? = some (t, c₁))
    (hk : t.kind = .forWord) : Reads mode (.forTail c.position) c₁ s d := by
  cases h <;> grind [kind?_of_next?, startsStatement]

theorem Reads.of_whileWord (h : Reads mode .statement c s d) (hn : c.next? = some (t, c₁))
    (hk : t.kind = .whileWord) :
    ∃ c₂ e c₃ c₄ s, c₁.require mode .leftParen = .ok c₂ ∧ Reads mode (.expr 0) c₂ e c₃ ∧
      c₃.require mode .rightParen = .ok c₄ ∧ Reads mode .statement c₄ s d := by
  cases h <;> grind [kind?_of_next?, startsStatement]

theorem Reads.of_simpleStatement (h : Reads mode .statement c s d) (hk : c.kind? = some kind)
    (hs : startsStatement kind = false) : Reads mode .simpleStatement c s d := by
  cases h <;> grind [kind?_of_next?, startsStatement]

theorem Reads.of_simple (h : Reads mode .simpleStatement c s d) :
    ∃ c₁, Reads mode .declaration c s c₁ ∧ c₁.require mode .semicolon = .ok d := by
  cases h
  exact ⟨_, ‹_›, ‹_›⟩

theorem Reads.of_forTail (h : Reads mode (.forTail start) c s d) :
    ∃ c₁ initial c₂ e c₃ step c₄ s, c.require mode .leftParen = .ok c₁ ∧
      Reads mode .initializer c₁ initial c₂ ∧ Reads mode .condition c₂ e c₃ ∧
      Reads mode .iterator c₃ step c₄ ∧ Reads mode .statement c₄ s d := by
  cases h
  exact ⟨_, _, _, _, _, _, _, _, ‹_›, ‹_›, ‹_›, ‹_›, ‹_›⟩

theorem Reads.of_initializer (h : Reads mode .initializer c s? d)
    (hk : c.kind? ≠ some .semicolon) :
    ∃ s c₁, Reads mode .declaration c s c₁ ∧ c₁.require mode .semicolon = .ok d := by
  cases h <;> grind [kind?_of_next?]

theorem Reads.of_condition (h : Reads mode .condition c e? d) (hk : c.kind? ≠ some .semicolon) :
    ∃ e c₁, Reads mode (.expr 0) c e c₁ ∧ c₁.require mode .semicolon = .ok d := by
  cases h <;> grind [kind?_of_next?]

theorem Reads.of_iterator (h : Reads mode .iterator c s? d) (hk : c.kind? ≠ some .rightParen) :
    ∃ s c₁, Reads mode .assignment c s c₁ ∧ c₁.require mode .rightParen = .ok d := by
  cases h <;> grind [kind?_of_next?]

theorem Reads.of_block (h : Reads mode .block c s d) :
    ∃ c₁ ss c₂, c.require mode .leftBrace = .ok c₁ ∧ Reads mode (.statements 0) c₁ ss c₂ ∧
      c₂.require mode .rightBrace = .ok d := by
  cases h
  exact ⟨_, _, _, ‹_›, ‹_›, ‹_›⟩

theorem Reads.of_not_letWord (h : Reads mode .declaration c s d) (hk : c.kind? ≠ some .letWord) :
    Reads mode .assignment c s d := by
  cases h <;> grind [kind?_of_next?]

theorem Reads.of_letWord {name? : Option Token} (h : Reads mode .declaration c s d)
    (hn : c.next? = some (t, c₁)) (hk : t.kind = .letWord)
    (hi : c₁.expect mode .identifier = .ok (name?, c₂))
    (hne : ¬(c₂.kind? = none ∨ c₂.kind? = some .semicolon)) :
    ∃ c₃ e, c₂.require mode .assign = .ok c₃ ∧ Reads mode (.expr 0) c₃ e d := by
  cases h <;> grind [kind?_of_next?]

/-- An assignment starts with a name and its suffixes, and then only an assignment operator can
call for another phrase. -/
theorem Reads.of_assignment (h : Reads mode .assignment c s d) (hn : c.next? = some (t, c₁)) :
    ∃ e isCall c₂, Reads mode (.suffixes 0 (.name t.span t.text) false) c₁ (e, isCall) c₂ ∧
      (isCall = false → ∀ t' c₃ op, c₂.next? = some (t', c₃) → AssignOp.ofToken? t'.kind = some op →
        ∃ e', Reads mode (.expr 0) c₃ e' d) := by
  cases h with
  | assignmentCall hn' hk hs =>
    rw [hn] at hn'
    cases hn'
    exact ⟨_, _, _, hs, by simp⟩
  | assignmentValue hn' hk hs hn₂ hk₂ he =>
    rw [hn] at hn'
    cases hn'
    exact ⟨_, _, _, hs, by grind⟩
  | assignmentMissing hn' hk hs hne hm =>
    rw [hn] at hn'
    cases hn'
    exact ⟨_, _, _, hs, by grind [kind?_of_next?]⟩

end

section

variable {node : Expr} {isCall : Bool} {r : Expr × Bool}

theorem Reads.of_suffix_period (h : Reads mode (.suffixes rounds node isCall) c r d)
    (hn : c.next? = some (t, c₁)) (hk : t.kind = .period) :
    ∃ e c₂, Reads mode (.expr 8) c₁ e c₂ ∧
      Reads mode (.suffixes (rounds + 1) (.join .member node e) false) c₂ r d := by
  cases h <;> grind [kind?_of_next?, startsSuffix]

theorem Reads.of_suffix_call (h : Reads mode (.suffixes rounds node isCall) c r d)
    (hn : c.next? = some (t, c₁)) (hk : t.kind = .leftParen) :
    ∃ e c₂, Reads mode .arguments c₁ e c₂ ∧
      Reads mode (.suffixes (rounds + 1) (.join .call node e) true) c₂ r d := by
  cases h <;> grind [kind?_of_next?, startsSuffix]

theorem Reads.of_suffix_subscript (h : Reads mode (.suffixes rounds node isCall) c r d)
    (hn : c.next? = some (t, c₁)) (hk : t.kind = .leftBracket) :
    ∃ e c₂ c₃, Reads mode (.expr 1) c₁ e c₂ ∧ c₂.require mode .rightBracket = .ok c₃ ∧
      Reads mode (.suffixes (rounds + 1) (.join .subscript node e) false) c₃ r d := by
  cases h <;> grind [kind?_of_next?, startsSuffix]

end

end Parse

end SearchScript
