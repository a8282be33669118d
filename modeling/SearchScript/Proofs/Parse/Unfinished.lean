import Mathlib
import SearchScript.Proofs.Parse.Cut
import SearchScript.Proofs.Parse.Inversion
import SearchScript.Proofs.Token.Prefix
import SearchScript.Run.Program

/-!
# Unfinished programs

A program that is typed from left to right is, after each of its tokens, a prefix of what it will
be. The tolerant mode reads the prefix like the strict mode reads the whole until the tokens end,
and then takes what is missing as read. Only a statement is never taken as read: where one is due,
the prefix is refused.

## Key results

- `Reads.up_to_cut`: the tolerant mode reads up to a cut unless a statement is due there
- `Reads.not_reads_of_isStuck`: it reads nothing if a statement is due there
- `Code.parse_of_prefix_iff`: which prefixes of a program the tolerant mode accepts
-/

namespace SearchScript

namespace Parse

open Cursor Token TokenKind

variable {mode : ParseMode} {p : Phrase} {c d c' : Cursor} {W : Nat}

/-! ## At the end of the tokens -/

section

variable {kind : TokenKind}

theorem next?_of_rest_nil (h : c.rest = []) : c.next? = none := by
  simp [Cursor.next?, h]

theorem splitNegative_of_rest_nil (h : c.rest = []) : c.splitNegative = c := by
  simp [Cursor.splitNegative, h]

theorem rest_of_require_nil (h : c.rest = []) (hr : c.require mode kind = .ok d) :
    d.rest = [] := by
  rcases require_eq_ok_iff.1 hr with ⟨t, hn, -⟩ | ⟨-, -, rfl⟩
  · simp [next?_of_rest_nil h] at hn
  · exact h

theorem require_of_rest_nil (kind : TokenKind) (h : c.rest = []) :
    ∃ d, c.require .tolerant kind = .ok d ∧ d.rest = [] :=
  ⟨_, require_eq_ok_iff.2 (.inr ⟨by simp [kind?_of_rest_nil h], rfl, rfl⟩), h⟩

theorem expect_of_rest_nil (kind : TokenKind) (h : c.rest = []) :
    ∃ d, c.expect .tolerant kind = .ok (none, d) ∧ d.rest = [] :=
  ⟨_, expect_eq_ok_iff.2 (.inr ⟨rfl, by simp [kind?_of_rest_nil h], rfl, rfl⟩), h⟩

end

/-- Whether a phrase counts its rounds within the limit. -/
def Phrase.InLimit : Phrase → Prop
  | operators _ _ rounds _ | params _ rounds | suffixes rounds _ _ => rounds < loopLimit
  | _ => True

theorem Reads.inLimit {r : p.Result} (h : Reads mode p c r d) : p.InLimit := by
  cases h <;> simp_all [Phrase.InLimit]

/-- Whether a phrase requires a statement or a target at the start. -/
def Phrase.isDemanding : Phrase → Bool
  | statement | simpleStatement | forTail _ | initializer | iterator | declaration
  | assignment => true
  | expr _ | operand | operators _ _ _ _ | prefixOperator _ _ | operator _ _ | arguments
  | functionTail _ | lambdaTail _ | params _ _ | statements _ | condition | block
  | suffixes _ _ _ => false

/-- Where the tokens have ended, the tolerant mode reads what does not demand a statement. -/
theorem reads_of_rest_nil (p : Phrase) (hc : c.rest = []) (hl : p.InLimit)
    (hp : p.isDemanding = false) : ∃ r d, Reads .tolerant p c r d ∧ d.rest = [] := by
  have hkind := kind?_of_rest_nil hc
  -- a missing expression is a placeholder, and a missing block is an empty one
  have hexpr : ∀ {c : Cursor} depth, c.rest = [] → ∃ e, Reads .tolerant (.expr depth) c e c := by
    intro c depth hc
    have hkind := kind?_of_rest_nil hc
    exact ⟨_, .exprOperators (by simp [hkind]) (by simp [hkind])
      (.operandNone (by simp [hkind]) (by simp [hkind]))
      (.operatorsMissing (by decide) (.prefixDone (by simp [hkind, noPrefix])) rfl)⟩
  have hblock : ∀ {c : Cursor}, c.rest = [] →
      ∃ s d, Reads .tolerant .block c s d ∧ d.rest = [] := by
    intro c hc
    obtain ⟨c₁, h₁, hc₁⟩ := require_of_rest_nil .leftBrace hc
    obtain ⟨c₂, h₂, hc₂⟩ := require_of_rest_nil .rightBrace hc₁
    exact ⟨_, c₂, .block h₁ (.statementsDone (.inl (kind?_of_rest_nil hc₁))) h₂, hc₂⟩
  cases p with
  | expr depth =>
    obtain ⟨e, he⟩ := hexpr depth hc
    exact ⟨e, c, he, hc⟩
  | operand => exact ⟨none, c, .operandNone (by simp [hkind]) (by simp [hkind]), hc⟩
  | operators depth start rounds left =>
    cases left with
    | none => exact ⟨_, c, .operatorsMissing hl (.prefixDone (by simp [hkind, noPrefix])) rfl, hc⟩
    | some left =>
      refine ⟨left, c, .operatorsDone hl ?_, hc⟩
      rw [splitNegative_of_rest_nil hc]
      exact .infixDone (by simp [hkind, noInfix])
  | prefixOperator depth start => exact ⟨.done, c, .prefixDone (by simp [hkind, noPrefix]), hc⟩
  | operator depth left => exact ⟨.done, c, .infixDone (by simp [hkind, noInfix]), hc⟩
  | arguments =>
    obtain ⟨e, he⟩ := hexpr 1 hc
    obtain ⟨d, hd, hd'⟩ := require_of_rest_nil .rightParen hc
    exact ⟨e, d, .argumentsSome (by simp [hkind]) he hd, hd'⟩
  | functionTail start =>
    obtain ⟨c₁, h₁, hc₁⟩ := expect_of_rest_nil .leftParen hc
    obtain ⟨s, d, hs, hd⟩ := hblock hc₁
    exact ⟨_, d, .functionMissing h₁ hs, hd⟩
  | lambdaTail start =>
    obtain ⟨c₁, h₁, hc₁⟩ := expect_of_rest_nil .identifier hc
    obtain ⟨e, he⟩ := hexpr 0 hc₁
    exact ⟨_, c₁, .lambda (.paramsNone (by decide) h₁) he, hc₁⟩
  | params closing rounds =>
    obtain ⟨c₁, h₁, hc₁⟩ := expect_of_rest_nil .identifier hc
    exact ⟨[], c₁, .paramsNone hl h₁, hc₁⟩
  | statements rounds => exact ⟨[], c, .statementsDone (.inl hkind), hc⟩
  | condition =>
    obtain ⟨e, he⟩ := hexpr 0 hc
    obtain ⟨d, hd, hd'⟩ := require_of_rest_nil .semicolon hc
    exact ⟨some e, d, .conditionSome (by simp [hkind]) he hd, hd'⟩
  | block => exact hblock hc
  | suffixes rounds node isCall => exact ⟨(node, isCall), c, .suffixesDone hl (by simp [hkind]), hc⟩
  | statement | simpleStatement | forTail | initializer | iterator | declaration | assignment =>
    cases hp

/-- Where the tokens have ended, there is no statement. -/
theorem not_reads_of_rest_nil (hc : c.rest = []) (hp : p.isDemanding = true) {r : p.Result} :
    ¬Reads mode p c r d := by
  intro h
  induction h <;> grind [Phrase.isDemanding, next?_of_rest_nil, rest_of_require_nil, kind?_of_rest_nil]

/-- Whether the tokens end where a phrase that starts with them requires a statement. -/
def Phrase.isStuck (tokens : List Token) : Phrase → Bool
  | forTail _ => awaitsStatement tokens || !headerFollows tokens
  | statement | simpleStatement | initializer | iterator | declaration | assignment =>
    awaitsStatement tokens || tokens.isEmpty
  | expr _ | operand | operators _ _ _ _ | prefixOperator _ _ | operator _ _ | arguments
  | functionTail _ | lambdaTail _ | params _ _ | statements _ | condition | block
  | suffixes _ _ _ => awaitsStatement tokens

theorem Phrase.isStuck_nil : p.isStuck [] = p.isDemanding := by
  cases p <;> simp [isStuck, awaitsStatement, headerFollows, isDemanding]

theorem reads_of_isStuck (hl : p.InLimit) (hs : p.isStuck c'.rest = false) (hd : d.weight ≤ W)
    (h : c'.rest ≠ [] → ∃ r d', Reads .tolerant p c' r d' ∧ Past W d d') :
    ∃ r d', Reads .tolerant p c' r d' ∧ Past W d d' := by
  by_cases hc : c'.rest = []
  · rw [hc, Phrase.isStuck_nil] at hs
    obtain ⟨r, d', hr, hd'⟩ := reads_of_rest_nil p hc hl hs
    exact ⟨r, d', hr, hd, hd'⟩
  · exact h hc

/-- What can be read strictly can be read tolerantly at the end, unless it demands a statement. -/
theorem Reads.of_past {r : p.Result} (h : Reads .strict p c r d) (hc : Past W c c')
    (hp : p.isDemanding = false) : ∃ r' d', Reads .tolerant p c' r' d' ∧ Past W d d' := by
  obtain ⟨r, d', hr, hd'⟩ := reads_of_rest_nil p hc.rest h.inLimit hp
  exact ⟨r, d', hr, Nat.le_trans h.weight.1 hc.weight, hd'⟩

theorem require_of_past {kind : TokenKind} (h : c.require .strict kind = .ok d)
    (hc : Past W c c') : ∃ d', c'.require .tolerant kind = .ok d' ∧ Past W d d' := by
  obtain ⟨d', hr, hd'⟩ := require_of_rest_nil kind hc.rest
  exact ⟨d', hr, Nat.le_trans (weight_le_of_require h) hc.weight, hd'⟩

theorem expect_of_past {kind : TokenKind} {t? : Option Token}
    (h : c.expect .strict kind = .ok (t?, d)) (hc : Past W c c') :
    ∃ d', c'.expect .tolerant kind = .ok (none, d') ∧ Past W d d' := by
  obtain ⟨d', hr, hd'⟩ := expect_of_rest_nil kind hc.rest
  exact ⟨d', hr, Nat.le_trans (weight_le_of_expect h) hc.weight, hd'⟩

section

variable {t name : Token} {c₁ c₂ : Cursor}

theorem reads_params_of_rest_nil {closing : TokenKind} {rounds : Nat} (hr : rounds < loopLimit)
    (hn : c.expect .tolerant .identifier = .ok (some name, c₁)) (hc : c₁.rest = []) :
    ∃ r d, Reads .tolerant (.params closing rounds) c r d ∧ d.rest = [] := by
  obtain ⟨d, he, hd⟩ := expect_of_rest_nil .comma hc
  exact ⟨_, d, .paramsCut hr hn (by simp [kind?_of_rest_nil hc]) he, hd⟩

theorem reads_functionTail_of_rest_nil {start : Nat}
    (hn : c.expect .tolerant .leftParen = .ok (some t, c₁)) (hc : c₁.rest = []) :
    ∃ r d, Reads .tolerant (.functionTail start) c r d ∧ d.rest = [] := by
  obtain ⟨c₂, he, hc₂⟩ := expect_of_rest_nil .identifier hc
  obtain ⟨s, d, hs, hd⟩ := reads_of_rest_nil .block hc₂ trivial rfl
  exact ⟨_, d, .functionParams hn (by simp [kind?_of_rest_nil hc])
    (.paramsNone (by decide) he) hs, hd⟩

theorem reads_return_of_rest_nil (hn : c.next? = some (t, c₁)) (hk : t.kind = .returnWord)
    (hc : c₁.rest = []) : ∃ r d, Reads .tolerant .statement c r d ∧ d.rest = [] := by
  obtain ⟨e, c₂, he, hc₂⟩ := reads_of_rest_nil (.expr 0) hc trivial rfl
  obtain ⟨d, hq, hd⟩ := require_of_rest_nil .semicolon hc₂
  exact ⟨_, d, .statementReturnValue hn hk (by simp [kind?_of_rest_nil hc]) he hq, hd⟩

theorem reads_declaration_of_rest_nil {name? : Option Token} (hn : c.next? = some (t, c₁))
    (hk : t.kind = .letWord) (he : c₁.expect .tolerant .identifier = .ok (name?, c₂))
    (hc : c₂.rest = []) : ∃ r d, Reads .tolerant .declaration c r d ∧ d.rest = [] :=
  ⟨_, c₂, .declarationBare hn hk he (.inl (kind?_of_rest_nil hc)), hc⟩

theorem reads_assignment_of_rest_nil {r : Expr × Bool} (hn : c.next? = some (t, c₁))
    (hk : t.kind = .identifier)
    (hs : Reads .tolerant (.suffixes 0 (.name t.span t.text) false) c₁ r c₂)
    (hc : c₂.rest = []) : ∃ r d, Reads .tolerant .assignment c r d ∧ d.rest = [] := by
  obtain ⟨e, isCall⟩ := r
  cases isCall with
  | true => exact ⟨_, c₂, .assignmentCall hn hk hs, hc⟩
  | false =>
    exact ⟨_, c₂, .assignmentMissing hn hk hs (by simp [kind?_of_rest_nil hc]) rfl, hc⟩

end

/-- What is left of the tokens in front of a cut does not depend on how the cut was reached. -/
theorem rest_eq_of_cuts {c'' : Cursor} (h : Cuts W c c') (h' : Cuts W c c'') :
    c'.rest = c''.rest := by
  obtain ⟨a, ha, hsum⟩ := h.rest
  obtain ⟨b, hb, hsum'⟩ := h'.rest
  have hlen : ∀ tokens : List Token, (tokens.map tokenWeight).sum = 0 → tokens = [] := by
    intro tokens h0
    cases tokens with
    | nil => rfl
    | cons t tokens =>
      have := one_le_tokenWeight t
      simp at h0
      omega
  rcases List.append_eq_append_iff.1 (ha.symm.trans hb) with ⟨x, hx, hy⟩ | ⟨x, hx, hy⟩
  · rw [hy, List.map_append, List.sum_append] at hsum
    rw [hx, hlen x (by omega), List.append_nil]
  · rw [hy, List.map_append, List.sum_append] at hsum'
    rw [hx, hlen x (by omega), List.append_nil]

/-- What ends in front of a cut is read alike on both sides of it, and leaves the headers alone. -/
theorem Reads.skip_parens {r : p.Result} (h : Reads .strict p c r d) (hp : p.IsProper)
    (hc : Cuts W c c') (hd : W < d.weight) :
    ∃ d', Reads .tolerant p c' r d' ∧ Cuts W d d' ∧ d'.rest ≠ [] ∧
      awaitsStatement c'.rest = awaitsStatement d'.rest ∧
      ∀ n, closeParens (n + 1) c'.rest = closeParens (n + 1 - p.closes) d'.rest := by
  obtain ⟨d', hs, hd'⟩ := h.cut .strict hc hd
  obtain ⟨d'', ht, hd''⟩ := h.cut .tolerant hc hd
  obtain ⟨ha, hb, -⟩ := hs.passes hp
  rw [rest_eq_of_cuts hd' hd''] at ha hb
  exact ⟨d'', ht, hd'', hd''.rest_ne_nil hd, ha, hb⟩

theorem Reads.skip {r : p.Result} (h : Reads .strict p c r d) (hp : p.IsProper)
    (hc : Cuts W c c') (hd : W < d.weight) :
    ∃ d', Reads .tolerant p c' r d' ∧ Cuts W d d' ∧ d'.rest ≠ [] ∧
      awaitsStatement c'.rest = awaitsStatement d'.rest := by
  obtain ⟨d', hr, hd', hne, ha, -⟩ := h.skip_parens hp hc hd
  exact ⟨d', hr, hd', hne, ha⟩

/-- A header that is complete in front of a cut is read up to its body. -/
theorem header_of_headerFollows {c₂ c₃ c₄ : Cursor} {e : Expr}
    (hp : c.require .strict .leftParen = .ok c₂) (he : Reads .strict (.expr 0) c₂ e c₃)
    (hq : c₃.require .strict .rightParen = .ok c₄) (hc : Cuts W c c')
    (hh : headerFollows c'.rest = true) :
    ∃ c₂' c₃' c₄', c'.require .tolerant .leftParen = .ok c₂' ∧
      Reads .tolerant (.expr 0) c₂' e c₃' ∧ c₃'.require .tolerant .rightParen = .ok c₄' ∧
      Cuts W c₄ c₄' ∧ c₄'.rest ≠ [] ∧ awaitsStatement c'.rest = awaitsStatement c₄'.rest := by
  rcases hc.require_or hp with hnil | ⟨l, c₂', hp', hc₂, hr, hl⟩
  · rw [hnil.rest] at hh
    cases hh
  · simp only [headerFollows, hr, hl, beq_self_eq_true, Bool.true_and] at hh
    obtain ⟨rest, hclose, hrest⟩ := (Option.any_eq_true _ _).1 hh
    cases rest with
    | nil => cases hrest
    | cons x xs =>
      have hlt := he.lt_weight_of_closeParens trivial hc₂ hclose
      obtain ⟨c₃', he', hc₃, hne, ha, hb⟩ := he.skip_parens trivial hc₂ hlt
      rcases hc₃.require_or hq with hnil | ⟨q, c₄', hq', hc₄, hr', hk⟩
      · exact absurd hnil.rest hne
      · have hx : c₄'.rest = x :: xs := by
          have := hb 0
          rw [hclose, hr'] at this
          simpa [Phrase.closes, closeParens, hk] using this.symm
        refine ⟨c₂', c₃', c₄', hp', he', hq', hc₄, by simp [hx], ?_⟩
        rw [hr, awaitsStatement_cons_of_paren (.inl hl), ha, hr', 
          awaitsStatement_cons_of_paren (.inr hk)]

-- as in the lemmas on cuts, linear arithmetic over ordered fields would only take time below
attribute [local grind →] Reads.weight weight_lt_of_next? weight_lt_of_require_strict
  weight_lt_of_expect_strict Cuts.next?_of_lt Cuts.position_of_lt Cuts.kind?_of_lt

attribute [local grind .] Cuts.spanFrom

attribute [local grind →] Cuts.next?_or Cuts.require_or Cuts.expect_or Reads.skip
  Reads.of_past require_of_past expect_of_past isPlain_of_binary isPlain_of_unary isPlain_of_assign
  Past.rest Past.weight Cuts.weight Cuts.past_of_le

attribute [local grind ←] Past.mk

attribute [local grind =] awaitsStatement_cons_of_isPlain isPlain Phrase.IsProper Phrase.isDemanding
  Phrase.isStuck awaitsStatement

/-- Where what is strictly read goes on to the cut or behind it, the tolerant mode reads up to the
cut, unless a statement is required there. -/
theorem Reads.up_to_cut {r : p.Result} (h : Reads .strict p c r d) (hp : p.IsProper)
    (hc : Cuts W c c') (hd : d.weight ≤ W) (hs : p.isStuck c'.rest = false) :
    ∃ r' d', Reads .tolerant p c' r' d' ∧ Past W d d' := by
  induction h generalizing c' with
  | operatorsMissing _ _ hm => cases hm
  | assignmentMissing _ _ _ _ hm => cases hm
  | @exprFunction depth =>
    refine reads_of_isStuck trivial hs hd fun hne => ?_
    have rule := @Reads.exprFunction .tolerant depth c'
    grind -linarith
  | @exprLambda depth =>
    refine reads_of_isStuck trivial hs hd fun hne => ?_
    have rule := @Reads.exprLambda .tolerant depth c'
    grind -linarith
  | @exprOperators depth c₀ node? c₁ e c₂ hf hl ho hops iho ihops =>
    refine reads_of_isStuck trivial hs hd fun hne => ?_
    rw [← hc.position hne] at hops ihops
    rw [← hc.kind? hne] at hf hl
    rcases Nat.lt_or_ge W c₁.weight with hlt | hge
    · obtain ⟨c₁', ho', hc₁, -, ha₁⟩ := ho.skip trivial hc hlt
      obtain ⟨e, d', hops', hd'⟩ := ihops trivial hc₁ hd (ha₁.symm.trans hs)
      exact ⟨e, d', .exprOperators hf hl ho' hops', hd'⟩
    · obtain ⟨node?, c₁', ho', hc₁⟩ := iho trivial hc hge hs
      obtain ⟨e, d', hops', hd'⟩ :=
        reads_of_rest_nil (.operators depth c'.position 0 node?) hc₁.rest
          (show 0 < loopLimit by decide) rfl
      exact ⟨e, d', .exprOperators hf hl ho' hops', hd, hd'⟩
  | operandParens =>
    refine reads_of_isStuck trivial hs hd fun hne => ?_
    have rule := @Reads.operandParens .tolerant c'
    grind -linarith
  | operandAtom =>
    refine reads_of_isStuck trivial hs hd fun hne => ?_
    have rule := @Reads.operandAtom .tolerant c'
    grind -linarith
  | operandNone =>
    refine reads_of_isStuck trivial hs hd fun hne => ?_
    have rule := @Reads.operandNone .tolerant c'
    grind -linarith
  | operatorsPrefix hr hstep hops ihstep ihops =>
    refine reads_of_isStuck hr hs hd fun hne => ?_
    rcases Nat.lt_or_ge W _ with hlt | hge
    · obtain ⟨c₁', hstep', hc₁, -, ha₁⟩ := hstep.skip trivial hc hlt
      obtain ⟨e, d', hops', hd'⟩ := ihops trivial hc₁ hd (ha₁.symm.trans hs)
      exact ⟨e, d', .operatorsPrefix hr hstep' hops', hd'⟩
    · obtain ⟨step, c₁', hstep', hc₁⟩ := ihstep trivial hc hge hs
      cases step with
      | done =>
        cases hstep'
        exact absurd hc₁.rest hne
      | more e =>
        obtain ⟨e', d', hops', hd'⟩ := reads_of_rest_nil (.operators _ _ _ (some e)) hc₁.rest
          hops.inLimit rfl
        exact ⟨e', d', .operatorsPrefix hr hstep' hops', hd, hd'⟩
  | operatorsMore hr hstep hops ihstep ihops =>
    refine reads_of_isStuck hr hs hd fun hne => ?_
    have hs₁ : awaitsStatement c'.splitNegative.rest = false :=
      (passes_splitNegative c').1.trans hs
    rcases Nat.lt_or_ge W _ with hlt | hge
    · obtain ⟨c₁', hstep', hc₁, -, ha₁⟩ := hstep.skip trivial hc.splitNegative hlt
      obtain ⟨e, d', hops', hd'⟩ := ihops trivial hc₁ hd (ha₁.symm.trans hs₁)
      exact ⟨e, d', .operatorsMore hr hstep' hops', hd'⟩
    · obtain ⟨step, c₁', hstep', hc₁⟩ := ihstep trivial hc.splitNegative hge hs₁
      cases step with
      | done =>
        cases hstep'
        rcases rest_splitNegative c' with h | ⟨_, _, _, _, -, h, -⟩
        · exact absurd (h.symm.trans hc₁.rest) hne
        · exact absurd (h.symm.trans hc₁.rest) (by simp)
      | more e =>
        obtain ⟨e', d', hops', hd'⟩ := reads_of_rest_nil (.operators _ _ _ (some e)) hc₁.rest
          hops.inLimit rfl
        exact ⟨e', d', .operatorsMore hr hstep' hops', hd, hd'⟩
  | operatorsDone hr hstep ihstep =>
    refine reads_of_isStuck hr hs hd fun hne => ?_
    cases hstep
    rw [weight_splitNegative] at hd
    exact absurd (hc.past_of_le hd).rest hne
  | @prefixDone depth start =>
    refine reads_of_isStuck trivial hs hd fun hne => ?_
    have rule := @Reads.prefixDone .tolerant depth start c'
    grind -linarith
  | @prefixUnary depth start =>
    refine reads_of_isStuck trivial hs hd fun hne => ?_
    have rule := @Reads.prefixUnary .tolerant depth start c'
    grind -linarith
  | @infixDone depth left =>
    refine reads_of_isStuck trivial hs hd fun hne => ?_
    have rule := @Reads.infixDone .tolerant depth left c'
    grind -linarith
  | @infixMember depth left =>
    refine reads_of_isStuck trivial hs hd fun hne => ?_
    have rule := @Reads.infixMember .tolerant depth left c'
    grind -linarith
  | @infixCall depth left =>
    refine reads_of_isStuck trivial hs hd fun hne => ?_
    have rule := @Reads.infixCall .tolerant depth left c'
    grind -linarith
  | @infixSubscript depth left =>
    refine reads_of_isStuck trivial hs hd fun hne => ?_
    have rule := @Reads.infixSubscript .tolerant depth left c'
    grind -linarith
  | @infixTernary depth left =>
    refine reads_of_isStuck trivial hs hd fun hne => ?_
    have rule := @Reads.infixTernary .tolerant depth left c'
    grind -linarith
  | @infixBinary depth left =>
    refine reads_of_isStuck trivial hs hd fun hne => ?_
    have rule := @Reads.infixBinary .tolerant depth left c'
    grind -linarith
  | argumentsNone =>
    refine reads_of_isStuck trivial hs hd fun hne => ?_
    have rule := @Reads.argumentsNone .tolerant c'
    grind -linarith
  | argumentsSome =>
    refine reads_of_isStuck trivial hs hd fun hne => ?_
    have rule := @Reads.argumentsSome .tolerant c'
    grind -linarith
  | functionMissing he =>
    obtain ⟨-, ⟨⟩, -⟩ := rest_of_expect_strict he
  | @functionBare start =>
    refine reads_of_isStuck trivial hs hd fun hne => ?_
    have rule := @Reads.functionBare .tolerant start c'
    have cut := fun t c₁ => @reads_functionTail_of_rest_nil c' t c₁ start
    grind -linarith
  | @functionParams start =>
    refine reads_of_isStuck trivial hs hd fun hne => ?_
    have rule := @Reads.functionParams .tolerant start c'
    grind -linarith [Cuts.kind?_ne, kind?_of_rest_nil]
  | @lambda start =>
    refine reads_of_isStuck trivial hs hd fun hne => ?_
    have rule := @Reads.lambda .tolerant start c'
    grind -linarith
  | paramsNone _ he =>
    obtain ⟨-, ⟨⟩, -⟩ := rest_of_expect_strict he
  | @paramsLast closing rounds =>
    refine reads_of_isStuck (by assumption) hs hd fun hne => ?_
    have rule := @Reads.paramsLast .tolerant closing rounds c'
    have cut := fun name c₁ => @reads_params_of_rest_nil c' name c₁ closing rounds
    grind -linarith
  | paramsCut _ _ _ he =>
    obtain ⟨-, ⟨⟩, -⟩ := rest_of_expect_strict he
  | @paramsMore closing rounds =>
    refine reads_of_isStuck (by assumption) hs hd fun hne => ?_
    have rule := @Reads.paramsMore .tolerant closing rounds c'
    have cut := fun name c₁ => @reads_params_of_rest_nil c' name c₁ closing rounds
    grind -linarith [Cuts.kind?_ne]
  | @statementsDone rounds =>
    refine reads_of_isStuck trivial hs hd fun hne => ?_
    have rule := @Reads.statementsDone .tolerant rounds c'
    grind -linarith
  | @statementsMore rounds =>
    refine reads_of_isStuck trivial hs hd fun hne => ?_
    have rule := @Reads.statementsMore .tolerant rounds c'
    grind -linarith
  | statementBlock =>
    refine reads_of_isStuck trivial hs hd fun hne => ?_
    have rule := @Reads.statementBlock .tolerant c'
    grind -linarith
  | statementReturn =>
    refine reads_of_isStuck trivial hs hd fun hne => ?_
    have rule := @Reads.statementReturn .tolerant c'
    grind -linarith [→ reads_return_of_rest_nil]
  | statementReturnValue =>
    refine reads_of_isStuck trivial hs hd fun hne => ?_
    have rule := @Reads.statementReturnValue .tolerant c'
    grind -linarith [Cuts.kind?_ne, kind?_of_rest_nil]
  | statementBreak =>
    refine reads_of_isStuck trivial hs hd fun hne => ?_
    have rule := @Reads.statementBreak .tolerant c'
    grind -linarith
  | statementContinue =>
    refine reads_of_isStuck trivial hs hd fun hne => ?_
    have rule := @Reads.statementContinue .tolerant c'
    grind -linarith
  | statementIf hn hk hl he hq hs' hnot ihe ihs =>
    refine reads_of_isStuck trivial hs hd fun hne => ?_
    obtain ⟨c₁', hn', hc₁, hr⟩ := (hc.next?_or hn).resolve_left fun h => hne h.rest
    have hh : headerFollows c₁'.rest = true ∧ awaitsStatement c₁'.rest = false := by
      simpa [Phrase.isStuck, hr, awaitsStatement, hk, startsHeader] using hs
    obtain ⟨c₂', c₃', c₄', hl', he', hq', hc₄, hne₄, ha⟩ :=
      header_of_headerFollows hl he hq hc₁ hh.1
    obtain ⟨s', d', hs', hd'⟩ := ihs trivial hc₄ hd (by simp [Phrase.isStuck, ← ha, hh, hne₄])
    exact ⟨_, d', .statementIf hn' hk hl' he' hq' hs' (by simp [kind?_of_rest_nil hd'.rest]), hd'⟩
  | statementIfElse hn hk hl he hq hs' hn₅ hk₅ hs₆ ihe ihs ihs' =>
    refine reads_of_isStuck trivial hs hd fun hne => ?_
    obtain ⟨c₁', hn', hc₁, hr⟩ := (hc.next?_or hn).resolve_left fun h => hne h.rest
    have hh : headerFollows c₁'.rest = true ∧ awaitsStatement c₁'.rest = false := by
      simpa [Phrase.isStuck, hr, awaitsStatement, hk, startsHeader] using hs
    obtain ⟨c₂', c₃', c₄', hl', he', hq', hc₄, hne₄, ha⟩ :=
      header_of_headerFollows hl he hq hc₁ hh.1
    have ha₄ := ha.symm.trans hh.2
    rcases Nat.lt_or_ge W _ with hlt | hge
    · obtain ⟨c₅', hs₄, hc₅, hne₅, ha₅⟩ := hs'.skip trivial hc₄ hlt
      obtain ⟨c₆', hn₅', hc₆, hr₅⟩ := (hc₅.next?_or hn₅).resolve_left fun h => hne₅ h.rest
      have hstuck : Phrase.statement.isStuck c₆'.rest = false := by
        rw [ha₅, hr₅] at ha₄
        simpa [Phrase.isStuck, awaitsStatement, hk₅, startsHeader, and_comm] using ha₄
      obtain ⟨s', d', hs₆', hd'⟩ := ihs' trivial hc₆ hd hstuck
      exact ⟨_, d', .statementIfElse hn' hk hl' he' hq' hs₄ hn₅' hk₅ hs₆', hd'⟩
    · obtain ⟨s', d', hs₄, hd'⟩ := ihs trivial hc₄ hge (by simp [Phrase.isStuck, ha₄, hne₄])
      exact ⟨_, d', .statementIf hn' hk hl' he' hq' hs₄ (by simp [kind?_of_rest_nil hd'.rest]),
        hd, hd'.rest⟩
  | statementFor hn hk hs' ihs =>
    refine reads_of_isStuck trivial hs hd fun hne => ?_
    obtain ⟨c₁', hn', hc₁, hr⟩ := (hc.next?_or hn).resolve_left fun h => hne h.rest
    have hh : headerFollows c₁'.rest = true ∧ awaitsStatement c₁'.rest = false := by
      simpa [Phrase.isStuck, hr, awaitsStatement, hk, startsHeader] using hs
    rw [← hc.position hne] at ihs
    obtain ⟨s', d', hs', hd'⟩ := ihs trivial hc₁ hd (by simp [Phrase.isStuck, hh])
    exact ⟨_, d', .statementFor hn' hk hs', hd'⟩
  | statementWhile hn hk hl he hq hs' ihe ihs =>
    refine reads_of_isStuck trivial hs hd fun hne => ?_
    obtain ⟨c₁', hn', hc₁, hr⟩ := (hc.next?_or hn).resolve_left fun h => hne h.rest
    have hh : headerFollows c₁'.rest = true ∧ awaitsStatement c₁'.rest = false := by
      simpa [Phrase.isStuck, hr, awaitsStatement, hk, startsHeader] using hs
    obtain ⟨c₂', c₃', c₄', hl', he', hq', hc₄, hne₄, ha⟩ :=
      header_of_headerFollows hl he hq hc₁ hh.1
    obtain ⟨s', d', hs', hd'⟩ := ihs trivial hc₄ hd (by simp [Phrase.isStuck, ← ha, hh, hne₄])
    exact ⟨_, d', .statementWhile hn' hk hl' he' hq' hs', hd'⟩
  | statementEmpty =>
    refine reads_of_isStuck trivial hs hd fun hne => ?_
    have rule := @Reads.statementEmpty .tolerant c'
    grind -linarith
  | statementSimple =>
    refine reads_of_isStuck trivial hs hd fun hne => ?_
    have rule := @Reads.statementSimple .tolerant c'
    grind -linarith
  | simple =>
    refine reads_of_isStuck trivial hs hd fun hne => ?_
    have rule := @Reads.simple .tolerant c'
    grind -linarith
  | forLoop hl hi he hstep hs' ihi ihe ihstep ihs =>
    refine reads_of_isStuck trivial hs hd fun hne => ?_
    obtain ⟨l, c₁', hl', hc₁, hr, hkl⟩ := (hc.require_or hl).resolve_left fun h => hne h.rest
    have hh : awaitsStatement c'.rest = false ∧ headerFollows c'.rest = true := by
      simpa [Phrase.isStuck] using hs
    have ha₁ : awaitsStatement c₁'.rest = false := by
      rw [← awaitsStatement_cons_of_paren (.inl hkl), ← hr]
      exact hh.1
    have hclose := hh.2
    simp only [headerFollows, hr, hkl, beq_self_eq_true, Bool.true_and] at hclose
    obtain ⟨rest, hclose, hrest⟩ := (Option.any_eq_true _ _).1 hclose
    cases rest with
    | nil => cases hrest
    | cons x xs =>
      -- each part of the header ends in front of the cut, for the parenthesis is closed behind it
      obtain ⟨c₂', hi', hc₂, -, ha₂, hb₂⟩ :=
        hi.skip_parens trivial hc₁ (hi.lt_weight_of_closeParens trivial hc₁ hclose)
      have hclose₂ : closeParens 1 c₂'.rest = some (x :: xs) := (hb₂ 0).symm.trans hclose
      obtain ⟨c₃', he', hc₃, -, ha₃, hb₃⟩ :=
        he.skip_parens trivial hc₂ (he.lt_weight_of_closeParens trivial hc₂ hclose₂)
      have hclose₃ : closeParens 1 c₃'.rest = some (x :: xs) := (hb₃ 0).symm.trans hclose₂
      obtain ⟨c₄', hstep', hc₄, hne₄, ha₄, -⟩ :=
        hstep.skip_parens trivial hc₃ (hstep.lt_weight_of_closeParens trivial hc₃ hclose₃)
      have hstuck : Phrase.statement.isStuck c₄'.rest = false := by
        simp [Phrase.isStuck, ← ha₄, ← ha₃, ← ha₂, ha₁, hne₄]
      obtain ⟨s', d', hs₄, hd'⟩ := ihs trivial hc₄ hd hstuck
      exact ⟨_, d', .forLoop hl' hi' he' hstep' hs₄, hd'⟩
  | initializerNone =>
    refine reads_of_isStuck trivial hs hd fun hne => ?_
    have rule := @Reads.initializerNone .tolerant c'
    grind -linarith
  | initializerSome =>
    refine reads_of_isStuck trivial hs hd fun hne => ?_
    have rule := @Reads.initializerSome .tolerant c'
    grind -linarith
  | conditionNone =>
    refine reads_of_isStuck trivial hs hd fun hne => ?_
    have rule := @Reads.conditionNone .tolerant c'
    grind -linarith
  | conditionSome =>
    refine reads_of_isStuck trivial hs hd fun hne => ?_
    have rule := @Reads.conditionSome .tolerant c'
    grind -linarith
  | iteratorNone =>
    refine reads_of_isStuck trivial hs hd fun hne => ?_
    have rule := @Reads.iteratorNone .tolerant c'
    grind -linarith
  | iteratorSome =>
    refine reads_of_isStuck trivial hs hd fun hne => ?_
    have rule := @Reads.iteratorSome .tolerant c'
    grind -linarith
  | block =>
    refine reads_of_isStuck trivial hs hd fun hne => ?_
    have rule := @Reads.block .tolerant c'
    grind -linarith
  | declarationAssignment =>
    refine reads_of_isStuck trivial hs hd fun hne => ?_
    have rule := @Reads.declarationAssignment .tolerant c'
    grind -linarith
  | declarationBare =>
    refine reads_of_isStuck trivial hs hd fun hne => ?_
    have rule := @Reads.declarationBare .tolerant c'
    grind -linarith [Cuts.kind?, kind?_of_rest_nil]
  | declarationValue =>
    refine reads_of_isStuck trivial hs hd fun hne => ?_
    have rule := @Reads.declarationValue .tolerant c'
    grind -linarith [→ reads_declaration_of_rest_nil, Cuts.kind?]
  | assignmentCall =>
    refine reads_of_isStuck trivial hs hd fun hne => ?_
    grind -linarith [→ reads_assignment_of_rest_nil]
  | assignmentValue =>
    refine reads_of_isStuck trivial hs hd fun hne => ?_
    have rule := @Reads.assignmentValue .tolerant c'
    grind -linarith [→ reads_assignment_of_rest_nil]
  | @suffixesDone rounds node isCall =>
    refine reads_of_isStuck (by assumption) hs hd fun hne => ?_
    have rule := @Reads.suffixesDone .tolerant rounds node isCall c'
    grind -linarith
  | suffixesMember hr hn hk he hsuf ihe ihsuf =>
    refine reads_of_isStuck hr hs hd fun hne => ?_
    obtain ⟨c₁', hn', hc₁, hrest⟩ := (hc.next?_or hn).resolve_left fun h => hne h.rest
    have hs₁ : awaitsStatement c₁'.rest = false := by
      rw [← awaitsStatement_cons_of_isPlain (t := _) (by rw [hk]; rfl), ← hrest]
      exact hs
    rcases Nat.lt_or_ge W _ with hlt | hge
    · obtain ⟨c₂', he', hc₂, -, ha₂⟩ := he.skip trivial hc₁ hlt
      obtain ⟨r, d', hsuf', hd'⟩ := ihsuf trivial hc₂ hd (ha₂.symm.trans hs₁)
      exact ⟨r, d', .suffixesMember hr hn' hk he' hsuf', hd'⟩
    · obtain ⟨e, c₂', he', hc₂⟩ := ihe trivial hc₁ hge hs₁
      obtain ⟨r, d', hsuf', hd'⟩ := reads_of_rest_nil (.suffixes _ (.join .member _ e) false) hc₂.rest
        hsuf.inLimit rfl
      exact ⟨r, d', .suffixesMember hr hn' hk he' hsuf', hd, hd'⟩
  | suffixesCall hr hn hk he hsuf ihe ihsuf =>
    refine reads_of_isStuck hr hs hd fun hne => ?_
    obtain ⟨c₁', hn', hc₁, hrest⟩ := (hc.next?_or hn).resolve_left fun h => hne h.rest
    have hs₁ : awaitsStatement c₁'.rest = false := by
      rw [← awaitsStatement_cons_of_paren (.inl hk), ← hrest]
      exact hs
    rcases Nat.lt_or_ge W _ with hlt | hge
    · obtain ⟨c₂', he', hc₂, -, ha₂⟩ := he.skip trivial hc₁ hlt
      obtain ⟨r, d', hsuf', hd'⟩ := ihsuf trivial hc₂ hd (ha₂.symm.trans hs₁)
      exact ⟨r, d', .suffixesCall hr hn' hk he' hsuf', hd'⟩
    · obtain ⟨e, c₂', he', hc₂⟩ := ihe trivial hc₁ hge hs₁
      obtain ⟨r, d', hsuf', hd'⟩ := reads_of_rest_nil (.suffixes _ (.join .call _ e) true) hc₂.rest
        hsuf.inLimit rfl
      exact ⟨r, d', .suffixesCall hr hn' hk he' hsuf', hd, hd'⟩
  | suffixesSubscript hr hn hk he hq hsuf ihe ihsuf =>
    refine reads_of_isStuck hr hs hd fun hne => ?_
    obtain ⟨c₁', hn', hc₁, hrest⟩ := (hc.next?_or hn).resolve_left fun h => hne h.rest
    have hs₁ : awaitsStatement c₁'.rest = false := by
      rw [← awaitsStatement_cons_of_isPlain (t := _) (by rw [hk]; rfl), ← hrest]
      exact hs
    rcases Nat.lt_or_ge W _ with hlt | hge
    · obtain ⟨c₂', he', hc₂, hne₂, ha₂⟩ := he.skip trivial hc₁ hlt
      obtain ⟨q, c₃', hq', hc₃, hrest₃, hkq⟩ :=
        (hc₂.require_or hq).resolve_left fun h => hne₂ h.rest
      have hs₃ : awaitsStatement c₃'.rest = false := by
        rw [← awaitsStatement_cons_of_isPlain (by rw [hkq]; rfl), ← hrest₃, ← ha₂]
        exact hs₁
      obtain ⟨r, d', hsuf', hd'⟩ := ihsuf trivial hc₃ hd hs₃
      exact ⟨r, d', .suffixesSubscript hr hn' hk he' hq' hsuf', hd'⟩
    · obtain ⟨e, c₂', he', hc₂⟩ := ihe trivial hc₁ hge hs₁
      obtain ⟨c₃', hq', hc₃⟩ := require_of_past hq hc₂
      obtain ⟨r, d', hsuf', hd'⟩ := reads_of_rest_nil (.suffixes _ (.join .subscript _ e) false) hc₃.rest
        hsuf.inLimit rfl
      exact ⟨r, d', .suffixesSubscript hr hn' hk he' hq' hsuf', hd, hd'⟩

/-! ## Where a statement is due -/

theorem not_reads_of_isStuck (hs : p.isStuck c'.rest = true) {r' : p.Result} {d' : Cursor}
    (h : c'.rest ≠ [] → ¬Reads .tolerant p c' r' d') : ¬Reads .tolerant p c' r' d' := by
  by_cases hc : c'.rest = []
  · rw [hc, Phrase.isStuck_nil] at hs
    exact not_reads_of_rest_nil hc hs
  · exact h hc

theorem rest_nil_of_weight_le (h : d.weight ≤ c.weight) (hc : c.rest = []) : d.rest = [] := by
  cases hr : d.rest with
  | nil => rfl
  | cons t rest =>
    have := one_le_tokenWeight t
    simp [Cursor.weight, hc, hr] at h
    omega

/-- A phrase that does not demand a statement in vain takes the tolerant mode to the end of the
tokens, or to where the strict mode has left it. -/
theorem Reads.next_or {r r' : p.Result} {d' : Cursor} (h : Reads .strict p c r d)
    (h' : Reads .tolerant p c' r' d') (hp : p.IsProper) (hc : Cuts W c c')
    (hs : d.weight ≤ W → p.isStuck c'.rest = false) :
    d'.rest = [] ∨ d'.rest ≠ [] ∧ Cuts W d d' ∧
      awaitsStatement c'.rest = awaitsStatement d'.rest ∧
      ∀ n, closeParens (n + 1) c'.rest = closeParens (n + 1 - p.closes) d'.rest := by
  rcases Nat.lt_or_ge W d.weight with hlt | hge
  · obtain ⟨d'', h'', hd, hne, ha, hb⟩ := h.skip_parens hp hc hlt
    obtain ⟨-, rfl⟩ := h''.unique h'
    exact .inr ⟨hne, hd, ha, hb⟩
  · obtain ⟨r'', d'', h'', hd⟩ := h.up_to_cut hp hc hge (hs hge)
    obtain ⟨-, rfl⟩ := h''.unique h'
    exact .inl hd.rest

/-- A header behind which the tolerant mode finds a token is complete. -/
theorem headerFollows_of_rest_ne_nil {c₂ c₃ c₄ c₂' c₃' c₄' : Cursor} {e e' : Expr}
    (hp : c.require .strict .leftParen = .ok c₂) (he : Reads .strict (.expr 0) c₂ e c₃)
    (hq : c₃.require .strict .rightParen = .ok c₄)
    (hp' : c'.require .tolerant .leftParen = .ok c₂') (he' : Reads .tolerant (.expr 0) c₂' e' c₃')
    (hq' : c₃'.require .tolerant .rightParen = .ok c₄') (hne : c₄'.rest ≠ []) (hc : Cuts W c c')
    (hs : Cuts W c₂ c₂' → c₃.weight ≤ W → Phrase.isStuck c₂'.rest (.expr 0) = false) :
    headerFollows c'.rest = true ∧ Cuts W c₄ c₄' ∧
      awaitsStatement c'.rest = awaitsStatement c₄'.rest := by
  have hne₃ : c₃'.rest ≠ [] := fun h => hne (rest_of_require_nil h hq')
  have hne₂ : c₂'.rest ≠ [] := fun h => hne₃ (rest_nil_of_weight_le he'.weight.1 h)
  rcases hc.require_or hp with hnil | ⟨l, c₂'', hp'', hc₂, hr, hl⟩
  · exact absurd (rest_of_require_nil hnil.rest hp') hne₂
  rw [hp'] at hp''
  cases hp''
  obtain ⟨-, hc₃, ha, hb⟩ := (he.next_or he' trivial hc₂ (hs hc₂)).resolve_left hne₃
  rcases hc₃.require_or hq with hnil | ⟨q, c₄'', hq'', hc₄, hr', hk⟩
  · exact absurd hnil.rest hne₃
  rw [hq'] at hq''
  cases hq''
  have hclose : closeParens 1 c₂'.rest = some c₄'.rest := by
    rw [hb 0, hr']
    simp [Phrase.closes, closeParens, hk]
  refine ⟨by simp [headerFollows, hr, hl, hclose, hne], hc₄, ?_⟩
  rw [hr, awaitsStatement_cons_of_paren (.inl hl), ha, hr', awaitsStatement_cons_of_paren (.inr hk)]

attribute [local grind →] isPlain_of_startsAtom startsAtom_of_atomOf? Reads.unique kind?_of_next?
  kind?_of_rest_nil Cuts.kind? Cuts.kind?_ne

attribute [local grind =] startsHeader noInfix

/-- Where what is strictly read goes on to the cut or behind it, and a statement is required there,
the tolerant mode reads nothing. -/
theorem Reads.not_reads_of_isStuck {r : p.Result} (h : Reads .strict p c r d) (hp : p.IsProper)
    (hc : Cuts W c c') (hd : d.weight ≤ W) (hs : p.isStuck c'.rest = true) (r' : p.Result)
    (d' : Cursor) : ¬Reads .tolerant p c' r' d' := by
  -- each case follows the tolerant reading up to where the strict one goes on; the phrase that
  -- reaches the cut first is stuck by induction
  induction h generalizing c' d' with
  | operatorsMissing _ _ hm => cases hm
  | assignmentMissing _ _ _ _ hm => cases hm
  | exprFunction =>
    refine not_reads_of_isStuck hs fun hne h' => ?_
    rw [← hc.position hne] at *
    grind -linarith [→ Reads.of_functionWord]
  | exprLambda =>
    refine not_reads_of_isStuck hs fun hne h' => ?_
    rw [← hc.position hne] at *
    grind -linarith [→ Reads.of_lambdaWord]
  | exprOperators hf hl ho hops iho ihops =>
    refine not_reads_of_isStuck hs fun hne h' => ?_
    rw [← hc.position hne] at hops ihops
    obtain ⟨node?', c₁', ho', hops'⟩ := h'.of_operand (hc.kind?_ne hf) (hc.kind?_ne hl)
    -- the operand lies in front of the cut, or it reaches the cut itself
    rcases Nat.lt_or_ge W _ with hlt | hge
    · obtain ⟨c₁'', ho'', hc₁, -, ha⟩ := ho.skip trivial hc hlt
      obtain ⟨rfl, rfl⟩ := ho''.unique ho'
      exact ihops trivial hc₁ hd (ha.symm.trans hs) _ _ hops'
    · exact iho trivial hc hge hs _ _ ho'
  | operandParens =>
    refine not_reads_of_isStuck hs fun hne h' => ?_
    grind -linarith [→ Reads.of_parens]
  | operandAtom =>
    refine not_reads_of_isStuck hs fun hne h' => ?_
    grind -linarith
  | operandNone =>
    refine not_reads_of_isStuck hs fun hne h' => ?_
    grind -linarith
  | operatorsPrefix =>
    refine not_reads_of_isStuck hs fun hne h' => ?_
    grind -linarith [→ Reads.of_operators_none]
  | operatorsMore hr hstep hops ihstep ihops =>
    refine not_reads_of_isStuck hs fun hne h' => ?_
    -- a number that is split into a minus and a number is no header
    have hs₁ : awaitsStatement c'.splitNegative.rest = true :=
      (passes_splitNegative c').1.trans hs
    rcases Nat.lt_or_ge W _ with hlt | hge
    · obtain ⟨c₁', hstep', hc₁, -, ha⟩ := hstep.skip trivial hc.splitNegative hlt
      rcases h'.of_operators_some with hdone | ⟨left', c₁'', hmore, hops'⟩
      · cases (hdone.unique hstep').1
      · obtain ⟨heq, rfl⟩ := hstep'.unique hmore
        cases heq
        exact ihops trivial hc₁ hd (ha.symm.trans hs₁) _ _ hops'
    · rcases h'.of_operators_some with hdone | ⟨left', c₁'', hmore, -⟩
      · exact ihstep trivial hc.splitNegative hge hs₁ _ _ hdone
      · exact ihstep trivial hc.splitNegative hge hs₁ _ _ hmore
  | operatorsDone hr hstep ihstep =>
    refine not_reads_of_isStuck hs fun hne h' => ?_
    cases hstep
    rw [weight_splitNegative] at hd
    exact absurd (hc.past_of_le hd).rest hne
  | prefixDone =>
    refine not_reads_of_isStuck hs fun hne h' => ?_
    grind -linarith
  | prefixUnary =>
    refine not_reads_of_isStuck hs fun hne h' => ?_
    grind -linarith [→ Reads.of_unary]
  | infixDone =>
    refine not_reads_of_isStuck hs fun hne h' => ?_
    grind -linarith
  | infixMember =>
    refine not_reads_of_isStuck hs fun hne h' => ?_
    grind -linarith [→ Reads.of_period]
  | infixCall =>
    refine not_reads_of_isStuck hs fun hne h' => ?_
    grind -linarith [→ Reads.of_call]
  | infixSubscript =>
    refine not_reads_of_isStuck hs fun hne h' => ?_
    grind -linarith [→ Reads.of_subscript]
  | infixTernary =>
    refine not_reads_of_isStuck hs fun hne h' => ?_
    grind -linarith [→ Reads.of_question]
  | infixBinary =>
    refine not_reads_of_isStuck hs fun hne h' => ?_
    grind -linarith [→ Reads.of_binary]
  | argumentsNone =>
    refine not_reads_of_isStuck hs fun hne h' => ?_
    grind -linarith
  | argumentsSome =>
    refine not_reads_of_isStuck hs fun hne h' => ?_
    grind -linarith [→ Reads.of_argument]
  | functionMissing =>
    refine not_reads_of_isStuck hs fun hne h' => ?_
    grind -linarith
  | functionBare =>
    refine not_reads_of_isStuck hs fun hne h' => ?_
    grind -linarith [→ Reads.of_functionBare]
  | functionParams =>
    refine not_reads_of_isStuck hs fun hne h' => ?_
    grind -linarith [→ Reads.of_functionParams]
  | lambda =>
    refine not_reads_of_isStuck hs fun hne h' => ?_
    grind -linarith [→ Reads.of_lambda]
  | paramsNone =>
    refine not_reads_of_isStuck hs fun hne h' => ?_
    grind -linarith
  | paramsLast =>
    refine not_reads_of_isStuck hs fun hne h' => ?_
    grind -linarith
  | paramsCut =>
    refine not_reads_of_isStuck hs fun hne h' => ?_
    grind -linarith
  | paramsMore =>
    refine not_reads_of_isStuck hs fun hne h' => ?_
    grind -linarith [→ Reads.of_params]
  | statementsDone =>
    refine not_reads_of_isStuck hs fun hne h' => ?_
    grind -linarith
  | statementsMore =>
    refine not_reads_of_isStuck hs fun hne h' => ?_
    grind -linarith [→ Reads.of_statements]
  | statementBlock =>
    refine not_reads_of_isStuck hs fun hne h' => ?_
    grind -linarith [→ Reads.of_leftBrace]
  | statementReturn =>
    refine not_reads_of_isStuck hs fun hne h' => ?_
    grind -linarith
  | statementReturnValue =>
    refine not_reads_of_isStuck hs fun hne h' => ?_
    grind -linarith [→ Reads.of_returnWord]
  | statementBreak =>
    refine not_reads_of_isStuck hs fun hne h' => ?_
    grind -linarith
  | statementContinue =>
    refine not_reads_of_isStuck hs fun hne h' => ?_
    grind -linarith
  | statementIf hn hk hl he hq hs' hnot ihe ihs =>
    refine not_reads_of_isStuck hs fun hne h' => ?_
    obtain ⟨c₁', hn', hc₁, hr⟩ := (hc.next?_or hn).resolve_left fun h => hne h.rest
    obtain ⟨c₂', e', c₃', c₄', s', c₅', hl', he', hq', hs₄, -⟩ := h'.of_ifWord hn' hk
    -- a header in front of the cut leaves the statement behind it stuck
    by_cases hne₄ : c₄'.rest = []
    · exact not_reads_of_rest_nil hne₄ rfl hs₄
    obtain ⟨hh, hc₄, ha⟩ := headerFollows_of_rest_ne_nil hl he hq hl' he' hq' hne₄ hc₁
      fun hc₂ hge => Bool.eq_false_iff.2 fun hs => ihe trivial hc₂ hge hs _ _ he'
    have ha₁ : awaitsStatement c₁'.rest = true := by
      simpa [Phrase.isStuck, hr, awaitsStatement, hk, startsHeader, hh] using hs
    exact ihs trivial hc₄ hd (by simp [Phrase.isStuck, ← ha, ha₁]) _ _ hs₄
  | statementIfElse hn hk hl he hq hs' hn₅ hk₅ hs₆ ihe ihs ihs' =>
    refine not_reads_of_isStuck hs fun hne h' => ?_
    obtain ⟨c₁', hn', hc₁, hr⟩ := (hc.next?_or hn).resolve_left fun h => hne h.rest
    obtain ⟨c₂', e', c₃', c₄', s', c₅', hl', he', hq', hs₄, helse⟩ := h'.of_ifWord hn' hk
    by_cases hne₄ : c₄'.rest = []
    · exact not_reads_of_rest_nil hne₄ rfl hs₄
    obtain ⟨hh, hc₄, ha⟩ := headerFollows_of_rest_ne_nil hl he hq hl' he' hq' hne₄ hc₁
      fun hc₂ hge => Bool.eq_false_iff.2 fun hs => ihe trivial hc₂ hge hs _ _ he'
    -- the statement in front of `else` may itself reach the cut
    have ha₄ : awaitsStatement c₄'.rest = true := by
      rw [← ha]
      simpa [Phrase.isStuck, hr, awaitsStatement, hk, startsHeader, hh] using hs
    rcases Nat.lt_or_ge W _ with hlt | hge
    · obtain ⟨c₅'', hs₅, hc₅, hne₅, ha₅⟩ := hs'.skip trivial hc₄ hlt
      obtain ⟨-, rfl⟩ := hs₅.unique hs₄
      obtain ⟨c₆', hn₅', hc₆, hr₅⟩ := (hc₅.next?_or hn₅).resolve_left fun h => hne₅ h.rest
      obtain ⟨t', c₆'', s'', hn₆, hs₆'⟩ := helse (by rw [kind?_of_next? hn₅', hk₅])
      rw [hn₅'] at hn₆
      cases hn₆
      have hstuck : Phrase.statement.isStuck c₆'.rest = true := by
        rw [ha₅, hr₅] at ha₄
        simpa [Phrase.isStuck, awaitsStatement, hk₅, startsHeader, or_comm] using ha₄
      exact ihs' trivial hc₆ hd hstuck _ _ hs₆'
    · exact ihs trivial hc₄ hge (by simp [Phrase.isStuck, ha₄]) _ _ hs₄
  | statementFor hn hk hs' ihs =>
    refine not_reads_of_isStuck hs fun hne h' => ?_
    obtain ⟨c₁', hn', hc₁, hr⟩ := (hc.next?_or hn).resolve_left fun h => hne h.rest
    rw [← hc.position hne] at ihs
    refine ihs trivial hc₁ hd ?_ _ _ (h'.of_forWord hn' hk)
    simpa [Phrase.isStuck, hr, awaitsStatement, hk, startsHeader, or_comm] using hs
  | statementWhile hn hk hl he hq hs' ihe ihs =>
    refine not_reads_of_isStuck hs fun hne h' => ?_
    obtain ⟨c₁', hn', hc₁, hr⟩ := (hc.next?_or hn).resolve_left fun h => hne h.rest
    obtain ⟨c₂', e', c₃', c₄', s', hl', he', hq', hs₄⟩ := h'.of_whileWord hn' hk
    by_cases hne₄ : c₄'.rest = []
    · exact not_reads_of_rest_nil hne₄ rfl hs₄
    obtain ⟨hh, hc₄, ha⟩ := headerFollows_of_rest_ne_nil hl he hq hl' he' hq' hne₄ hc₁
      fun hc₂ hge => Bool.eq_false_iff.2 fun hs => ihe trivial hc₂ hge hs _ _ he'
    have ha₁ : awaitsStatement c₁'.rest = true := by
      simpa [Phrase.isStuck, hr, awaitsStatement, hk, startsHeader, hh] using hs
    exact ihs trivial hc₄ hd (by simp [Phrase.isStuck, ← ha, ha₁]) _ _ hs₄
  | statementEmpty =>
    refine not_reads_of_isStuck hs fun hne h' => ?_
    grind -linarith
  | statementSimple hk hs' ihs =>
    refine not_reads_of_isStuck hs fun hne h' => ?_
    cases hr : c'.rest with
    | nil => exact absurd hr hne
    | cons t rest =>
      have hkind := kind?_of_rest hr
      refine ihs trivial hc hd hs _ _ (h'.of_simpleStatement hkind (hk _ ?_))
      rw [← hc.kind? hne, hkind]
  | simple =>
    refine not_reads_of_isStuck hs fun hne h' => ?_
    grind -linarith [→ Reads.of_simple]
  | forLoop hl hi he hstep hs' ihi ihe ihstep ihs =>
    refine not_reads_of_isStuck hs fun hne h' => ?_
    obtain ⟨c₁', initial', c₂', e', c₃', step', c₄', s', hl', hi', he', hstep', hs₄⟩ :=
      h'.of_forTail
    obtain ⟨l, c₁'', hl'', hc₁, hr, hkl⟩ := (hc.require_or hl).resolve_left fun h => hne h.rest
    rw [hl'] at hl''
    cases hl''
    -- the tokens do not end within the header, since what follows it was read
    have hnil₄ : c₄'.rest ≠ [] := fun h => not_reads_of_rest_nil h rfl hs₄
    have hnil₃ : c₃'.rest ≠ [] := fun h => not_reads_of_rest_nil h rfl hstep'
    have hnil₂ : c₂'.rest ≠ [] := fun h => hnil₃ (rest_nil_of_weight_le he'.weight.1 h)
    obtain ⟨-, hc₂, ha₂, hb₂⟩ := (hi.next_or hi' trivial hc₁ fun hge =>
      Bool.eq_false_iff.2 fun hs => ihi trivial hc₁ hge hs _ _ hi').resolve_left hnil₂
    obtain ⟨-, hc₃, ha₃, hb₃⟩ := (he.next_or he' trivial hc₂ fun hge =>
      Bool.eq_false_iff.2 fun hs => ihe trivial hc₂ hge hs _ _ he').resolve_left hnil₃
    obtain ⟨-, hc₄, ha₄, hb₄⟩ := (hstep.next_or hstep' trivial hc₃ fun hge =>
      Bool.eq_false_iff.2 fun hs => ihstep trivial hc₃ hge hs _ _ hstep').resolve_left hnil₄
    have hclose : closeParens 1 c₁'.rest = some c₄'.rest := by
      have h₂ : closeParens 1 c₁'.rest = closeParens 1 c₂'.rest := hb₂ 0
      have h₃ : closeParens 1 c₂'.rest = closeParens 1 c₃'.rest := hb₃ 0
      rw [h₂, h₃, hb₄ 0]
      simp [Phrase.closes, closeParens]
    have ha₁ : awaitsStatement c₁'.rest = true := by
      have hh : headerFollows c'.rest = true := by simp [headerFollows, hr, hkl, hclose, hnil₄]
      rw [← awaitsStatement_cons_of_paren (.inl hkl), ← hr]
      simpa [Phrase.isStuck, hh] using hs
    refine ihs trivial hc₄ hd ?_ _ _ hs₄
    simp [Phrase.isStuck, ← ha₄, ← ha₃, ← ha₂, ha₁]
  | initializerNone =>
    refine not_reads_of_isStuck hs fun hne h' => ?_
    grind -linarith
  | initializerSome =>
    refine not_reads_of_isStuck hs fun hne h' => ?_
    grind -linarith [→ Reads.of_initializer]
  | conditionNone =>
    refine not_reads_of_isStuck hs fun hne h' => ?_
    grind -linarith
  | conditionSome =>
    refine not_reads_of_isStuck hs fun hne h' => ?_
    grind -linarith [→ Reads.of_condition]
  | iteratorNone =>
    refine not_reads_of_isStuck hs fun hne h' => ?_
    grind -linarith
  | iteratorSome =>
    refine not_reads_of_isStuck hs fun hne h' => ?_
    grind -linarith [→ Reads.of_iterator]
  | block =>
    refine not_reads_of_isStuck hs fun hne h' => ?_
    grind -linarith [→ Reads.of_block]
  | declarationAssignment =>
    refine not_reads_of_isStuck hs fun hne h' => ?_
    grind -linarith [→ Reads.of_not_letWord]
  | declarationBare =>
    refine not_reads_of_isStuck hs fun hne h' => ?_
    grind -linarith
  | declarationValue =>
    refine not_reads_of_isStuck hs fun hne h' => ?_
    grind -linarith [→ Reads.of_letWord]
  | assignmentCall =>
    refine not_reads_of_isStuck hs fun hne h' => ?_
    grind -linarith [→ Reads.of_assignment]
  | assignmentValue =>
    refine not_reads_of_isStuck hs fun hne h' => ?_
    grind -linarith [→ Reads.of_assignment]
  | suffixesDone =>
    refine not_reads_of_isStuck hs fun hne h' => ?_
    grind -linarith
  | suffixesMember =>
    refine not_reads_of_isStuck hs fun hne h' => ?_
    grind -linarith [→ Reads.of_suffix_period]
  | suffixesCall =>
    refine not_reads_of_isStuck hs fun hne h' => ?_
    grind -linarith [→ Reads.of_suffix_call]
  | suffixesSubscript =>
    refine not_reads_of_isStuck hs fun hne h' => ?_
    grind -linarith [→ Reads.of_suffix_subscript]

/-! ## Whole programs -/

/-- Of the programs that can be read strictly, the tolerant mode reads the first tokens unless they
end where a statement is due. -/
theorem Reads.take_iff {r : p.Result} {tokens : List Token} {k : Nat}
    (h : Reads .strict p (.ofTokens tokens) r d) (hd : d.rest = []) (hp : p.IsProper)
    (hs : p.isStuck (tokens.take k) = awaitsStatement (tokens.take k)) :
    (∃ r' d', Reads .tolerant p (.ofTokens (tokens.take k)) r' d' ∧ d'.rest = []) ↔
      awaitsStatement (tokens.take k) = false := by
  have hc : Cuts ((tokens.drop k).map tokenWeight).sum (.ofTokens tokens)
      (.ofTokens (tokens.take k)) :=
    ⟨⟨tokens.drop k, (List.take_append_drop k tokens).symm, rfl⟩, rfl⟩
  have hw : d.weight ≤ ((tokens.drop k).map tokenWeight).sum := by simp [Cursor.weight, hd]
  constructor
  · rintro ⟨r', d', hr, -⟩
    cases hawaits : awaitsStatement (tokens.take k) with
    | false => rfl
    | true => exact absurd hr (h.not_reads_of_isStuck hp hc hw (hs.trans hawaits) r' d')
  · intro hawaits
    obtain ⟨r', d', hr, hd'⟩ := h.up_to_cut hp hc hw (hs.trans hawaits)
    exact ⟨r', d', hr, hd'.rest⟩

theorem start_tolerant {source : String} {tokens : List Token}
    (h : Token.scan source = .ok tokens) : start .tolerant source = .ok (.ofTokens tokens) := by
  unfold start
  rw [h]
  cases tokens <;> rfl

theorem start_strict {source : String} {tokens : List Token} (h : Token.scan source = .ok tokens)
    (hc : start .strict source = .ok c) : c = .ofTokens tokens := by
  unfold start at hc
  rw [h] at hc
  cases tokens <;> cases hc
  rfl

end Parse

/-- While a program is typed from left to right, the tolerant mode accepts what there is of it behind
each token, unless that token is one behind which a statement is due. -/
theorem Code.parse_of_prefix_iff {isScript : Bool} {source head tail : String} {code : Code}
    {tokens : List Token} {k : Nat} (hcode : Code.parse .strict isScript source = .ok code)
    (htokens : Token.scan source = .ok tokens) (hsource : source = head ++ tail)
    (hhead : head.utf8ByteSize = ((tokens.take k).getLast?.map (·.span.stop)).getD 0) :
    (∃ code', Code.parse .tolerant isScript head = .ok code') ↔
      Token.awaitsStatement (tokens.take k) = false := by
  have hstart := Parse.start_tolerant (Token.scan_of_prefix htokens hsource hhead)
  cases isScript with
  | false =>
    obtain ⟨e, he, -⟩ := Except.map_eq_ok_iff.1 hcode
    obtain ⟨c, d, hc, hreads, hd⟩ := Expr.parse_eq_ok_iff.1 he
    cases Parse.start_strict htokens hc
    rw [← hreads.take_iff hd trivial rfl]
    constructor
    · rintro ⟨code', hcode'⟩
      obtain ⟨e', he', -⟩ := Except.map_eq_ok_iff.1 hcode'
      obtain ⟨c', d', hc', hreads', hd'⟩ := Expr.parse_eq_ok_iff.1 he'
      cases hstart.symm.trans hc'
      exact ⟨e', d', hreads', hd'⟩
    · rintro ⟨e', d', hreads', hd'⟩
      exact ⟨_, Except.map_eq_ok_iff.2
        ⟨e', Expr.parse_eq_ok_iff.2 ⟨_, d', hstart, hreads', hd'⟩, rfl⟩⟩
  | true =>
    obtain ⟨s, hs, -⟩ := Except.map_eq_ok_iff.1 hcode
    obtain ⟨c, body, d, hc, hreads, hd, -⟩ := Statement.parseScript_eq_ok_iff.1 hs
    cases Parse.start_strict htokens hc
    rw [← hreads.take_iff hd trivial rfl]
    constructor
    · rintro ⟨code', hcode'⟩
      obtain ⟨s', hs', -⟩ := Except.map_eq_ok_iff.1 hcode'
      obtain ⟨c', body', d', hc', hreads', hd', -⟩ := Statement.parseScript_eq_ok_iff.1 hs'
      cases hstart.symm.trans hc'
      exact ⟨body', d', hreads', hd'⟩
    · rintro ⟨body', d', hreads', hd'⟩
      exact ⟨_, Except.map_eq_ok_iff.2
        ⟨_, Statement.parseScript_eq_ok_iff.2 ⟨_, body', d', hstart, hreads', hd', rfl⟩, rfl⟩⟩

/-- A script is accepted where it breaks off in its assignment, and refused where it breaks off in
its condition. -/
theorem Code.parse_of_prefix_of_if :
    (Code.parse .strict true "if (file) a = b;").isOk = true ∧
      (∃ code, Code.parse .tolerant true "if (file) a =" = .ok code) ∧
      ¬∃ code, Code.parse .tolerant true "if (file" = .ok code := by
  have hparse : (Code.parse .strict true "if (file) a = b;").isOk = true := by cbv
  have hscan : (Token.scan "if (file) a = b;").toOption.any (fun tokens =>
      !Token.awaitsStatement (tokens.take 6) && Token.awaitsStatement (tokens.take 3) &&
      decide (((tokens.take 6).getLast?.map (·.span.stop)).getD 0 = 13) &&
      decide (((tokens.take 3).getLast?.map (·.span.stop)).getD 0 = 8)) = true := by
    decide
  refine ⟨hparse, ?_⟩
  cases hcode : Code.parse .strict true "if (file) a = b;" with
  | error e => simp [hcode, Except.isOk, Except.toBool] at hparse
  | ok code =>
    cases htokens : Token.scan "if (file) a = b;" with
    | error e => simp [htokens, Except.toOption] at hscan
    | ok tokens =>
      simp only [htokens, Except.toOption, Option.any_some, Bool.and_eq_true, Bool.not_eq_true',
        decide_eq_true_eq] at hscan
      obtain ⟨⟨⟨hready, hawaits⟩, hstop⟩, hstop'⟩ := hscan
      have hassign : "if (file) a = b;" = "if (file) a =" ++ " b;" := by decide
      have hheader : "if (file) a = b;" = "if (file" ++ ") a = b;" := by decide
      refine ⟨(parse_of_prefix_iff hcode htokens hassign hstop.symm).2 hready, ?_⟩
      rw [parse_of_prefix_iff hcode htokens hheader hstop'.symm, hawaits]
      decide

end SearchScript
