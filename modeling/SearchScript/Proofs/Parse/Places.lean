import Mathlib
import SearchScript.Proofs.Except
import SearchScript.Proofs.Parse.Alike
import SearchScript.Proofs.Token.Trivia
import SearchScript.Run.Program

/-!
# The places of tokens

The parser looks at the kinds and the texts of tokens. Where they lie only goes into the spans of
trees and the places of errors; whether a `null` has a width, which its span says, does not depend
on the place either, since every token has one and the end of an empty list of arguments has none.

Two readings of tokens that are the same but for their places are followed side by side. They take
the same branches all the way, so they read the same, spans apart, or fail alike.

## Key definitions

- `ParseError.withoutPlace`: an error without the place where it lies
- `Parse.Agrees`: two readings that give related results or the same error, places apart
- `Parse.ReadsAlike`: the functions of the grammar agree on tokens that lie elsewhere

## Key results

- `Parse.readsAlike`: the functions of the grammar read alike whatever the places are
- `Code.parse_of_respaced`: blanks and comments between tokens do not matter
-/

namespace SearchScript

/-- An error without the place where it lies. -/
def ParseError.withoutPlace : ParseError → ParseError
  | scan e => scan ⟨0, e.kind⟩
  | unexpectedToken found expected _ => unexpectedToken found expected 0
  | unexpectedEnd _ => unexpectedEnd 0
  | trailingToken found _ => trailingToken found default
  | noExpression _ => noExpression 0
  | missingOperand op _ => missingOperand op 0
  | invalidTarget found _ => invalidTarget found 0
  | missingAssignment found _ => missingAssignment found 0
  | invalidString text failure _ => invalidString text failure default
  | loopLimit _ => loopLimit 0

/-! ## Cursors at tokens that lie elsewhere -/

namespace Cursor

open Token

/-- Whether the tokens in front of two cursors are the same but for their places. -/
def Resembles (c c' : Cursor) : Prop := List.Forall₂ SameAs c.rest c'.rest

variable {c c' : Cursor} {t t' : Token} {rest rest' : List Token}

/-- Both cursors are at the end, or in front of tokens that are the same. -/
theorem Resembles.cases_rest (h : c.Resembles c') :
    (c.rest = [] ∧ c'.rest = []) ∨ ∃ t rest t' rest', c.rest = t :: rest ∧ c'.rest = t' :: rest' ∧
      SameAs t t' ∧ List.Forall₂ SameAs rest rest' := by
  unfold Resembles at h
  generalize c.rest = ts at h
  generalize c'.rest = ts' at h
  cases h with
  | nil => exact .inl ⟨rfl, rfl⟩
  | cons ht hts => exact .inr ⟨_, _, _, _, rfl, rfl, ht, hts⟩

theorem resembles_pass (h : List.Forall₂ SameAs rest rest') :
    (c.pass t rest).Resembles (c'.pass t' rest') := h

theorem Resembles.kind?_eq (h : c.Resembles c') : c'.kind? = c.kind? := by
  rcases h.cases_rest with ⟨hr, hr'⟩ | ⟨t, rest, t', rest', hr, hr', ht, -⟩
  · rw [kind?_of_rest_nil hr, kind?_of_rest_nil hr']
  · rw [kind?_of_rest hr, kind?_of_rest hr', ht.kind]

/-- Both cursors take a token of a kind, or none does. -/
theorem Resembles.accept? (h : c.Resembles c') (kind : TokenKind) :
    (c.accept? kind = none ∧ c'.accept? kind = none) ∨
      ∃ t d t' d', c.accept? kind = some (t, d) ∧ c'.accept? kind = some (t', d') ∧ SameAs t t' ∧
        d.Resembles d' := by
  unfold Cursor.accept?
  rcases h.cases_rest with ⟨hr, hr'⟩ | ⟨t, rest, t', rest', hr, hr', ht, hrest⟩
  · rw [hr, hr']
    exact .inl ⟨rfl, rfl⟩
  · rw [hr, hr']
    simp only [ht.kind]
    split
    · exact .inr ⟨t, _, t', _, rfl, rfl, ht, hrest⟩
    · exact .inl ⟨rfl, rfl⟩

/-- Negative numbers are cut alike. -/
theorem Resembles.splitNegative (h : c.Resembles c') :
    c.splitNegative.Resembles c'.splitNegative := by
  rcases h.cases_rest with ⟨hr, hr'⟩ | ⟨t, rest, t', rest', hr, hr', ht, hrest⟩
  · rw [splitNegative_of_kind? (by simp [kind?_of_rest_nil hr]),
      splitNegative_of_kind? (by simp [kind?_of_rest_nil hr'])]
    exact h
  · unfold Resembles at h ⊢
    rcases ht.splitToken? with ⟨hs, hs'⟩ | ⟨m, n, m', n', hs, hs', -, hm, hn⟩
    · rw [splitNegative_of_none hr hs, splitNegative_of_none hr' hs']
      exact h
    · rw [rest_splitNegative_of_some hr hs, rest_splitNegative_of_some hr' hs']
      exact .cons hm (.cons hn hrest)

/-- Tokens that are the same count alike towards the depth of calls. -/
theorem Resembles.budget_eq (h : c.Resembles c') : c'.budget = c.budget := by
  have hweight : c'.rest.map tokenWeight = c.rest.map tokenWeight := by
    unfold Resembles at h
    generalize c.rest = ts at h
    generalize c'.rest = ts' at h
    induction h with
    | nil => rfl
    | cons ht _ ih =>
      rw [List.map_cons, List.map_cons, ih, tokenWeight, tokenWeight, ht.kind, ht.text]
  unfold budget weight
  rw [hweight]

end Cursor

namespace Parse

open Cursor Token

/-! ## Readings that agree -/

/-- Whether two readings give related results, or fail with the same error, its place apart. -/
inductive Agrees {α : Type} (R : α → α → Prop) : Except ParseError α → Except ParseError α → Prop
  | ok {a a'} : R a a' → Agrees R (.ok a) (.ok a')
  | error {e e'} : e'.withoutPlace = e.withoutPlace → Agrees R (.error e) (.error e')

/-- Whether two readings give the same, once something is erased from it, and end in front of tokens
that are the same but for their places. -/
structure SameBut {α β : Type} (erase : α → β) (x x' : α × Cursor) : Prop where
  result : erase x'.1 = erase x.1
  cursor : x.2.Resembles x'.2

section Agrees

variable {α β : Type} {R : α → α → Prop} {S : β → β → Prop} {x x' : Except ParseError α}
  {f f' : α → Except ParseError β}

theorem Agrees.bind (h : Agrees R x x') (hf : ∀ a a', R a a' → Agrees S (f a) (f' a')) :
    Agrees S (x >>= f) (x' >>= f') := by
  cases h with
  | ok ha => exact hf _ _ ha
  | error he => exact .error he

theorem Agrees.map {g : α → β} (h : Agrees R x x') (hg : ∀ a a', R a a' → S (g a) (g a')) :
    Agrees S (x.map g) (x'.map g) := by
  cases h with
  | ok ha => exact .ok (hg _ _ ha)
  | error he => exact .error he

theorem Agrees.done {γ : Type} {erase : α → γ} {a a' : α} {c c' : Cursor}
    (h : erase a' = erase a) (hc : c.Resembles c') :
    Agrees (SameBut erase) (.ok (a, c)) (.ok (a', c')) := .ok ⟨h, hc⟩

end Agrees

/-- What one round of the operator loop did, spans apart. -/
def Step.withoutSpans : Step → Step
  | .more e => .more e.withoutSpans
  | .done => .done

theorem Step.eq_or_exists_of_withoutSpans {step step' : Step}
    (h : step'.withoutSpans = step.withoutSpans) :
    (step = .done ∧ step' = .done) ∨
      ∃ e e', step = .more e ∧ step' = .more e' ∧ e'.withoutSpans = e.withoutSpans := by
  cases step <;> cases step' <;> simp_all [Step.withoutSpans]

theorem eq_or_exists_of_optionWithoutSpans {e? e?' : Option Expr}
    (h : Expr.optionWithoutSpans e?' = Expr.optionWithoutSpans e?) :
    (e? = none ∧ e?' = none) ∨
      ∃ e e', e? = some e ∧ e?' = some e' ∧ e'.withoutSpans = e.withoutSpans := by
  cases e? <;> cases e?' <;> simp_all [Expr.optionWithoutSpans]

theorem eq_or_exists_of_map_text {t? t?' : Option Token}
    (h : t?'.map Token.text = t?.map Token.text) :
    (t? = none ∧ t?' = none) ∨ ∃ t t', t? = some t ∧ t?' = some t' ∧ t'.text = t.text := by
  cases t? <;> cases t?' <;> simp_all

variable {limit : Option Nat} {mode : ParseMode} {fuel : Nat} {c c' : Cursor} {t t' : Token}

theorem agrees_expect (h : c.Resembles c') (kind : TokenKind) :
    Agrees (SameBut (Option.map Token.text)) (c.expect mode kind) (c'.expect mode kind) := by
  unfold Cursor.expect
  rcases h.accept? kind with ⟨ha, ha'⟩ | ⟨t, d, t', d', ha, ha', ht, hd⟩
  · rw [ha, ha']
    cases mode with
    | tolerant => exact .ok ⟨rfl, h⟩
    | strict =>
      -- the error says what kind of token was found instead, if any
      rcases h.cases_rest with ⟨hr, hr'⟩ | ⟨t, rest, t', rest', hr, hr', ht, -⟩
      · rw [hr, hr']
        exact .error rfl
      · rw [hr, hr']
        exact .error (by simp only [ParseError.withoutPlace, ht.kind])
  · rw [ha, ha']
    exact .ok ⟨by simp only [Option.map_some, ht.text], hd⟩

theorem agrees_require (h : c.Resembles c') (kind : TokenKind) :
    Agrees Cursor.Resembles (c.require mode kind) (c'.require mode kind) := by
  have he : Agrees (SameBut (Option.map Token.text)) (c.expect mode kind) (c'.expect mode kind) :=
    agrees_expect h kind
  unfold Cursor.require
  generalize c.expect mode kind = x at he
  generalize c'.expect mode kind = x' at he
  cases he with
  | ok hs => exact .ok hs.cursor
  | error he => exact .error he

theorem agrees_tick (limit : Option Nat) (rounds : Nat) (c c' : Cursor) :
    Agrees (fun n n' => n' = n) (tick limit rounds c) (tick limit rounds c') := by
  unfold tick
  split
  · exact .error rfl
  · exact .ok rfl

theorem agrees_missing (h : c.Resembles c') :
    Agrees (SameBut Expr.withoutSpans) (missing mode c) (missing mode c') := by
  cases mode with
  | strict => exact .error rfl
  | tolerant => exact .done rfl h

theorem agrees_unassigned {target target' : Expr} (h : c.Resembles c')
    (ht : target'.withoutSpans = target.withoutSpans) :
    Agrees (SameBut Statement.withoutSpans) (unassigned mode target c)
      (unassigned mode target' c') := by
  cases mode with
  | strict => exact .error (by simp only [ParseError.withoutPlace, h.kind?_eq])
  | tolerant => exact .done (by simp only [Statement.ofExpr, Statement.withoutSpans, ht]) h

/-- Atoms are read alike. -/
theorem agrees_atom? (h : c.Resembles c') :
    Agrees (Option.Rel (SameBut Expr.withoutSpans)) (atom? c) (atom? c') := by
  unfold atom?
  rcases h.cases_rest with ⟨hr, hr'⟩ | ⟨t, rest, t', rest', hr, hr', ht, hrest⟩
  · rw [hr, hr']
    exact .ok .none
  · have hpass : (c.pass t rest).Resembles (c'.pass t' rest') := resembles_pass hrest
    simp only [hr, hr', ht.kind, ht.text]
    split
    case h_7 hk =>
      -- a `null` is as wide as its token, and neither token is empty
      exact .ok (.some ⟨by simp only [Expr.withoutSpans, Span.emptiness, ht.empty hk], hpass⟩)
    case h_8 =>
      cases Quoted.decode t.text with
      | ok value => exact .ok (.some ⟨rfl, hpass⟩)
      | error failure => exact .error rfl
    case h_9 => exact .ok .none
    all_goals exact .ok (.some ⟨rfl, hpass⟩)

/-- A part that may be left out in front of a token. -/
theorem agrees_optional {α β γ : Type} (erase : α → β) (eraseOption : Option α → γ)
    {f : Cursor → Except ParseError (α × Cursor)} (kind : TokenKind) (h : c.Resembles c')
    (hsome : ∀ a a', erase a' = erase a → eraseOption (some a') = eraseOption (some a))
    (hf : Agrees (SameBut erase) (f c) (f c')) :
    Agrees (SameBut eraseOption)
      (match c.accept? kind with
        | some (_, c) => .ok (none, c)
        | none => do
          let a ← f c
          let c ← a.2.require mode kind
          .ok (some a.1, c))
      (match c'.accept? kind with
        | some (_, c) => .ok (none, c)
        | none => do
          let a ← f c'
          let c ← a.2.require mode kind
          .ok (some a.1, c)) := by
  rcases h.accept? kind with ⟨ha, ha'⟩ | ⟨t, d, t', d', ha, ha', -, hd⟩
  · simp only [ha, ha']
    exact hf.bind fun a a' hs =>
      (agrees_require hs.cursor kind).bind fun _ _ hd => .done (hsome _ _ hs.result) hd
  · simp only [ha, ha']
    exact .done rfl hd

/-! ## Reading alike -/

/-- Whether the functions of the grammar, called to a depth, agree at cursors that resemble each
other. Where a phrase starts and the spans of what was read before may differ. -/
structure ReadsAlike (limit : Option Nat) (mode : ParseMode) (fuel : Nat) : Prop where
  expr {c c' : Cursor} (depth : Nat) : c.Resembles c' → Agrees (SameBut Expr.withoutSpans)
    (expr limit mode fuel depth c) (expr limit mode fuel depth c')
  operand {c c' : Cursor} : c.Resembles c' → Agrees (SameBut Expr.optionWithoutSpans)
    (operand limit mode fuel c) (operand limit mode fuel c')
  operators {c c' : Cursor} {left left' : Option Expr} (depth start start' rounds : Nat) :
    c.Resembles c' → Expr.optionWithoutSpans left' = Expr.optionWithoutSpans left →
    Agrees (SameBut Expr.withoutSpans) (operators limit mode fuel depth start rounds left c)
      (operators limit mode fuel depth start' rounds left' c')
  prefixOperator {c c' : Cursor} (depth start start' : Nat) : c.Resembles c' →
    Agrees (SameBut Step.withoutSpans) (prefixOperator limit mode fuel depth start c)
      (prefixOperator limit mode fuel depth start' c')
  operator {c c' : Cursor} {left left' : Expr} (depth : Nat) : c.Resembles c' →
    left'.withoutSpans = left.withoutSpans → Agrees (SameBut Step.withoutSpans)
      (operator limit mode fuel depth left c) (operator limit mode fuel depth left' c')
  arguments {c c' : Cursor} : c.Resembles c' → Agrees (SameBut Expr.withoutSpans)
    (arguments limit mode fuel c) (arguments limit mode fuel c')
  functionTail {c c' : Cursor} (start start' : Nat) : c.Resembles c' →
    Agrees (SameBut Expr.withoutSpans) (functionTail limit mode fuel start c)
      (functionTail limit mode fuel start' c')
  lambdaTail {c c' : Cursor} (start start' : Nat) : c.Resembles c' →
    Agrees (SameBut Expr.withoutSpans) (lambdaTail limit mode fuel start c)
      (lambdaTail limit mode fuel start' c')
  params {c c' : Cursor} (closing : TokenKind) (rounds : Nat) : c.Resembles c' → Agrees (SameBut id)
    (params limit mode closing fuel rounds c) (params limit mode closing fuel rounds c')
  statements {c c' : Cursor} (rounds : Nat) : c.Resembles c' →
    Agrees (SameBut Statement.listWithoutSpans) (statements limit mode fuel rounds c)
      (statements limit mode fuel rounds c')
  statement {c c' : Cursor} : c.Resembles c' → Agrees (SameBut Statement.withoutSpans)
    (statement limit mode fuel c) (statement limit mode fuel c')
  simpleStatement {c c' : Cursor} : c.Resembles c' → Agrees (SameBut Statement.withoutSpans)
    (simpleStatement limit mode fuel c) (simpleStatement limit mode fuel c')
  forTail {c c' : Cursor} (start start' : Nat) : c.Resembles c' →
    Agrees (SameBut Statement.withoutSpans) (forTail limit mode fuel start c)
      (forTail limit mode fuel start' c')
  initializer {c c' : Cursor} : c.Resembles c' → Agrees (SameBut Statement.optionWithoutSpans)
    (initializer limit mode fuel c) (initializer limit mode fuel c')
  condition {c c' : Cursor} : c.Resembles c' → Agrees (SameBut Expr.optionWithoutSpans)
    (condition limit mode fuel c) (condition limit mode fuel c')
  iterator {c c' : Cursor} : c.Resembles c' → Agrees (SameBut Statement.optionWithoutSpans)
    (iterator limit mode fuel c) (iterator limit mode fuel c')
  block {c c' : Cursor} : c.Resembles c' → Agrees (SameBut Statement.withoutSpans)
    (block limit mode fuel c) (block limit mode fuel c')
  declaration {c c' : Cursor} : c.Resembles c' → Agrees (SameBut Statement.withoutSpans)
    (declaration limit mode fuel c) (declaration limit mode fuel c')
  assignment {c c' : Cursor} : c.Resembles c' → Agrees (SameBut Statement.withoutSpans)
    (assignment limit mode fuel c) (assignment limit mode fuel c')
  suffixes {c c' : Cursor} {node node' : Expr} (rounds : Nat) (isCall : Bool) : c.Resembles c' →
    node'.withoutSpans = node.withoutSpans → Agrees (SameBut (Prod.map Expr.withoutSpans id))
      (suffixes limit mode fuel rounds node isCall c)
      (suffixes limit mode fuel rounds node' isCall c')

section

variable (ih : ReadsAlike limit mode fuel)
include ih

/-! ### Expressions -/

private theorem alike_expr (depth : Nat) (h : c.Resembles c') :
    Agrees (SameBut Expr.withoutSpans) (expr limit mode (fuel + 1) depth c)
      (expr limit mode (fuel + 1) depth c') := by
  simp only [Parse.expr]
  rcases h.accept? .functionWord with ⟨ha, ha'⟩ | ⟨t, d, t', d', ha, ha', -, hd⟩
  · simp only [ha, ha']
    rcases h.accept? .lambdaWord with ⟨hl, hl'⟩ | ⟨t, d, t', d', hl, hl', -, hd⟩
    · simp only [hl, hl']
      exact (ih.operand h).bind fun _ _ ho => ih.operators _ _ _ _ ho.cursor ho.result
    · simp only [hl, hl']
      exact ih.lambdaTail _ _ hd
  · simp only [ha, ha']
    exact ih.functionTail _ _ hd

private theorem alike_operand (h : c.Resembles c') :
    Agrees (SameBut Expr.optionWithoutSpans) (operand limit mode (fuel + 1) c)
      (operand limit mode (fuel + 1) c') := by
  simp only [Parse.operand]
  rcases h.accept? .leftParen with ⟨ha, ha'⟩ | ⟨t, d, t', d', ha, ha', -, hd⟩
  · simp only [ha, ha']
    refine (agrees_atom? h).bind fun a a' hatom => ?_
    cases hatom with
    | none => exact .done rfl h
    | some hs => exact .done (congrArg some hs.result) hs.cursor
  · simp only [ha, ha']
    refine (ih.expr 1 hd).bind fun inner inner' he => ?_
    refine (agrees_require he.cursor _).bind fun d d' hd => ?_
    exact .done (congrArg some he.result) hd

private theorem alike_operators {left left' : Option Expr} (depth start start' rounds : Nat)
    (h : c.Resembles c') (hleft : Expr.optionWithoutSpans left' = Expr.optionWithoutSpans left) :
    Agrees (SameBut Expr.withoutSpans)
      (operators limit mode (fuel + 1) depth start rounds left c)
      (operators limit mode (fuel + 1) depth start' rounds left' c') := by
  rcases eq_or_exists_of_optionWithoutSpans hleft with ⟨rfl, rfl⟩ | ⟨left, left', rfl, rfl, hsame⟩
  · simp only [Parse.operators]
    refine (agrees_tick limit rounds c c').bind ?_
    rintro _ n rfl
    refine (ih.prefixOperator depth start start' h).bind ?_
    rintro ⟨step, d⟩ ⟨step', d'⟩ ⟨hstep, hd⟩
    rcases Step.eq_or_exists_of_withoutSpans hstep with ⟨rfl, rfl⟩ | ⟨e, e', rfl, rfl, he⟩
    · exact agrees_missing hd
    · exact ih.operators _ _ _ _ hd (congrArg some he)
  · simp only [Parse.operators]
    refine (agrees_tick limit rounds c c').bind ?_
    rintro _ n rfl
    -- a negative number behind an operand is cut in both texts or in none
    refine (ih.operator depth h.splitNegative hsame).bind ?_
    rintro ⟨step, d⟩ ⟨step', d'⟩ ⟨hstep, hd⟩
    rcases Step.eq_or_exists_of_withoutSpans hstep with ⟨rfl, rfl⟩ | ⟨e, e', rfl, rfl, he⟩
    · exact .done hsame hd
    · exact ih.operators _ _ _ _ hd (congrArg some he)

private theorem alike_prefixOperator (depth start start' : Nat) (h : c.Resembles c') :
    Agrees (SameBut Step.withoutSpans) (prefixOperator limit mode (fuel + 1) depth start c)
      (prefixOperator limit mode (fuel + 1) depth start' c') := by
  simp only [Parse.prefixOperator]
  rcases h.cases_rest with ⟨hr, hr'⟩ | ⟨t, rest, t', rest', hr, hr', ht, hrest⟩
  · simp only [hr, hr']
    exact .done rfl h
  · simp only [hr, hr', ht.kind]
    split
    · exact .done rfl h
    split
    · refine (ih.expr 7 (resembles_pass hrest)).bind fun value value' he => ?_
      refine .done ?_ he.cursor
      simp only [Step.withoutSpans, Expr.withoutSpans, he.result]
    · split
      · split
        · exact .error rfl
        · exact .done rfl h
      · exact .done rfl h

private theorem alike_operator {left left' : Expr} (depth : Nat) (h : c.Resembles c')
    (hleft : left'.withoutSpans = left.withoutSpans) :
    Agrees (SameBut Step.withoutSpans) (operator limit mode (fuel + 1) depth left c)
      (operator limit mode (fuel + 1) depth left' c') := by
  simp only [Parse.operator]
  -- whatever the operator is, its node is the same if its right operand is
  have hjoin : ∀ {right right' d d'} (op : BinaryOp), SameBut Expr.withoutSpans right right' →
      d.Resembles d' → Agrees (SameBut Step.withoutSpans)
        (.ok (.more (.join op left right.1), d)) (.ok (.more (.join op left' right'.1), d')) := by
    intro right right' d d' op he hd
    refine .done ?_ hd
    simp only [Step.withoutSpans, Expr.join, Expr.withoutSpans, hleft, he.result]
  rcases h.cases_rest with ⟨hr, hr'⟩ | ⟨t, rest, t', rest', hr, hr', ht, hrest⟩
  · simp only [hr, hr']
    exact .done rfl h
  · simp only [hr, hr', ht.kind]
    have hpass : (c.pass t rest).Resembles (c'.pass t' rest') := resembles_pass hrest
    split
    · exact .done rfl h
    split
    · exact .done rfl h
    split
    · exact (ih.expr 8 hpass).bind fun _ _ he => hjoin _ he he.cursor
    · exact (ih.arguments hpass).bind fun _ _ he => hjoin _ he he.cursor
    · exact (ih.expr 1 hpass).bind fun _ _ he =>
        (agrees_require he.cursor _).bind fun _ _ hd => hjoin _ he hd
    · refine (ih.expr 3 hpass).bind fun whenTrue whenTrue' he => ?_
      refine (agrees_require he.cursor _).bind fun d d' hd => ?_
      refine (ih.expr 3 hd).bind fun whenFalse whenFalse' he' => .done ?_ he'.cursor
      simp only [Step.withoutSpans, Expr.withoutSpans, hleft, he.result, he'.result]
    · split
      · exact (ih.expr _ hpass).bind fun _ _ he => hjoin _ he he.cursor
      · exact .done rfl h

private theorem alike_arguments (h : c.Resembles c') :
    Agrees (SameBut Expr.withoutSpans) (arguments limit mode (fuel + 1) c)
      (arguments limit mode (fuel + 1) c') := by
  simp only [Parse.arguments]
  rcases h.accept? .rightParen with ⟨ha, ha'⟩ | ⟨t, d, t', d', ha, ha', -, hd⟩
  · simp only [ha, ha']
    exact (ih.expr 1 h).bind fun _ _ he =>
      (agrees_require he.cursor _).bind fun _ _ hd => .done he.result hd
  · simp only [ha, ha']
    -- no arguments have no width wherever they stand
    exact .done (by simp only [Expr.withoutSpans, Span.emptiness, Span.isEmpty_empty]) hd

private theorem alike_params (closing : TokenKind) (rounds : Nat) (h : c.Resembles c') :
    Agrees (SameBut id) (params limit mode closing (fuel + 1) rounds c)
      (params limit mode closing (fuel + 1) rounds c') := by
  simp only [Parse.params]
  refine (agrees_tick limit rounds c c').bind ?_
  rintro _ n rfl
  refine (agrees_expect h _).bind ?_
  rintro ⟨name?, d⟩ ⟨name?', d'⟩ ⟨hname, hd⟩
  rcases eq_or_exists_of_map_text hname with ⟨rfl, rfl⟩ | ⟨name, name', rfl, rfl, htext⟩
  · exact .done rfl hd
  · dsimp only
    rcases hd.accept? closing with ⟨ha, ha'⟩ | ⟨t, e, t', e', ha, ha', -, he⟩
    · simp only [ha, ha']
      refine (agrees_expect hd _).bind ?_
      rintro ⟨comma?, e⟩ ⟨comma?', e'⟩ ⟨hcomma, he⟩
      rcases eq_or_exists_of_map_text hcomma with ⟨rfl, rfl⟩ | ⟨comma, comma', rfl, rfl, -⟩
      · exact .done (congrArg ([·]) htext) he
      · refine (ih.params closing n he).bind fun names names' hs => .done ?_ hs.cursor
        exact congrArg₂ List.cons htext hs.result
    · simp only [ha, ha']
      exact .done (congrArg ([·]) htext) he

private theorem alike_functionTail (start start' : Nat) (h : c.Resembles c') :
    Agrees (SameBut Expr.withoutSpans) (functionTail limit mode (fuel + 1) start c)
      (functionTail limit mode (fuel + 1) start' c') := by
  simp only [Parse.functionTail]
  -- the body is read alike however the parameters were
  have hblock : ∀ (names : List String) {d d' : Cursor}, d.Resembles d' →
      Agrees (SameBut Expr.withoutSpans)
        (block limit mode fuel d >>= fun body =>
          .ok (.function (body.2.spanFrom start) names body.1, body.2))
        (block limit mode fuel d' >>= fun body =>
          .ok (.function (body.2.spanFrom start') names body.1, body.2)) := by
    intro names d d' hd
    refine (ih.block hd).bind fun body body' hb => .done ?_ hb.cursor
    simp only [Expr.withoutSpans, hb.result]
  refine (agrees_expect h _).bind ?_
  rintro ⟨paren?, d⟩ ⟨paren?', d'⟩ ⟨hparen, hd⟩
  rcases eq_or_exists_of_map_text hparen with ⟨rfl, rfl⟩ | ⟨paren, paren', rfl, rfl, -⟩
  · exact hblock [] hd
  · rcases hd.accept? .rightParen with ⟨ha, ha'⟩ | ⟨t, e, t', e', ha, ha', -, he⟩
    · simp only [ha, ha']
      refine (ih.params _ 0 hd).bind ?_
      rintro ⟨names, e⟩ ⟨names', e'⟩ ⟨hnames, he⟩
      obtain rfl : names' = names := hnames
      exact hblock names' he
    · simp only [ha, ha']
      exact hblock [] he

private theorem alike_lambdaTail (start start' : Nat) (h : c.Resembles c') :
    Agrees (SameBut Expr.withoutSpans) (lambdaTail limit mode (fuel + 1) start c)
      (lambdaTail limit mode (fuel + 1) start' c') := by
  simp only [Parse.lambdaTail]
  refine (ih.params _ 0 h).bind fun names names' hnames => ?_
  refine (ih.expr 0 hnames.cursor).bind fun body body' hb => .done ?_ hb.cursor
  have hsame : names'.1 = names.1 := hnames.result
  simp only [Expr.withoutSpans, hsame, hb.result]

/-! ### Statements -/

private theorem alike_statements (rounds : Nat) (h : c.Resembles c') :
    Agrees (SameBut Statement.listWithoutSpans) (statements limit mode (fuel + 1) rounds c)
      (statements limit mode (fuel + 1) rounds c') := by
  simp only [Parse.statements, h.kind?_eq]
  split
  · exact .done rfl h
  · exact .done rfl h
  · refine (agrees_tick limit rounds c c').bind ?_
    rintro _ n rfl
    refine (ih.statement h).bind fun first first' hs => ?_
    refine (ih.statements n hs.cursor).bind fun rest rest' hss => .done ?_ hss.cursor
    simp only [Statement.listWithoutSpans, hs.result, hss.result]

/-- A condition in parentheses and a statement behind it, whatever they are used for. -/
private theorem agrees_headed {β : Type} {S : β → β → Prop}
    {f f' : Expr × Cursor → Statement × Cursor → Except ParseError β} (h : c.Resembles c')
    (hf : ∀ condition condition' s s', SameBut Expr.withoutSpans condition condition' →
      SameBut Statement.withoutSpans s s' → Agrees S (f condition s) (f' condition' s')) :
    Agrees S
      (do
        let c ← c.require mode .leftParen
        let condition ← expr limit mode fuel 0 c
        let c ← condition.2.require mode .rightParen
        let s ← statement limit mode fuel c
        f condition s)
      (do
        let c ← c'.require mode .leftParen
        let condition ← expr limit mode fuel 0 c
        let c ← condition.2.require mode .rightParen
        let s ← statement limit mode fuel c
        f' condition s) := by
  refine (agrees_require h _).bind fun d d' hd => ?_
  refine (ih.expr 0 hd).bind fun condition condition' he => ?_
  refine (agrees_require he.cursor _).bind fun d d' hd => ?_
  exact (ih.statement hd).bind fun s s' hs => hf _ _ _ _ he hs

private theorem alike_statement (h : c.Resembles c') :
    Agrees (SameBut Statement.withoutSpans) (statement limit mode (fuel + 1) c)
      (statement limit mode (fuel + 1) c') := by
  simp only [Parse.statement]
  rcases h.cases_rest with ⟨hr, hr'⟩ | ⟨t, rest, t', rest', hr, hr', ht, hrest⟩
  · simp only [hr, hr']
    exact ih.simpleStatement h
  · simp only [hr, hr', ht.kind]
    have hpass : (c.pass t rest).Resembles (c'.pass t' rest') := resembles_pass hrest
    split
    · exact ih.block h
    · rcases hpass.accept? .semicolon with ⟨ha, ha'⟩ | ⟨s, d, s', d', ha, ha', -, hd⟩
      · simp only [ha, ha']
        refine (ih.expr 0 hpass).bind fun value value' he => ?_
        refine (agrees_require he.cursor _).bind fun d d' hd => .done ?_ hd
        simp only [Statement.withoutSpans, Expr.optionWithoutSpans, he.result]
      · simp only [ha, ha']
        exact .done rfl hd
    · exact (agrees_require hpass _).bind fun d d' hd => .done rfl hd
    · exact (agrees_require hpass _).bind fun d d' hd => .done rfl hd
    · refine agrees_headed ih hpass ?_
      rintro condition condition' ⟨whenTrue, d⟩ ⟨whenTrue', d'⟩ he ⟨hs, hd⟩
      rcases hd.accept? .elseWord with ⟨ha, ha'⟩ | ⟨u, e, u', e', ha, ha', -, he'⟩
      · simp only [ha, ha']
        refine .done ?_ hd
        simp only [Statement.withoutSpans, Statement.optionWithoutSpans, he.result, hs]
      · simp only [ha, ha']
        refine (ih.statement he').bind fun whenFalse whenFalse' hs' => .done ?_ hs'.cursor
        simp only [Statement.withoutSpans, Statement.optionWithoutSpans, he.result, hs, hs'.result]
    · exact ih.forTail _ _ hpass
    · refine agrees_headed ih hpass fun condition condition' body body' he hs => .done ?_ hs.cursor
      simp only [Statement.withoutSpans, he.result, hs.result]
    · exact .done rfl hpass
    · exact ih.simpleStatement h

private theorem alike_simpleStatement (h : c.Resembles c') :
    Agrees (SameBut Statement.withoutSpans) (simpleStatement limit mode (fuel + 1) c)
      (simpleStatement limit mode (fuel + 1) c') := by
  simp only [Parse.simpleStatement]
  exact (ih.declaration h).bind fun _ _ hs =>
    (agrees_require hs.cursor _).bind fun _ _ hd => .done hs.result hd

private theorem alike_forTail (start start' : Nat) (h : c.Resembles c') :
    Agrees (SameBut Statement.withoutSpans) (forTail limit mode (fuel + 1) start c)
      (forTail limit mode (fuel + 1) start' c') := by
  simp only [Parse.forTail]
  refine (agrees_require h _).bind fun d d' hd => ?_
  refine (ih.initializer hd).bind fun initial initial' hi => ?_
  refine (ih.condition hi.cursor).bind fun e? e?' he => ?_
  refine (ih.iterator he.cursor).bind fun step step' hs => ?_
  refine (ih.statement hs.cursor).bind fun body body' hb => .done ?_ hb.cursor
  simp only [Statement.withoutSpans, hi.result, he.result, hs.result, hb.result]

private theorem alike_initializer (h : c.Resembles c') :
    Agrees (SameBut Statement.optionWithoutSpans) (initializer limit mode (fuel + 1) c)
      (initializer limit mode (fuel + 1) c') := by
  simp only [Parse.initializer]
  exact agrees_optional Statement.withoutSpans Statement.optionWithoutSpans _ h
    (fun _ _ => congrArg some) (ih.declaration h)

private theorem alike_condition (h : c.Resembles c') :
    Agrees (SameBut Expr.optionWithoutSpans) (condition limit mode (fuel + 1) c)
      (condition limit mode (fuel + 1) c') := by
  simp only [Parse.condition]
  exact agrees_optional Expr.withoutSpans Expr.optionWithoutSpans _ h
    (fun _ _ => congrArg some) (ih.expr 0 h)

private theorem alike_iterator (h : c.Resembles c') :
    Agrees (SameBut Statement.optionWithoutSpans) (iterator limit mode (fuel + 1) c)
      (iterator limit mode (fuel + 1) c') := by
  simp only [Parse.iterator]
  exact agrees_optional Statement.withoutSpans Statement.optionWithoutSpans _ h
    (fun _ _ => congrArg some) (ih.assignment h)

private theorem alike_block (h : c.Resembles c') :
    Agrees (SameBut Statement.withoutSpans) (block limit mode (fuel + 1) c)
      (block limit mode (fuel + 1) c') := by
  simp only [Parse.block]
  refine (agrees_require h _).bind fun d d' hd => ?_
  refine (ih.statements 0 hd).bind fun body body' hb => ?_
  refine (agrees_require hb.cursor _).bind fun d d' hd => .done ?_ hd
  simp only [Statement.withoutSpans, hb.result]

private theorem alike_declaration (h : c.Resembles c') :
    Agrees (SameBut Statement.withoutSpans) (declaration limit mode (fuel + 1) c)
      (declaration limit mode (fuel + 1) c') := by
  simp only [Parse.declaration]
  rcases h.accept? .letWord with ⟨ha, ha'⟩ | ⟨t, d, t', d', ha, ha', -, hd⟩
  · simp only [ha, ha']
    exact ih.assignment h
  · simp only [ha, ha']
    refine (agrees_expect hd _).bind ?_
    rintro ⟨name?, e⟩ ⟨name?', e'⟩ ⟨hname, he⟩
    have hname : name?'.map Token.text = name?.map Token.text := hname
    simp only [he.kind?_eq, hname]
    split
    · exact .done rfl he
    · refine (agrees_require he _).bind fun f f' hf => ?_
      refine (ih.expr 0 hf).bind fun value value' hv => .done ?_ hv.cursor
      simp only [Statement.withoutSpans, Expr.optionWithoutSpans, hv.result]

private theorem alike_assignment (h : c.Resembles c') :
    Agrees (SameBut Statement.withoutSpans) (assignment limit mode (fuel + 1) c)
      (assignment limit mode (fuel + 1) c') := by
  simp only [Parse.assignment]
  rcases h.accept? .identifier with ⟨ha, ha'⟩ | ⟨t, d, t', d', ha, ha', ht, hd⟩
  · simp only [ha, ha']
    exact .error (by simp only [ParseError.withoutPlace, h.kind?_eq])
  · simp only [ha, ha']
    have hnode : (Expr.name t'.span t'.text).withoutSpans =
        (Expr.name t.span t.text).withoutSpans := by
      simp only [Expr.withoutSpans, ht.text]
    refine (ih.suffixes 0 false hd hnode).bind ?_
    rintro ⟨⟨target, isCall⟩, e⟩ ⟨⟨target', isCall'⟩, e'⟩ ⟨hs, he⟩
    obtain ⟨htarget, rfl⟩ : target'.withoutSpans = target.withoutSpans ∧ isCall' = isCall := by
      simpa using hs
    have he : e.Resembles e' := he
    dsimp only
    split
    · exact .done (by simp only [Statement.ofExpr, Statement.withoutSpans, htarget]) he
    · rcases he.cases_rest with ⟨hr, hr'⟩ | ⟨t, rest, t', rest', hr, hr', ht, hrest⟩
      · simp only [hr, hr']
        exact agrees_unassigned he htarget
      · simp only [hr, hr', ht.kind]
        split
        · refine (ih.expr 0 (resembles_pass hrest)).bind fun value value' hv =>
            .done ?_ hv.cursor
          simp only [Statement.withoutSpans, htarget, hv.result]
        · exact agrees_unassigned he htarget

private theorem alike_suffixes {node node' : Expr} (rounds : Nat) (isCall : Bool)
    (h : c.Resembles c') (hnode : node'.withoutSpans = node.withoutSpans) :
    Agrees (SameBut (Prod.map Expr.withoutSpans id))
      (suffixes limit mode (fuel + 1) rounds node isCall c)
      (suffixes limit mode (fuel + 1) rounds node' isCall c') := by
  simp only [Parse.suffixes]
  have hdone : Agrees (SameBut (Prod.map Expr.withoutSpans id)) (.ok ((node, isCall), c))
      (.ok ((node', isCall), c')) := .done (congrArg (·, isCall) hnode) h
  refine (agrees_tick limit rounds c c').bind ?_
  rintro _ n rfl
  rcases h.cases_rest with ⟨hr, hr'⟩ | ⟨t, rest, t', rest', hr, hr', ht, hrest⟩
  · simp only [hr, hr']
    exact hdone
  · simp only [hr, hr', ht.kind]
    have hpass : (c.pass t rest).Resembles (c'.pass t' rest') := resembles_pass hrest
    -- the suffix is joined to what stands in front of it, and the loop goes on
    have hjoin : ∀ {right right' d d'} (op : BinaryOp) (flag : Bool),
        SameBut Expr.withoutSpans right right' → d.Resembles d' →
        Agrees (SameBut (Prod.map Expr.withoutSpans id))
          (suffixes limit mode fuel n (.join op node right.1) flag d)
          (suffixes limit mode fuel n (.join op node' right'.1) flag d') := by
      intro right right' d d' op flag he hd
      refine ih.suffixes n flag hd ?_
      simp only [Expr.join, Expr.withoutSpans, hnode, he.result]
    split
    · exact (ih.expr 8 hpass).bind fun _ _ he => hjoin _ _ he he.cursor
    · exact (ih.arguments hpass).bind fun _ _ he => hjoin _ _ he he.cursor
    · exact (ih.expr 1 hpass).bind fun _ _ he =>
        (agrees_require he.cursor _).bind fun _ _ hd => hjoin _ _ he hd
    · exact hdone

end

/-- The functions of the grammar read alike wherever the tokens lie: by induction on the fuel, since
each calls the others with less of it. -/
theorem readsAlike (limit : Option Nat) (mode : ParseMode) (fuel : Nat) :
    ReadsAlike limit mode fuel := by
  induction fuel with
  | zero =>
    -- without fuel every function breaks off
    constructor <;> intros <;>
      simp only [expr, operand, operators, prefixOperator, operator, arguments, functionTail,
        lambdaTail, params, statements, statement, simpleStatement, forTail, initializer, condition,
        iterator, block, declaration, assignment, suffixes] <;>
      exact .error rfl
  | succ fuel ih =>
    exact {
      expr := alike_expr ih
      operand := alike_operand ih
      operators := alike_operators ih
      prefixOperator := alike_prefixOperator ih
      operator := alike_operator ih
      arguments := alike_arguments ih
      functionTail := alike_functionTail ih
      lambdaTail := alike_lambdaTail ih
      params := alike_params ih
      statements := alike_statements ih
      statement := alike_statement ih
      simpleStatement := alike_simpleStatement ih
      forTail := alike_forTail ih
      initializer := alike_initializer ih
      condition := alike_condition ih
      iterator := alike_iterator ih
      block := alike_block ih
      declaration := alike_declaration ih
      assignment := alike_assignment ih
      suffixes := alike_suffixes ih }

/-! ## Whole texts -/

variable {source source' : String} {tokens tokens' : List Token}

/-- Tokens that are the same but for their places have the same kinds and texts. -/
theorem map_kind_text_of_sameAs (h : List.Forall₂ SameAs tokens tokens') :
    tokens'.map (fun t => (t.kind, t.text)) = tokens.map (fun t => (t.kind, t.text)) := by
  induction h with
  | nil => rfl
  | cons ht _ ih => rw [List.map_cons, List.map_cons, ih, ht.kind, ht.text]

/-- Tokens of texts are the same if their kinds and texts are. -/
theorem resembles_ofTokens (h : Token.scan source = .ok tokens)
    (h' : Token.scan source' = .ok tokens')
    (hp : tokens'.map Token.piece = tokens.map Token.piece) :
    (Cursor.ofTokens tokens).Resembles (.ofTokens tokens') := by
  have hwidth := fun t ht => Token.isEmpty_of_mem_scan (t := t) h ht
  have hwidth' := fun t ht => Token.isEmpty_of_mem_scan (t := t) h' ht
  show List.Forall₂ SameAs tokens tokens'
  clear h h'
  induction tokens generalizing tokens' with
  | nil =>
    rw [List.map_nil, List.map_eq_nil_iff] at hp
    rw [hp]
    exact .nil
  | cons t tokens ih =>
    obtain ⟨t', tokens', rfl, ht, hrest⟩ := List.map_eq_cons_iff.1 hp
    obtain ⟨hk, htext⟩ := Token.piece_eq_iff.1 ht
    obtain ⟨hw, hwidth⟩ := List.forall_mem_cons.1 hwidth
    obtain ⟨hw', hwidth'⟩ := List.forall_mem_cons.1 hwidth'
    exact .cons ⟨hk, htext, fun _ => hw'.trans hw.symm⟩ (ih hrest hwidth hwidth')

theorem agrees_start (mode : ParseMode) (h : Token.scan source = .ok tokens)
    (h' : Token.scan source' = .ok tokens')
    (hp : tokens'.map Token.piece = tokens.map Token.piece) :
    Agrees Cursor.Resembles (start mode source) (start mode source') := by
  have hr := resembles_ofTokens h h' hp
  unfold start
  rw [h, h']
  cases tokens with
  | nil =>
    rw [List.map_nil, List.map_eq_nil_iff] at hp
    subst hp
    cases mode with
    | strict => exact .error rfl
    | tolerant => exact .ok hr
  | cons t tokens =>
    obtain ⟨t', tokens', rfl, -⟩ := List.map_eq_cons_iff.1 hp
    exact .ok hr

theorem agrees_finish (h : c.Resembles c') : Agrees (fun _ _ => True) (finish c) (finish c') := by
  unfold finish
  rcases h.cases_rest with ⟨hr, hr'⟩ | ⟨t, rest, t', rest', hr, hr', ht, -⟩
  · rw [hr, hr']
    exact .ok trivial
  · rw [hr, hr']
    exact .error (by simp only [ParseError.withoutPlace, ht.kind])

end Parse

namespace Code

open Parse

variable {source source' : String} {tokens tokens' : List Token}

/-- Texts with the same tokens are read alike, whether as an expression or as a script. -/
theorem parse_agrees (mode : ParseMode) (isScript : Bool) (h : Token.scan source = .ok tokens)
    (h' : Token.scan source' = .ok tokens')
    (hp : tokens'.map Token.piece = tokens.map Token.piece) :
    Agrees (fun code code' => code'.withoutSpans = code.withoutSpans)
      (Code.parse mode isScript source) (Code.parse mode isScript source') := by
  have hstart := agrees_start mode h h' hp
  unfold Code.parse
  -- the fuel is bounded by the kinds and texts of the tokens, so both readings are given as much
  cases isScript with
  | true =>
    refine Agrees.map (R := fun s s' => s'.withoutSpans = s.withoutSpans) ?_
      fun _ _ => congrArg Code.statement
    refine hstart.bind fun c c' hc => ?_
    rw [hc.budget_eq]
    refine ((readsAlike _ _ _).statements 0 hc).bind fun body body' hb => ?_
    refine (agrees_finish hb.cursor).bind fun _ _ _ => .ok ?_
    simp only [Statement.withoutSpans, hb.result]
  | false =>
    refine Agrees.map (R := fun e e' => e'.withoutSpans = e.withoutSpans) ?_
      fun _ _ => congrArg Code.expression
    refine hstart.bind fun c c' hc => ?_
    rw [hc.budget_eq]
    refine ((readsAlike _ _ _).expr 0 hc).bind fun e e' he => ?_
    exact (agrees_finish he.cursor).bind fun _ _ _ => .ok he.result

/-- Blanks and comments between the tokens of a text, in front of them and behind them do not
matter: any others that begin with a blank may stand in their place. The tokens are the same, and
the text is read as the same tree, spans apart, or refused for the same reason. -/
theorem parse_of_respaced (hscan : Token.scan source = .ok tokens)
    (hr : Piece.Respaced (Piece.pieces source.toList) source'.toList) :
    (∃ tokens', Token.scan source' = .ok tokens' ∧
      tokens'.map (fun t => (t.kind, t.text)) = tokens.map (fun t => (t.kind, t.text))) ∧
    ∀ mode isScript, Agrees (fun code code' => code'.withoutSpans = code.withoutSpans)
      (Code.parse mode isScript source) (Code.parse mode isScript source') := by
  obtain ⟨tokens', hscan', hpieces⟩ := Token.scan_of_respaced hscan hr
  have hsame := resembles_ofTokens hscan hscan' hpieces
  exact ⟨⟨tokens', hscan', map_kind_text_of_sameAs hsame⟩,
    fun mode isScript => parse_agrees mode isScript hscan hscan' hpieces⟩

set_option maxRecDepth 10000 in
/-- What looks like the beginning of a comment or of a string inside of a comment is none. -/
theorem parse_of_respaced_of_comments :
    ∃ tokens, Token.scan "f()/*\"*/-1" = .ok tokens ∧
      Piece.Respaced (Piece.pieces "f()/*\"*/-1".toList) "\tf ( /*//*/) // /*\n-1 //\"".toList ∧
      Agrees (fun code code' => code'.withoutSpans = code.withoutSpans)
        (Code.parse .strict false "f()/*\"*/-1")
        (Code.parse .strict false "\tf ( /*//*/) // /*\n-1 //\"") := by
  have hscan : Token.scan "f()/*\"*/-1" = .ok [⟨.identifier, ⟨0, 1⟩, "f"⟩,
      ⟨.leftParen, ⟨1, 2⟩, "("⟩, ⟨.rightParen, ⟨2, 3⟩, ")"⟩, ⟨.number, ⟨8, 10⟩, "-1"⟩] := by cbv
  have hpieces : Piece.pieces "f()/*\"*/-1".toList =
      [] ++ ⟨.token .identifier, ['f']⟩ :: ([] ++ ⟨.token .leftParen, ['(']⟩ ::
        ([] ++ ⟨.token .rightParen, [')']⟩ :: ([⟨.comment, ['/', '*', '"', '*', '/']⟩] ++
          ⟨.token .number, ['-', '1']⟩ :: []))) := by cbv
  have htext : "\tf ( /*//*/) // /*\n-1 //\"".toList =
      ['\t'] ++ (['f'] ++ ([' '] ++ (['('] ++ ([' ', '/', '*', '/', '/', '*', '/'] ++ ([')'] ++
        ([' ', '/', '/', ' ', '/', '*', '\n'] ++ (['-', '1'] ++ [' ', '/', '/', '"']))))))) := by
    cbv
  have hr : Piece.Respaced (Piece.pieces "f()/*\"*/-1".toList)
      "\tf ( /*//*/) // /*\n-1 //\"".toList := by
    have hblock : Piece.IsTrivia false ['/', '*', '/', '/', '*', '/'] :=
      .blockComment (show ¬['*', '/'] <:+: ['/', '/'] ++ ['*'] by decide) .nil
    have hline : Piece.IsTrivia false ['/', '/', ' ', '/', '*', '\n'] :=
      .lineComment (show '\n' ∉ [' ', '/', '*'] by decide) .nil
    have hlast : Piece.IsTrivia true ['/', '/', '"'] := .lastComment rfl (by decide)
    rw [hpieces, htext]
    refine .piece (by decide) rfl (.trivia (by decide) .nil) ?_
    refine .piece (by decide) rfl (.trivia (by decide) .nil) ?_
    refine .piece (by decide) rfl (.trivia (by decide) hblock) ?_
    refine .piece (by decide) rfl (.trivia (by decide) hline) ?_
    exact .last (by decide) (.trivia (by decide) hlast)
  exact ⟨_, hscan, hr, (parse_of_respaced hscan hr).2 .strict false⟩

end Code

end SearchScript
