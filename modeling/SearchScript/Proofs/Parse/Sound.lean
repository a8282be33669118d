import Mathlib.Data.Bool.Basic
import SearchScript.Proofs.Except
import SearchScript.Proofs.Parse.Rules

/-!
# The functions of the grammar follow its rules

Whatever a function of the grammar reads is read by the rules. The proof takes the functions apart
once, one lemma for each function; everything else about successful reading is proved on the rules.

## Key results

- `Phrase.read`: the function that reads a phrase
- `reads_of_read`: what it reads, the rules read
-/

namespace SearchScript

namespace Cursor

variable {c d : Cursor} {t : Token} {kind : TokenKind}

theorem next?_eq_some_iff :
    c.next? = some (t, d) ↔ ∃ rest, c.rest = t :: rest ∧ d = c.pass t rest := by
  cases hr : c.rest with
  | nil => simp [next?, hr]
  | cons token rest =>
    simp only [next?, hr, Option.some.injEq, Prod.mk.injEq, List.cons.injEq]
    grind

theorem next?_of_rest {rest : List Token} (h : c.rest = t :: rest) :
    c.next? = some (t, c.pass t rest) := by
  simp [next?, h]

theorem kind?_of_rest {rest : List Token} (h : c.rest = t :: rest) :
    c.kind? = some t.kind := by
  simp [kind?, h]

theorem kind?_of_rest_nil (h : c.rest = []) : c.kind? = none := by
  simp [kind?, h]

theorem kind?_of_next? (h : c.next? = some (t, d)) : c.kind? = some t.kind := by
  obtain ⟨rest, hr, -⟩ := next?_eq_some_iff.1 h
  exact kind?_of_rest hr

theorem accept?_eq_some_iff :
    c.accept? kind = some (t, d) ↔ c.next? = some (t, d) ∧ t.kind = kind := by
  cases hr : c.rest with
  | nil => simp [accept?, next?, hr]
  | cons token rest =>
    simp only [accept?, next?, hr]
    split <;> grind

theorem accept?_eq_none_iff : c.accept? kind = none ↔ c.kind? ≠ some kind := by
  unfold accept? kind?
  split <;> simp_all

end Cursor

namespace Parse

open Cursor

/-- Reads a phrase, with loops that go round no more often than a limit, if there is one. -/
def Phrase.read (limit : Option Nat) (mode : ParseMode) (fuel : Nat) :
    (p : Phrase) → Cursor → Except ParseError (p.Result × Cursor)
  | expr depth, c => Parse.expr limit mode fuel depth c
  | operand, c => Parse.operand limit mode fuel c
  | operators depth start rounds left, c =>
    Parse.operators limit mode fuel depth start rounds left c
  | prefixOperator depth start, c => Parse.prefixOperator limit mode fuel depth start c
  | operator depth left, c => Parse.operator limit mode fuel depth left c
  | arguments, c => Parse.arguments limit mode fuel c
  | functionTail start, c => Parse.functionTail limit mode fuel start c
  | lambdaTail start, c => Parse.lambdaTail limit mode fuel start c
  | params closing rounds, c => Parse.params limit mode closing fuel rounds c
  | statements rounds, c => Parse.statements limit mode fuel rounds c
  | statement, c => Parse.statement limit mode fuel c
  | simpleStatement, c => Parse.simpleStatement limit mode fuel c
  | forTail start, c => Parse.forTail limit mode fuel start c
  | initializer, c => Parse.initializer limit mode fuel c
  | condition, c => Parse.condition limit mode fuel c
  | iterator, c => Parse.iterator limit mode fuel c
  | block, c => Parse.block limit mode fuel c
  | declaration, c => Parse.declaration limit mode fuel c
  | assignment, c => Parse.assignment limit mode fuel c
  | suffixes rounds node isCall, c => Parse.suffixes limit mode fuel rounds node isCall c

/-- Nothing is read without fuel. -/
theorem Phrase.read_zero (limit : Option Nat) (mode : ParseMode) (p : Phrase) (c : Cursor) :
    p.read limit mode 0 c = .error (.loopLimit c.position) := by
  cases p with
  | _ =>
    simp only [Phrase.read, Parse.expr, Parse.operand, Parse.operators, Parse.prefixOperator,
      Parse.operator, Parse.arguments, Parse.functionTail, Parse.lambdaTail, Parse.params,
      Parse.statements, Parse.statement, Parse.simpleStatement, Parse.forTail, Parse.initializer,
      Parse.condition, Parse.iterator, Parse.block, Parse.declaration, Parse.assignment,
      Parse.suffixes]

/-- Whatever is read with this fuel is read by the rules. -/
def Follows (mode : ParseMode) (fuel : Nat) : Prop :=
  ∀ (p : Phrase) (c : Cursor) (r : p.Result) (d : Cursor),
    p.read (some loopLimit) mode fuel c = .ok (r, d) → Reads mode p c r d

variable {mode : ParseMode} {fuel : Nat} {c d : Cursor}

theorem tick_eq_ok_iff {limit rounds n : Nat} :
    tick (some limit) rounds c = .ok n ↔ rounds < limit ∧ n = rounds + 1 := by
  simp only [tick, Option.any_some, decide_eq_true_eq]
  split <;> grind

theorem atom?_eq_some_iff {e : Expr} :
    atom? c = .ok (some (e, d)) ↔ ∃ t, c.next? = some (t, d) ∧ atomOf? t = some e := by
  cases hr : c.rest with
  | nil => simp [atom?, next?, hr]
  | cons t rest =>
    simp only [atom?, next?, hr, atomOf?]
    split <;> grind

theorem atom?_eq_none_iff :
    atom? c = .ok none ↔ ∀ kind, c.kind? = some kind → startsAtom kind = false := by
  cases hr : c.rest with
  | nil => simp [atom?, kind?, hr]
  | cons t rest =>
    simp only [atom?, kind?, hr, startsAtom, List.head?_cons, Option.map_some, Option.some.injEq,
      forall_eq']
    split <;> grind

section

variable (ih : Follows mode fuel)
include ih

/-! ## Expressions -/

private theorem reads_expr {depth : Nat} {e : Expr}
    (h : Parse.expr (some loopLimit) mode (fuel + 1) depth c = .ok (e, d)) :
    Reads mode (.expr depth) c e d := by
  simp only [Parse.expr] at h
  split at h
  · next t c₁ hf =>
    obtain ⟨hn, hk⟩ := accept?_eq_some_iff.1 hf
    exact .exprFunction hn hk (ih (.functionTail _) _ _ _ h)
  · next hf =>
    split at h
    · next t c₁ hl =>
      obtain ⟨hn, hk⟩ := accept?_eq_some_iff.1 hl
      exact .exprLambda hn hk (ih (.lambdaTail _) _ _ _ h)
    · next hl =>
      obtain ⟨⟨node?, c₁⟩, ho, h⟩ := Except.bind_eq_ok_iff.1 h
      exact .exprOperators (accept?_eq_none_iff.1 hf) (accept?_eq_none_iff.1 hl)
        (ih .operand _ _ _ ho) (ih (.operators ..) _ _ _ h)

private theorem reads_operand {e? : Option Expr}
    (h : Parse.operand (some loopLimit) mode (fuel + 1) c = .ok (e?, d)) :
    Reads mode .operand c e? d := by
  simp only [Parse.operand] at h
  split at h
  · next t c₁ hp =>
    obtain ⟨hn, hk⟩ := accept?_eq_some_iff.1 hp
    obtain ⟨⟨e, c₂⟩, he, h⟩ := Except.bind_eq_ok_iff.1 h
    obtain ⟨c₃, hr, h⟩ := Except.bind_eq_ok_iff.1 h
    cases h
    exact .operandParens hn hk (ih (.expr 1) _ _ _ he) hr
  · next hp =>
    obtain ⟨a?, ha, h⟩ := Except.bind_eq_ok_iff.1 h
    rcases a? with _ | ⟨e, c₁⟩ <;> cases h
    · exact .operandNone (accept?_eq_none_iff.1 hp) (atom?_eq_none_iff.1 ha)
    · obtain ⟨t, hn, he⟩ := atom?_eq_some_iff.1 ha
      exact .operandAtom hn he

private theorem reads_operators {depth start rounds : Nat} {left : Option Expr} {e : Expr}
    (h : Parse.operators (some loopLimit) mode (fuel + 1) depth start rounds left c = .ok (e, d)) :
    Reads mode (.operators depth start rounds left) c e d := by
  cases left with
  | none =>
    simp only [Parse.operators] at h
    obtain ⟨n, ht, h⟩ := Except.bind_eq_ok_iff.1 h
    obtain ⟨hlt, rfl⟩ := tick_eq_ok_iff.1 ht
    obtain ⟨⟨step, c₁⟩, hs, h⟩ := Except.bind_eq_ok_iff.1 h
    cases step with
    | more e' =>
      exact .operatorsPrefix hlt (ih (.prefixOperator ..) _ _ _ hs) (ih (.operators ..) _ _ _ h)
    | done => exact .operatorsMissing hlt (ih (.prefixOperator ..) _ _ _ hs) h
  | some left =>
    simp only [Parse.operators] at h
    obtain ⟨n, ht, h⟩ := Except.bind_eq_ok_iff.1 h
    obtain ⟨hlt, rfl⟩ := tick_eq_ok_iff.1 ht
    obtain ⟨⟨step, c₁⟩, hs, h⟩ := Except.bind_eq_ok_iff.1 h
    cases step with
    | more e' => exact .operatorsMore hlt (ih (.operator ..) _ _ _ hs) (ih (.operators ..) _ _ _ h)
    | done =>
      cases h
      exact .operatorsDone hlt (ih (.operator ..) _ _ _ hs)

private theorem reads_prefixOperator {depth start : Nat} {step : Step}
    (h : Parse.prefixOperator (some loopLimit) mode (fuel + 1) depth start c = .ok (step, d)) :
    Reads mode (.prefixOperator depth start) c step d := by
  simp only [Parse.prefixOperator] at h
  split at h
  · next hr =>
    cases h
    exact .prefixDone (by simp [kind?_of_rest_nil hr, noPrefix])
  · next t rest hr =>
    split at h
    -- at this depth no prefix operator is read
    · next hd =>
      cases h
      exact .prefixDone (by simp [kind?_of_rest hr, noPrefix, hd])
    · next hd =>
      split at h
      · next op ho =>
        obtain ⟨⟨e, c₁⟩, he, h⟩ := Except.bind_eq_ok_iff.1 h
        cases h
        exact .prefixUnary (next?_of_rest hr) (by omega) ho (ih (.expr 7) _ _ _ he)
      · next ho =>
        split at h
        -- an operator of two operands lacks the left one, unless it is left to an outer phrase
        · next level hl =>
          split at h
          · cases h
          · next hlevel =>
            cases h
            exact .prefixDone (by simp [kind?_of_rest hr, noPrefix, ho, hl]; omega)
        · next hl =>
          cases h
          exact .prefixDone (by simp [kind?_of_rest hr, noPrefix, ho, hl])

private theorem reads_operator {depth : Nat} {left : Expr} {step : Step}
    (h : Parse.operator (some loopLimit) mode (fuel + 1) depth left c = .ok (step, d)) :
    Reads mode (.operator depth left) c step d := by
  simp only [Parse.operator] at h
  split at h
  · next hr =>
    cases h
    exact .infixDone (by simp [kind?_of_rest_nil hr, noInfix])
  · next t rest hr =>
    split at h
    · next hl =>
      cases h
      exact .infixDone (by simp [kind?_of_rest hr, noInfix, hl])
    · next level hl =>
      split at h
      · next hd =>
        cases h
        exact .infixDone (by simp [kind?_of_rest hr, noInfix, hl, hd])
      · next hd =>
        have hn := next?_of_rest hr
        split at h
        -- a member access
        · next hk =>
          obtain ⟨⟨e, c₁⟩, he, h⟩ := Except.bind_eq_ok_iff.1 h
          cases h
          simp only [hk, TokenKind.infixDepth?, Option.some.injEq] at hl
          exact .infixMember hn hk (by omega) (ih (.expr 8) _ _ _ he)
        -- a call
        · next hk =>
          obtain ⟨⟨e, c₁⟩, he, h⟩ := Except.bind_eq_ok_iff.1 h
          cases h
          simp only [hk, TokenKind.infixDepth?, Option.some.injEq] at hl
          exact .infixCall hn hk (by omega) (ih .arguments _ _ _ he)
        -- a subscript
        · next hk =>
          obtain ⟨⟨e, c₁⟩, he, h⟩ := Except.bind_eq_ok_iff.1 h
          obtain ⟨c₂, hq, h⟩ := Except.bind_eq_ok_iff.1 h
          cases h
          simp only [hk, TokenKind.infixDepth?, Option.some.injEq] at hl
          exact .infixSubscript hn hk (by omega) (ih (.expr 1) _ _ _ he) hq
        -- a ternary
        · next hk =>
          obtain ⟨⟨e, c₁⟩, he, h⟩ := Except.bind_eq_ok_iff.1 h
          obtain ⟨c₂, hq, h⟩ := Except.bind_eq_ok_iff.1 h
          obtain ⟨⟨e', c₃⟩, he', h⟩ := Except.bind_eq_ok_iff.1 h
          cases h
          simp only [hk, TokenKind.infixDepth?, Option.some.injEq] at hl
          exact .infixTernary hn hk (by omega) (ih (.expr 3) _ _ _ he) hq (ih (.expr 3) _ _ _ he')
        -- another operator of two operands
        · next h₁ h₂ h₃ h₄ =>
          have hlevel : t.kind.infixDepth? = (BinaryOp.ofToken? t.kind).map BinaryOp.depth := by
            unfold TokenKind.infixDepth?
            split <;> simp_all
          split at h
          · next op ho =>
            obtain ⟨⟨e, c₁⟩, he, h⟩ := Except.bind_eq_ok_iff.1 h
            cases h
            obtain rfl : op.depth = level := by simpa [hlevel, ho] using hl
            exact .infixBinary hn ho (by omega) (ih (.expr _) _ _ _ he)
          · next ho => simp [hlevel, ho] at hl

private theorem reads_arguments {e : Expr}
    (h : Parse.arguments (some loopLimit) mode (fuel + 1) c = .ok (e, d)) :
    Reads mode .arguments c e d := by
  simp only [Parse.arguments] at h
  split at h
  · next t c₁ hp =>
    obtain ⟨hn, hk⟩ := accept?_eq_some_iff.1 hp
    cases h
    exact .argumentsNone hn hk
  · next hp =>
    obtain ⟨⟨e, c₁⟩, he, h⟩ := Except.bind_eq_ok_iff.1 h
    obtain ⟨c₂, hr, h⟩ := Except.bind_eq_ok_iff.1 h
    cases h
    exact .argumentsSome (accept?_eq_none_iff.1 hp) (ih (.expr 1) _ _ _ he) hr

private theorem reads_functionTail {start : Nat} {e : Expr}
    (h : Parse.functionTail (some loopLimit) mode (fuel + 1) start c = .ok (e, d)) :
    Reads mode (.functionTail start) c e d := by
  simp only [Parse.functionTail] at h
  obtain ⟨⟨paren?, c₁⟩, hp, h⟩ := Except.bind_eq_ok_iff.1 h
  cases paren? with
  -- the tolerant mode goes on without the parenthesis
  | none =>
    simp only [pure_bind] at h
    obtain ⟨⟨s, c₂⟩, hs, h⟩ := Except.bind_eq_ok_iff.1 h
    cases h
    exact .functionMissing hp (ih .block _ _ _ hs)
  | some p =>
    cases ha : c₁.accept? .rightParen with
    | some next =>
      obtain ⟨t, c₂⟩ := next
      obtain ⟨hn, hk⟩ := accept?_eq_some_iff.1 ha
      simp only [ha, pure_bind] at h
      obtain ⟨⟨s, c₃⟩, hs, h⟩ := Except.bind_eq_ok_iff.1 h
      cases h
      exact .functionBare hp hn hk (ih .block _ _ _ hs)
    | none =>
      simp only [ha] at h
      obtain ⟨⟨names, c₂⟩, hnames, h⟩ := Except.bind_eq_ok_iff.1 h
      obtain ⟨⟨s, c₃⟩, hs, h⟩ := Except.bind_eq_ok_iff.1 h
      cases h
      exact .functionParams hp (accept?_eq_none_iff.1 ha) (ih (.params ..) _ _ _ hnames)
        (ih .block _ _ _ hs)

private theorem reads_lambdaTail {start : Nat} {e : Expr}
    (h : Parse.lambdaTail (some loopLimit) mode (fuel + 1) start c = .ok (e, d)) :
    Reads mode (.lambdaTail start) c e d := by
  simp only [Parse.lambdaTail] at h
  obtain ⟨⟨names, c₁⟩, hnames, h⟩ := Except.bind_eq_ok_iff.1 h
  obtain ⟨⟨e, c₂⟩, he, h⟩ := Except.bind_eq_ok_iff.1 h
  cases h
  exact .lambda (ih (.params ..) _ _ _ hnames) (ih (.expr 0) _ _ _ he)

private theorem reads_params {closing : TokenKind} {rounds : Nat} {names : List String}
    (h : Parse.params (some loopLimit) mode closing (fuel + 1) rounds c = .ok (names, d)) :
    Reads mode (.params closing rounds) c names d := by
  simp only [Parse.params] at h
  obtain ⟨n, ht, h⟩ := Except.bind_eq_ok_iff.1 h
  obtain ⟨hlt, rfl⟩ := tick_eq_ok_iff.1 ht
  obtain ⟨⟨name?, c₁⟩, hname, h⟩ := Except.bind_eq_ok_iff.1 h
  cases name? with
  | none =>
    cases h
    exact .paramsNone hlt hname
  | some name =>
    simp only at h
    split at h
    · next t c₂ ha =>
      obtain ⟨hn, hk⟩ := accept?_eq_some_iff.1 ha
      cases h
      exact .paramsLast hlt hname hn hk
    · next ha =>
      obtain ⟨⟨comma?, c₂⟩, hcomma, h⟩ := Except.bind_eq_ok_iff.1 h
      -- the parameters may be cut off behind a name
      cases comma? with
      | none =>
        cases h
        exact .paramsCut hlt hname (accept?_eq_none_iff.1 ha) hcomma
      | some comma =>
        obtain ⟨⟨names, c₃⟩, hnames, h⟩ := Except.bind_eq_ok_iff.1 h
        cases h
        exact .paramsMore hlt hname (accept?_eq_none_iff.1 ha) hcomma (ih (.params ..) _ _ _ hnames)

/-! ## Statements -/

private theorem reads_statements {rounds : Nat} {ss : List Statement}
    (h : Parse.statements (some loopLimit) mode (fuel + 1) rounds c = .ok (ss, d)) :
    Reads mode (.statements rounds) c ss d := by
  simp only [Parse.statements] at h
  split at h
  · next hk =>
    cases h
    exact .statementsDone (.inl hk)
  · next hk =>
    cases h
    exact .statementsDone (.inr hk)
  · next kind hne hk =>
    obtain ⟨n, ht, h⟩ := Except.bind_eq_ok_iff.1 h
    obtain ⟨hlt, rfl⟩ := tick_eq_ok_iff.1 ht
    obtain ⟨⟨s, c₁⟩, hs, h⟩ := Except.bind_eq_ok_iff.1 h
    obtain ⟨⟨ss, c₂⟩, hss, h⟩ := Except.bind_eq_ok_iff.1 h
    cases h
    exact .statementsMore hk (fun he => hne he) hlt (ih .statement _ _ _ hs)
      (ih (.statements _) _ _ _ hss)

private theorem reads_statement {s : Statement}
    (h : Parse.statement (some loopLimit) mode (fuel + 1) c = .ok (s, d)) :
    Reads mode .statement c s d := by
  simp only [Parse.statement] at h
  split at h
  · next hr =>
    exact .statementSimple (by simp [kind?_of_rest_nil hr]) (ih .simpleStatement _ _ _ h)
  · next t rest hr =>
    have hn := next?_of_rest hr
    -- each kind of statement begins with a token of its own
    split at h
    · next hk => exact .statementBlock (by rw [kind?_of_rest hr, hk]) (ih .block _ _ _ h)
    · next hk =>
      split at h
      · next t' c₂ ha =>
        obtain ⟨hn', hk'⟩ := accept?_eq_some_iff.1 ha
        cases h
        exact .statementReturn hn hk hn' hk'
      · next ha =>
        obtain ⟨⟨e, c₂⟩, he, h⟩ := Except.bind_eq_ok_iff.1 h
        obtain ⟨c₃, hq, h⟩ := Except.bind_eq_ok_iff.1 h
        cases h
        exact .statementReturnValue hn hk (accept?_eq_none_iff.1 ha) (ih (.expr 0) _ _ _ he) hq
    · next hk =>
      obtain ⟨c₂, hq, h⟩ := Except.bind_eq_ok_iff.1 h
      cases h
      exact .statementBreak hn hk hq
    · next hk =>
      obtain ⟨c₂, hq, h⟩ := Except.bind_eq_ok_iff.1 h
      cases h
      exact .statementContinue hn hk hq
    · next hk =>
      obtain ⟨c₂, hp, h⟩ := Except.bind_eq_ok_iff.1 h
      obtain ⟨⟨e, c₃⟩, he, h⟩ := Except.bind_eq_ok_iff.1 h
      obtain ⟨c₄, hq, h⟩ := Except.bind_eq_ok_iff.1 h
      obtain ⟨⟨s, c₅⟩, hs, h⟩ := Except.bind_eq_ok_iff.1 h
      have he := ih (.expr 0) _ _ _ he
      have hs := ih .statement _ _ _ hs
      simp only at h
      split at h
      · next t' c₆ ha =>
        obtain ⟨hn', hk'⟩ := accept?_eq_some_iff.1 ha
        obtain ⟨⟨s', c₇⟩, hs', h⟩ := Except.bind_eq_ok_iff.1 h
        cases h
        exact .statementIfElse hn hk hp he hq hs hn' hk' (ih .statement _ _ _ hs')
      · next ha =>
        cases h
        exact .statementIf hn hk hp he hq hs (accept?_eq_none_iff.1 ha)
    · next hk => exact .statementFor hn hk (ih (.forTail _) _ _ _ h)
    · next hk =>
      obtain ⟨c₂, hp, h⟩ := Except.bind_eq_ok_iff.1 h
      obtain ⟨⟨e, c₃⟩, he, h⟩ := Except.bind_eq_ok_iff.1 h
      obtain ⟨c₄, hq, h⟩ := Except.bind_eq_ok_iff.1 h
      obtain ⟨⟨s, c₅⟩, hs, h⟩ := Except.bind_eq_ok_iff.1 h
      cases h
      exact .statementWhile hn hk hp (ih (.expr 0) _ _ _ he) hq (ih .statement _ _ _ hs)
    · next hk =>
      cases h
      exact .statementEmpty hn hk
    -- any other token begins a declaration, an assignment or a call
    · refine .statementSimple (fun kind hk => ?_) (ih .simpleStatement _ _ _ h)
      obtain rfl : t.kind = kind := by simpa [kind?_of_rest hr] using hk
      unfold startsStatement
      split <;> simp_all

private theorem reads_simpleStatement {s : Statement}
    (h : Parse.simpleStatement (some loopLimit) mode (fuel + 1) c = .ok (s, d)) :
    Reads mode .simpleStatement c s d := by
  simp only [Parse.simpleStatement] at h
  obtain ⟨⟨s, c₁⟩, hs, h⟩ := Except.bind_eq_ok_iff.1 h
  obtain ⟨c₂, hq, h⟩ := Except.bind_eq_ok_iff.1 h
  cases h
  exact .simple (ih .declaration _ _ _ hs) hq

private theorem reads_forTail {start : Nat} {s : Statement}
    (h : Parse.forTail (some loopLimit) mode (fuel + 1) start c = .ok (s, d)) :
    Reads mode (.forTail start) c s d := by
  simp only [Parse.forTail] at h
  obtain ⟨c₁, hp, h⟩ := Except.bind_eq_ok_iff.1 h
  obtain ⟨⟨initial, c₂⟩, hi, h⟩ := Except.bind_eq_ok_iff.1 h
  obtain ⟨⟨e?, c₃⟩, he, h⟩ := Except.bind_eq_ok_iff.1 h
  obtain ⟨⟨step, c₄⟩, hs, h⟩ := Except.bind_eq_ok_iff.1 h
  obtain ⟨⟨body, c₅⟩, hb, h⟩ := Except.bind_eq_ok_iff.1 h
  cases h
  exact .forLoop hp (ih .initializer _ _ _ hi) (ih .condition _ _ _ he) (ih .iterator _ _ _ hs)
    (ih .statement _ _ _ hb)

private theorem reads_initializer {s? : Option Statement}
    (h : Parse.initializer (some loopLimit) mode (fuel + 1) c = .ok (s?, d)) :
    Reads mode .initializer c s? d := by
  simp only [Parse.initializer] at h
  split at h
  · next t c₁ ha =>
    obtain ⟨hn, hk⟩ := accept?_eq_some_iff.1 ha
    cases h
    exact .initializerNone hn hk
  · next ha =>
    obtain ⟨⟨s, c₁⟩, hs, h⟩ := Except.bind_eq_ok_iff.1 h
    obtain ⟨c₂, hq, h⟩ := Except.bind_eq_ok_iff.1 h
    cases h
    exact .initializerSome (accept?_eq_none_iff.1 ha) (ih .declaration _ _ _ hs) hq

private theorem reads_condition {e? : Option Expr}
    (h : Parse.condition (some loopLimit) mode (fuel + 1) c = .ok (e?, d)) :
    Reads mode .condition c e? d := by
  simp only [Parse.condition] at h
  split at h
  · next t c₁ ha =>
    obtain ⟨hn, hk⟩ := accept?_eq_some_iff.1 ha
    cases h
    exact .conditionNone hn hk
  · next ha =>
    obtain ⟨⟨e, c₁⟩, he, h⟩ := Except.bind_eq_ok_iff.1 h
    obtain ⟨c₂, hq, h⟩ := Except.bind_eq_ok_iff.1 h
    cases h
    exact .conditionSome (accept?_eq_none_iff.1 ha) (ih (.expr 0) _ _ _ he) hq

private theorem reads_iterator {s? : Option Statement}
    (h : Parse.iterator (some loopLimit) mode (fuel + 1) c = .ok (s?, d)) :
    Reads mode .iterator c s? d := by
  simp only [Parse.iterator] at h
  split at h
  · next t c₁ ha =>
    obtain ⟨hn, hk⟩ := accept?_eq_some_iff.1 ha
    cases h
    exact .iteratorNone hn hk
  · next ha =>
    obtain ⟨⟨s, c₁⟩, hs, h⟩ := Except.bind_eq_ok_iff.1 h
    obtain ⟨c₂, hq, h⟩ := Except.bind_eq_ok_iff.1 h
    cases h
    exact .iteratorSome (accept?_eq_none_iff.1 ha) (ih .assignment _ _ _ hs) hq

private theorem reads_block {s : Statement}
    (h : Parse.block (some loopLimit) mode (fuel + 1) c = .ok (s, d)) :
    Reads mode .block c s d := by
  simp only [Parse.block] at h
  obtain ⟨c₁, hp, h⟩ := Except.bind_eq_ok_iff.1 h
  obtain ⟨⟨ss, c₂⟩, hs, h⟩ := Except.bind_eq_ok_iff.1 h
  obtain ⟨c₃, hq, h⟩ := Except.bind_eq_ok_iff.1 h
  cases h
  exact .block hp (ih (.statements 0) _ _ _ hs) hq

private theorem reads_declaration {s : Statement}
    (h : Parse.declaration (some loopLimit) mode (fuel + 1) c = .ok (s, d)) :
    Reads mode .declaration c s d := by
  simp only [Parse.declaration] at h
  split at h
  · next ha => exact .declarationAssignment (accept?_eq_none_iff.1 ha) (ih .assignment _ _ _ h)
  · next t c₁ ha =>
    obtain ⟨hn, hk⟩ := accept?_eq_some_iff.1 ha
    obtain ⟨⟨name?, c₂⟩, hname, h⟩ := Except.bind_eq_ok_iff.1 h
    simp only at h
    split at h
    · next hend =>
      cases h
      exact .declarationBare hn hk hname hend
    · next hend =>
      obtain ⟨c₃, hq, h⟩ := Except.bind_eq_ok_iff.1 h
      obtain ⟨⟨e, c₄⟩, he, h⟩ := Except.bind_eq_ok_iff.1 h
      cases h
      exact .declarationValue hn hk hname hend hq (ih (.expr 0) _ _ _ he)

private theorem reads_assignment {s : Statement}
    (h : Parse.assignment (some loopLimit) mode (fuel + 1) c = .ok (s, d)) :
    Reads mode .assignment c s d := by
  simp only [Parse.assignment] at h
  split at h
  · cases h
  · next t c₁ ha =>
    obtain ⟨hn, hk⟩ := accept?_eq_some_iff.1 ha
    obtain ⟨⟨⟨target, isCall⟩, c₂⟩, ht, h⟩ := Except.bind_eq_ok_iff.1 h
    have ht := ih (.suffixes ..) _ _ _ ht
    cases isCall with
    | true =>
      cases h
      exact .assignmentCall hn hk ht
    | false =>
      simp only [Bool.false_eq_true, ↓reduceIte] at h
      -- what is no call has to be assigned to
      split at h
      · next t' rest hr =>
        split at h
        · next op ho =>
          obtain ⟨⟨e, c₃⟩, he, h⟩ := Except.bind_eq_ok_iff.1 h
          cases h
          exact .assignmentValue hn hk ht (next?_of_rest hr) ho (ih (.expr 0) _ _ _ he)
        · next ho =>
          refine .assignmentMissing hn hk ht (fun kind hkind => ?_) h
          rw [kind?_of_rest hr] at hkind
          cases hkind
          exact ho
      · next hr =>
        exact .assignmentMissing hn hk ht (by simp [kind?_of_rest_nil hr]) h

private theorem reads_suffixes {rounds : Nat} {node : Expr} {isCall : Bool} {r : Expr × Bool}
    (h : Parse.suffixes (some loopLimit) mode (fuel + 1) rounds node isCall c = .ok (r, d)) :
    Reads mode (.suffixes rounds node isCall) c r d := by
  simp only [Parse.suffixes] at h
  obtain ⟨n, ht, h⟩ := Except.bind_eq_ok_iff.1 h
  obtain ⟨hlt, rfl⟩ := tick_eq_ok_iff.1 ht
  split at h
  · next hr =>
    cases h
    exact .suffixesDone hlt (by simp [kind?_of_rest_nil hr])
  · next t rest hr =>
    have hn := next?_of_rest hr
    split at h
    · next hk =>
      obtain ⟨⟨e, c₂⟩, he, h⟩ := Except.bind_eq_ok_iff.1 h
      exact .suffixesMember hlt hn hk (ih (.expr 8) _ _ _ he) (ih (.suffixes ..) _ _ _ h)
    · next hk =>
      obtain ⟨⟨e, c₂⟩, he, h⟩ := Except.bind_eq_ok_iff.1 h
      exact .suffixesCall hlt hn hk (ih .arguments _ _ _ he) (ih (.suffixes ..) _ _ _ h)
    · next hk =>
      obtain ⟨⟨e, c₂⟩, he, h⟩ := Except.bind_eq_ok_iff.1 h
      obtain ⟨c₃, hq, h⟩ := Except.bind_eq_ok_iff.1 h
      exact .suffixesSubscript hlt hn hk (ih (.expr 1) _ _ _ he) hq (ih (.suffixes ..) _ _ _ h)
    -- no suffix begins here
    · cases h
      refine .suffixesDone hlt fun kind hkind => ?_
      rw [kind?_of_rest hr] at hkind
      cases hkind
      unfold startsSuffix
      split <;> simp_all

end

/-- Whatever is read is read by the rules. -/
theorem reads_of_read : ∀ fuel, Follows mode fuel := by
  intro fuel
  induction fuel with
  -- without a step nothing is read
  | zero =>
    intro p c r d h
    rw [Phrase.read_zero] at h
    cases h
  | succ fuel ih =>
    intro p c r d h
    cases p with
    | expr => exact reads_expr ih h
    | operand => exact reads_operand ih h
    | operators => exact reads_operators ih h
    | prefixOperator => exact reads_prefixOperator ih h
    | operator => exact reads_operator ih h
    | arguments => exact reads_arguments ih h
    | functionTail => exact reads_functionTail ih h
    | lambdaTail => exact reads_lambdaTail ih h
    | params => exact reads_params ih h
    | statements => exact reads_statements ih h
    | statement => exact reads_statement ih h
    | simpleStatement => exact reads_simpleStatement ih h
    | forTail => exact reads_forTail ih h
    | initializer => exact reads_initializer ih h
    | condition => exact reads_condition ih h
    | iterator => exact reads_iterator ih h
    | block => exact reads_block ih h
    | declaration => exact reads_declaration ih h
    | assignment => exact reads_assignment ih h
    | suffixes => exact reads_suffixes ih h

end Parse

end SearchScript
