import SearchScript.Proofs.Parse.Sound
import SearchScript.Parse.Program

/-!
# The rules of the grammar are followed to the end

Whatever the rules read is read by the functions, whose bound on the depth of calls is never the
reason to stop. Every rule that calls for another phrase has either taken a token, so that the
cursor weighs less, or calls for a phrase of lower rank.

## Key results

- `Reads.weight_le`, `Reads.weight_lt`: reading takes tokens away and never adds any
- `read_eq_ok_iff`: with enough fuel, a phrase is read if and only if the rules read it
- `Reads.unique`: the rules read at most one thing
- `Expr.parse_eq_ok_iff`, `Statement.parseScript_eq_ok_iff`: what it means that a text can be read
-/

namespace SearchScript

namespace Cursor

variable {mode : ParseMode} {c d : Cursor} {t : Token} {kind : TokenKind}

theorem one_le_tokenWeight (t : Token) : 1 ≤ tokenWeight t := by
  unfold tokenWeight
  split <;> omega

theorem weight_of_rest {rest : List Token} (h : c.rest = t :: rest) :
    c.weight = tokenWeight t + (c.pass t rest).weight := by
  simp [weight, h, pass]

theorem weight_lt_of_next? (h : c.next? = some (t, d)) : d.weight < c.weight := by
  obtain ⟨rest, hr, rfl⟩ := next?_eq_some_iff.1 h
  have := one_le_tokenWeight t
  rw [weight_of_rest hr]
  omega

theorem accept?_of_next? (h : c.next? = some (t, d)) (hk : t.kind = kind) :
    c.accept? kind = some (t, d) :=
  accept?_eq_some_iff.2 ⟨h, hk⟩

theorem accept?_of_kind? (h : c.kind? ≠ some kind) : c.accept? kind = none :=
  accept?_eq_none_iff.2 h

/-- What the tolerant mode takes as read leaves the tokens alone. -/
theorem expect_eq_ok_iff {t? : Option Token} :
    c.expect mode kind = .ok (t?, d) ↔
      (∃ t, t? = some t ∧ c.next? = some (t, d) ∧ t.kind = kind) ∨
      (t? = none ∧ c.kind? ≠ some kind ∧ mode = .tolerant ∧
        d = { c with accepted := .empty c.position }) := by
  unfold expect
  cases ha : c.accept? kind with
  | some next =>
    obtain ⟨t, d'⟩ := next
    obtain ⟨hn, hk⟩ := accept?_eq_some_iff.1 ha
    have hkind := kind?_of_next? hn
    constructor
    · intro h
      cases h
      exact .inl ⟨t, rfl, hn, hk⟩
    · rintro (⟨t', rfl, hn', -⟩ | ⟨-, hne, -⟩)
      · rw [hn] at hn'
        cases hn'
        rfl
      · exact absurd (hk ▸ hkind) hne
  | none =>
    have hne := accept?_eq_none_iff.1 ha
    have hnot : ∀ t, ¬(c.next? = some (t, d) ∧ t.kind = kind) := fun t h => by
      rw [← accept?_eq_some_iff, ha] at h
      cases h
    cases mode with
    | tolerant => grind
    | strict =>
      cases hr : c.rest <;> grind

theorem require_eq_ok_iff :
    c.require mode kind = .ok d ↔
      (∃ t, c.next? = some (t, d) ∧ t.kind = kind) ∨
      (c.kind? ≠ some kind ∧ mode = .tolerant ∧ d = { c with accepted := .empty c.position }) := by
  have h : c.require mode kind = .ok d ↔ ∃ t?, c.expect mode kind = .ok (t?, d) := by
    unfold require
    split <;> simp_all
  simp only [h, expect_eq_ok_iff]
  grind

theorem weight_le_of_expect {t? : Option Token} (h : c.expect mode kind = .ok (t?, d)) :
    d.weight ≤ c.weight := by
  rcases expect_eq_ok_iff.1 h with ⟨t, -, hn, -⟩ | ⟨-, -, -, rfl⟩
  · exact Nat.le_of_lt (weight_lt_of_next? hn)
  · exact Nat.le_refl _

theorem weight_lt_of_expect (h : c.expect mode kind = .ok (some t, d)) : d.weight < c.weight := by
  rcases expect_eq_ok_iff.1 h with ⟨t, -, hn, -⟩ | ⟨hnone, -⟩
  · exact weight_lt_of_next? hn
  · cases hnone

theorem weight_le_of_require (h : c.require mode kind = .ok d) : d.weight ≤ c.weight := by
  rcases require_eq_ok_iff.1 h with ⟨t, hn, -⟩ | ⟨-, -, rfl⟩
  · exact Nat.le_of_lt (weight_lt_of_next? hn)
  · exact Nat.le_refl _

theorem weight_lt_of_require (hk : c.kind? = some kind) (h : c.require mode kind = .ok d) :
    d.weight < c.weight := by
  rcases require_eq_ok_iff.1 h with ⟨t, hn, -⟩ | ⟨hne, -⟩
  · exact weight_lt_of_next? hn
  · exact absurd hk hne

theorem weight_lt_of_require_strict (h : c.require .strict kind = .ok d) : d.weight < c.weight := by
  rcases require_eq_ok_iff.1 h with ⟨t, hn, -⟩ | ⟨-, ⟨⟩, -⟩
  exact weight_lt_of_next? hn

theorem weight_lt_of_expect_strict {t? : Option Token} (h : c.expect .strict kind = .ok (t?, d)) :
    d.weight < c.weight := by
  rcases expect_eq_ok_iff.1 h with ⟨t, -, hn, -⟩ | ⟨-, -, ⟨⟩, -⟩
  exact weight_lt_of_next? hn

/-- The two parts of a negative number weigh as much as the number. -/
theorem tokenWeight_of_splitToken? {t minus number : Token}
    (h : splitToken? t = some (minus, number)) :
    tokenWeight minus + tokenWeight number = tokenWeight t := by
  unfold splitToken? at h
  split at h
  · next digits hk ht =>
    cases h
    simp [tokenWeight, hk, ht]
    omega
  · cases h

@[simp] theorem weight_splitNegative (c : Cursor) : c.splitNegative.weight = c.weight := by
  unfold splitNegative
  split
  · next t rest hr =>
    split
    · next minus number hs =>
      have := tokenWeight_of_splitToken? hs
      simp only [weight, hr, List.map_cons, List.sum_cons]
      omega
    · rfl
  · rfl

/-- Only a number may be cut. -/
theorem splitNegative_of_kind? (h : c.kind? ≠ some .number) : c.splitNegative = c := by
  unfold splitNegative splitToken?
  split
  · next t rest hr =>
    rw [kind?_of_rest hr, ne_eq, Option.some.injEq] at h
    simp [h]
  · rfl

end Cursor

namespace Parse

open Cursor

variable {mode : ParseMode} {p : Phrase} {c d : Cursor}

/-- Whether reading a phrase to a result takes at least one token. -/
def Phrase.advances (c : Cursor) : (p : Phrase) → p.Result → Bool
  | prefixOperator _ _, .more _ | operator _ _, .more _ => true
  | statement, _ | simpleStatement, _ | declaration, _ | assignment, _ => true
  | expr _, _ | operand, _ => c.kind? == some .number
  | block, _ => c.kind? == some .leftBrace
  | _, _ => false

theorem eq_of_missing {e : Expr} (h : missing mode c = .ok (e, d)) : d = c := by
  unfold missing at h
  split at h <;> cases h
  rfl

theorem eq_of_unassigned {e : Expr} {s : Statement} (h : unassigned mode e c = .ok (s, d)) :
    d = c := by
  unfold unassigned at h
  split at h <;> cases h
  rfl

/-- Reading takes tokens away, and at least one where a phrase advances. -/
theorem Reads.weight {r : p.Result} (h : Reads mode p c r d) :
    d.weight ≤ c.weight ∧ (p.advances c r = true → d.weight < c.weight) := by
  induction h with
  | _ =>
    simp_all only [Phrase.advances, weight_splitNegative, beq_iff_eq]
    grind [→ weight_lt_of_next?, → weight_lt_of_require, → weight_le_of_require,
      → weight_le_of_expect, → weight_lt_of_expect, → eq_of_missing, → eq_of_unassigned,
      startsAtom]

/-- How many phrases a phrase may call for, one after the other, before one takes a token. Only a
block that lacks its brace calls for statements without taking a token first. -/
def Phrase.rank (c : Cursor) : Phrase → Nat
  | operand | prefixOperator _ _ | operator _ _ | params _ _ | assignment | suffixes _ _ _ => 1
  | operators _ _ _ _ | declaration => 2
  | expr _ | simpleStatement | initializer | iterator => 3
  | arguments | lambdaTail _ | condition | statement => 4
  | statements _ | forTail _ => 5
  | block => if c.kind? = some .leftBrace then 3 else 6
  | functionTail _ => 7

/-- How much fuel reading a phrase takes. -/
def Phrase.fuel (p : Phrase) (c : Cursor) : Nat := 8 * c.weight + p.rank c

section

variable {q : Phrase} {n : Nat}

theorem Phrase.one_le_rank (p : Phrase) (c : Cursor) : 1 ≤ p.rank c := by
  cases p <;> simp only [rank] <;> (try split) <;> decide

theorem Phrase.rank_le (p : Phrase) (c : Cursor) : p.rank c ≤ 7 := by
  cases p <;> simp only [rank] <;> (try split) <;> decide

/-- A phrase is not read without fuel. -/
private theorem read_of_succ {x : Except ParseError (p.Result × Cursor)}
    (h : ∀ n, p.fuel c ≤ n + 1 → p.read (some loopLimit) mode (n + 1) c = x) (fuel : Nat)
    (hf : p.fuel c ≤ fuel) : p.read (some loopLimit) mode fuel c = x := by
  have hp := p.one_le_rank c
  cases fuel with
  | zero => simp only [Phrase.fuel] at hf; omega
  | succ n => exact h n hf

/-- A phrase that is read once a token has been taken has fuel. -/
theorem fuel_of_lt (h : d.weight < c.weight) (hn : p.fuel c ≤ n + 1) : q.fuel d ≤ n := by
  have hp := p.one_le_rank c
  have hq := q.rank_le d
  simp only [Phrase.fuel] at *
  omega

/-- A phrase of lower rank that is read at the same place has fuel. -/
theorem fuel_of_le (h : d.weight ≤ c.weight) (hn : p.fuel c ≤ n + 1)
    (hr : q.rank d < p.rank c) : q.fuel d ≤ n := by
  simp only [Phrase.fuel] at *
  omega

end

theorem tick_of_lt {rounds : Nat} (h : rounds < loopLimit) :
    tick (some loopLimit) rounds c = .ok (rounds + 1) :=
  tick_eq_ok_iff.2 ⟨h, rfl⟩

theorem startsAtom_of_atomOf? {t : Token} {e : Expr} (h : atomOf? t = some e) :
    startsAtom t.kind = true := by
  unfold atomOf? at h
  split at h <;> simp_all [startsAtom]

/-- A token that stands between operands is none of the suffixes. -/
theorem infixDepth?_of_binary {kind : TokenKind} {op : BinaryOp}
    (h : BinaryOp.ofToken? kind = some op) :
    kind.infixDepth? = some op.depth ∧ kind ≠ .period ∧ kind ≠ .leftParen ∧
      kind ≠ .leftBracket ∧ kind ≠ .question := by
  unfold BinaryOp.ofToken? at h
  split at h <;> cases h <;> simp [TokenKind.infixDepth?, BinaryOp.ofToken?]

/-- With enough fuel, what the rules read is read. -/
theorem Reads.read {r : p.Result} (h : Reads mode p c r d) :
    ∀ fuel, p.fuel c ≤ fuel → p.read (some loopLimit) mode fuel c = .ok (r, d) := by
  induction h with
  | @operandAtom c t _ _ hn ha =>
    refine read_of_succ fun n hf => ?_
    -- an atom does not start with a parenthesis, which is tried first
    have hne : t.kind ≠ .leftParen := by
      intro hk
      have := startsAtom_of_atomOf? ha
      rw [hk] at this
      cases this
    have hp : c.accept? .leftParen = none :=
      accept?_of_kind? (by simp [kind?_of_next? hn, hne])
    simp only [Phrase.read, Parse.operand, hp, atom?_eq_some_iff.2 ⟨t, hn, ha⟩, Except.ok_bind]
  | operatorsPrefix hr hs _ ihs ih =>
    refine read_of_succ fun n hf => ?_
    -- a step at the same place has a lower rank; the loop goes on behind the tokens of the step
    have hs' := ihs n (fuel_of_le (Nat.le_refl _) hf (by simp [Phrase.rank]))
    have ih' := ih n (fuel_of_lt (hs.weight.2 rfl) hf)
    simp only [Phrase.read] at hs' ih'
    simp only [Phrase.read, Parse.operators, tick_of_lt hr, Except.ok_bind, hs', ih']
  | operatorsMore hr hs _ ihs ih =>
    refine read_of_succ fun n hf => ?_
    have hs' := ihs n (fuel_of_le (Nat.le_of_eq (weight_splitNegative _)) hf
      (by simp [Phrase.rank]))
    have ih' := ih n (fuel_of_lt (by simpa using hs.weight.2 rfl) hf)
    simp only [Phrase.read] at hs' ih'
    simp only [Phrase.read, Parse.operators, tick_of_lt hr, Except.ok_bind, hs', ih']
  | infixMember hn hk hd _ ih =>
    refine read_of_succ fun n hf => ?_
    have ih' := ih n (fuel_of_lt (weight_lt_of_next? hn) hf)
    obtain ⟨rest, hr, rfl⟩ := next?_eq_some_iff.1 hn
    simp only [Phrase.read] at ih'
    simp only [Phrase.read, Parse.operator, hr, hk, TokenKind.infixDepth?, Nat.not_le.2 hd, ih',
      Except.ok_bind, if_false]
  | infixCall hn hk hd _ ih =>
    refine read_of_succ fun n hf => ?_
    have ih' := ih n (fuel_of_lt (weight_lt_of_next? hn) hf)
    obtain ⟨rest, hr, rfl⟩ := next?_eq_some_iff.1 hn
    simp only [Phrase.read] at ih'
    simp only [Phrase.read, Parse.operator, hr, hk, TokenKind.infixDepth?, Nat.not_le.2 hd, ih',
      Except.ok_bind, if_false]
  | infixSubscript hn hk hd _ hq ih =>
    refine read_of_succ fun n hf => ?_
    have ih' := ih n (fuel_of_lt (weight_lt_of_next? hn) hf)
    obtain ⟨rest, hr, rfl⟩ := next?_eq_some_iff.1 hn
    simp only [Phrase.read] at ih'
    simp only [Phrase.read, Parse.operator, hr, hk, TokenKind.infixDepth?, Nat.not_le.2 hd, ih',
      Except.ok_bind, if_false, hq]
  | infixTernary hn hk hd he hq _ ihe ih =>
    refine read_of_succ fun n hf => ?_
    -- each part starts behind the one before it, so the fuel that is left suffices for it
    have hw := weight_lt_of_next? hn
    have ihe' := ihe n (fuel_of_lt hw hf)
    have ih' := ih n (fuel_of_lt
      (Nat.lt_of_le_of_lt (Nat.le_trans (weight_le_of_require hq) he.weight.1) hw) hf)
    obtain ⟨rest, hr, rfl⟩ := next?_eq_some_iff.1 hn
    simp only [Phrase.read] at ihe' ih'
    simp only [Phrase.read, Parse.operator, hr, hk, TokenKind.infixDepth?, Nat.not_le.2 hd, ihe',
      ih', Except.ok_bind, if_false, hq]
  | @infixBinary _ _ _ t _ _ _ _ hn ho hd _ ih =>
    refine read_of_succ fun n hf => ?_
    have ih' := ih n (fuel_of_lt (weight_lt_of_next? hn) hf)
    obtain ⟨rest, hr, rfl⟩ := next?_eq_some_iff.1 hn
    obtain ⟨hlevel, h₁, h₂, h₃, h₄⟩ := infixDepth?_of_binary ho
    simp only [Phrase.read] at ih'
    simp only [Phrase.read, Parse.operator, hr, hlevel, Nat.not_le.2 hd, if_false]
    split <;> simp_all [Except.ok_bind]
  | @statementsMore rounds c kind s c₁ ss c₂ hk hne hr hs _ ihs ih =>
    refine read_of_succ fun n hf => ?_
    have hs' := ihs n (fuel_of_le (Nat.le_refl _) hf (by simp [Phrase.rank]))
    have ih' := ih n (fuel_of_lt (hs.weight.2 rfl) hf)
    simp only [Phrase.read] at hs' ih'
    simp only [Phrase.read, Parse.statements, hk]
    simp only [tick_of_lt hr, hs', ih', Except.ok_bind]
  | statementIf hn hk hp he hq hs hnot ihe ihs =>
    refine read_of_succ fun n hf => ?_
    have hw := Nat.lt_of_le_of_lt (weight_le_of_require hp) (weight_lt_of_next? hn)
    have ihe' := ihe n (fuel_of_lt hw hf)
    have hw := Nat.lt_of_le_of_lt (Nat.le_trans (weight_le_of_require hq) he.weight.1) hw
    have ihs' := ihs n (fuel_of_lt hw hf)
    obtain ⟨rest, hr, rfl⟩ := next?_eq_some_iff.1 hn
    simp only [Phrase.read] at ihe' ihs'
    simp only [Phrase.read, Parse.statement, hr, hk, hp, ihe', hq, ihs', Except.ok_bind,
      accept?_of_kind? hnot]
  | statementIfElse hn hk hp he hq hs hn' hk' _ ihe ihs ihs' =>
    refine read_of_succ fun n hf => ?_
    have hw := Nat.lt_of_le_of_lt (weight_le_of_require hp) (weight_lt_of_next? hn)
    have ihe' := ihe n (fuel_of_lt hw hf)
    have hw := Nat.lt_of_le_of_lt (Nat.le_trans (weight_le_of_require hq) he.weight.1) hw
    have ihs := ihs n (fuel_of_lt hw hf)
    have hw := Nat.lt_trans (Nat.lt_of_lt_of_le (weight_lt_of_next? hn') hs.weight.1) hw
    have ihs' := ihs' n (fuel_of_lt hw hf)
    obtain ⟨rest, hr, rfl⟩ := next?_eq_some_iff.1 hn
    simp only [Phrase.read] at ihe' ihs ihs'
    simp only [Phrase.read, Parse.statement, hr, hk, hp, ihe', hq, ihs, ihs', Except.ok_bind,
      accept?_of_next? hn' hk']
  | statementWhile hn hk hp he hq _ ihe ihs =>
    refine read_of_succ fun n hf => ?_
    have hw := Nat.lt_of_le_of_lt (weight_le_of_require hp) (weight_lt_of_next? hn)
    have ihe' := ihe n (fuel_of_lt hw hf)
    have hw := Nat.lt_of_le_of_lt (Nat.le_trans (weight_le_of_require hq) he.weight.1) hw
    have ihs' := ihs n (fuel_of_lt hw hf)
    obtain ⟨rest, hr, rfl⟩ := next?_eq_some_iff.1 hn
    simp only [Phrase.read] at ihe' ihs'
    simp only [Phrase.read, Parse.statement, hr, hk, hp, ihe', hq, ihs', Except.ok_bind]
  | forLoop hp hi he hs _ ihi ihe ihs ih =>
    refine read_of_succ fun n hf => ?_
    have hw := weight_le_of_require hp
    have ihi' := ihi n (fuel_of_le hw hf (by simp [Phrase.rank]))
    have hw := Nat.le_trans hi.weight.1 hw
    have ihe' := ihe n (fuel_of_le hw hf (by simp [Phrase.rank]))
    have hw := Nat.le_trans he.weight.1 hw
    have ihs' := ihs n (fuel_of_le hw hf (by simp [Phrase.rank]))
    have hw := Nat.le_trans hs.weight.1 hw
    have ih' := ih n (fuel_of_le hw hf (by simp [Phrase.rank]))
    simp only [Phrase.read] at ihi' ihe' ihs' ih'
    simp only [Phrase.read, Parse.forTail, hp, ihi', ihe', ihs', ih', Except.ok_bind]
  -- the rules with one part, or with none
  | _ =>
    refine read_of_succ fun n hf => ?_
    simp only [Phrase.fuel, Phrase.rank, weight_splitNegative] at *
    simp only [Phrase.read, Parse.expr, Parse.operand, Parse.operators, Parse.prefixOperator,
      Parse.operator, Parse.arguments, Parse.functionTail, Parse.lambdaTail, Parse.params,
      Parse.statements, Parse.statement, Parse.simpleStatement, Parse.initializer,
      Parse.condition, Parse.iterator, Parse.block, Parse.declaration, Parse.assignment,
      Parse.suffixes] at *
    grind -linarith [→ Reads.weight, → weight_lt_of_next?, → weight_lt_of_require,
      → weight_le_of_require, → weight_le_of_expect, → weight_lt_of_expect,
      = accept?_eq_some_iff, = accept?_eq_none_iff, → kind?_of_next?, → kind?_of_rest,
      → kind?_of_rest_nil, next?_eq_some_iff, tick_of_lt, = Except.ok_bind, noPrefix, noInfix,
      startsAtom, startsStatement, startsSuffix, atom?_eq_none_iff]

/-- With enough fuel, a phrase is read if and only if the rules read it. -/
theorem read_eq_ok_iff {fuel : Nat} (hf : p.fuel c ≤ fuel) {r : p.Result} :
    p.read (some loopLimit) mode fuel c = .ok (r, d) ↔ Reads mode p c r d :=
  ⟨reads_of_read fuel p c r d, fun h => h.read fuel hf⟩

/-- The rules read at most one thing. -/
theorem Reads.unique {r r' : p.Result} {d' : Cursor} (h : Reads mode p c r d)
    (h' : Reads mode p c r' d') : r = r' ∧ d = d' := by
  have hr := h.read (p.fuel c) (Nat.le_refl _)
  rw [h'.read (p.fuel c) (Nat.le_refl _)] at hr
  cases hr
  exact ⟨rfl, rfl⟩

theorem finish_eq_ok_iff : finish c = .ok () ↔ c.rest = [] := by
  unfold finish
  split <;> simp_all

/-- What is read has been scanned. -/
theorem exists_scan_of_start {source : String} (h : start mode source = .ok c) :
    ∃ tokens, Token.scan source = .ok tokens := by
  unfold start at h
  cases hscan : Token.scan source with
  | ok tokens => exact ⟨tokens, rfl⟩
  | error e =>
    rw [hscan] at h
    cases h

/-- A text is read from its first token on. -/
theorem rest_of_start {source : String} {tokens : List Token}
    (hscan : Token.scan source = .ok tokens) (h : start mode source = .ok c) : c.rest = tokens := by
  unfold start at h
  rw [hscan] at h
  split at h
  · cases h
  · next hnil =>
    cases hnil
    split at h <;> cases h
    rfl
  · next hok =>
    cases hok
    cases h
    rfl

/-- A text without tokens is no strict program. -/
theorem rest_ne_nil_of_start {source : String} (h : start .strict source = .ok c) :
    c.rest ≠ [] := by
  unfold start at h
  split at h
  · cases h
  · cases h
  · next hne _ =>
    cases h
    exact hne

theorem fuel_le_budget : p.fuel c ≤ c.budget := by
  have := p.rank_le c
  simp only [Phrase.fuel, budget]
  omega

end Parse

variable {mode : ParseMode} {source : String}

/-- A text is an expression if the rules read all of its tokens as one. -/
theorem Expr.parse_eq_ok_iff {e : Expr} :
    Expr.parse mode source = .ok e ↔ ∃ c d, Parse.start mode source = .ok c ∧
      Parse.Reads mode (.expr 0) c e d ∧ d.rest = [] := by
  simp only [Expr.parse, Except.bind_eq_ok_iff, Prod.exists]
  constructor
  · rintro ⟨c, hc, e', d, he, ⟨⟩, hd, ⟨⟩⟩
    exact ⟨c, d, hc, Parse.reads_of_read _ (.expr 0) _ _ _ he, Parse.finish_eq_ok_iff.1 hd⟩
  · rintro ⟨c, d, hc, he, hd⟩
    exact ⟨c, hc, e, d, he.read _ Parse.fuel_le_budget, (),
      Parse.finish_eq_ok_iff.2 hd, rfl⟩

/-- A text is a script if the rules read all of its tokens as statements. -/
theorem Statement.parseScript_eq_ok_iff {s : Statement} :
    Statement.parseScript mode source = .ok s ↔ ∃ c body d, Parse.start mode source = .ok c ∧
      Parse.Reads mode (.statements 0) c body d ∧ d.rest = [] ∧
      s = .block ⟨c.position, d.position⟩ body := by
  simp only [Statement.parseScript, Except.bind_eq_ok_iff, Prod.exists]
  constructor
  · rintro ⟨c, hc, body, d, hb, ⟨⟩, hd, ⟨⟩⟩
    exact ⟨c, body, d, hc, Parse.reads_of_read _ (.statements 0) _ _ _ hb,
      Parse.finish_eq_ok_iff.1 hd, rfl⟩
  · rintro ⟨c, body, d, hc, hb, hd, rfl⟩
    exact ⟨c, hc, body, d, hb.read _ Parse.fuel_le_budget, (),
      Parse.finish_eq_ok_iff.2 hd, rfl⟩

end SearchScript
