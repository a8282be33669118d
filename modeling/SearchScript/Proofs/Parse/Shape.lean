import SearchScript.Proofs.Parse.Complete
import SearchScript.Proofs.Syntax.Shape
import SearchScript.Proofs.Token.Pieces

/-!
# What the strict parser makes

Every tree that the rules read in the strict mode is shaped: the proof is one induction on the
rules, with what each phrase contributes to the shape of the tree.

## Key results

- `Reads.endsOpen`: an `if` without an `else` is not followed by one
- `Reads.shaped`: what the strict rules read is shaped
-/

namespace SearchScript

namespace Cursor

/-- Whether a token is spelt as its kind requires, as far as trees keep the spelling. -/
def IsLexical (t : Token) : Prop :=
  (t.kind = .identifier → isIdentifier t.text = true) ∧
    (t.kind = .null → t.span.isEmpty = false)

/-- Whether all tokens that are left are spelt as their kinds require. -/
def Lexical (c : Cursor) : Prop := ∀ t ∈ c.rest, IsLexical t

variable {c d : Cursor} {t : Token} {mode : ParseMode} {kind : TokenKind}

theorem Lexical.next? (h : c.Lexical) (hn : c.next? = some (t, d)) : IsLexical t ∧ d.Lexical := by
  obtain ⟨rest, hr, rfl⟩ := next?_eq_some_iff.1 hn
  simp only [Lexical, hr, List.forall_mem_cons] at h
  exact h

theorem Lexical.expect {t? : Option Token} (h : c.Lexical)
    (he : c.expect mode kind = .ok (t?, d)) : d.Lexical := by
  rcases expect_eq_ok_iff.1 he with ⟨t, -, hn, -⟩ | ⟨-, -, -, rfl⟩
  · exact (h.next? hn).2
  · exact h

theorem Lexical.require (h : c.Lexical) (hr : c.require mode kind = .ok d) : d.Lexical := by
  rcases require_eq_ok_iff.1 hr with ⟨t, hn, -⟩ | ⟨-, -, rfl⟩
  · exact (h.next? hn).2
  · exact h

theorem Lexical.splitNegative (h : c.Lexical) : c.splitNegative.Lexical := by
  unfold Cursor.splitNegative
  split
  · next t rest hr =>
    split
    · next minus number hs =>
      unfold splitToken? at hs
      split at hs <;> cases hs
      simp only [Lexical, hr, List.forall_mem_cons] at h ⊢
      exact ⟨⟨by simp, by simp⟩, ⟨by simp, by simp⟩, h.2⟩
    · exact h
  · exact h

/-- The tokens of a text are spelt as their kinds require. -/
theorem isLexical_of_mem_scan {source : String} {tokens : List Token}
    (h : Token.scan source = .ok tokens) (ht : t ∈ tokens) : IsLexical t := by
  obtain ⟨a, rest, n, hc, htext, hspan⟩ := Token.of_mem_scan h ht
  refine ⟨fun hk => ?_, fun _ => by simp [Span.isEmpty]; omega⟩
  rw [hk] at hc
  rcases Piece.classify_eq_token hc with ⟨hw, rfl, hid⟩ | ⟨-, -, ⟨⟩⟩ | ⟨-, -, ⟨⟩⟩ | ⟨ho, -⟩
  · rw [← List.prefix_iff_eq_take.1 (List.takeWhile_prefix _)] at htext
    have hofWord : TokenKind.ofWord t.text = .identifier := by
      rw [hid, ← htext, String.ofList_toList]
    simp [isIdentifier, htext, hw, hofWord]
  · exact absurd (Piece.operator?_eq_some ho).1 (by decide)

theorem lexical_start {source : String} (h : Parse.start mode source = .ok c) : c.Lexical := by
  unfold Parse.start at h
  split at h
  · cases h
  · split at h <;> cases h
    exact List.forall_mem_nil _
  · next tokens _ hs =>
    cases h
    exact fun t ht => isLexical_of_mem_scan hs ht

end Cursor

namespace Parse

open Cursor

variable {mode : ParseMode} {p : Phrase} {c d : Cursor}

/-- Reading leaves tokens as they are. -/
theorem Reads.lexical {r : p.Result} (h : Reads mode p c r d) (hc : c.Lexical) : d.Lexical := by
  induction h with
  | _ =>
    grind [→ Lexical.next?, → Lexical.expect, → Lexical.require, → Lexical.splitNegative,
      → eq_of_missing, → eq_of_unassigned]

/-- Whether what was read may end with an `if` that lacks its `else`, and what then follows. -/
def Phrase.EndsOpen : (p : Phrase) → p.Result → Cursor → Prop
  | statement, s, d | forTail _, s, d => s.endsOpen = true → d.kind? ≠ some .elseWord
  | simpleStatement, s, _ | block, s, _ | declaration, s, _ | assignment, s, _ =>
    s.endsOpen = false
  | _, _, _ => True

theorem endsOpen_of_unassigned {e : Expr} {s : Statement}
    (h : unassigned mode e c = .ok (s, d)) : s.endsOpen = false := by
  unfold unassigned at h
  split at h <;> cases h
  rfl

/-- An `if` without an `else` is not followed by one. -/
theorem Reads.endsOpen {r : p.Result} (h : Reads mode p c r d) : p.EndsOpen r d := by
  induction h with
  | _ => grind [Phrase.EndsOpen, Statement.endsOpen, Statement.ofExpr, → endsOpen_of_unassigned]

/-- What the node that a phrase continues has to be. -/
def Phrase.Given : Phrase → Prop
  | operators _ _ _ (some left) | operator _ left =>
    Code.Shaped left.nodes ∧ left.isOperand = true
  | suffixes _ node isCall =>
    Code.Shaped node.nodes ∧ node.isChain = true ∧ node.isCall = isCall
  | _ => True

/-- What was read is shaped, and is what the phrase stands for. -/
def Phrase.Shaped : (p : Phrase) → p.Result → Prop
  | expr _, e | operators _ _ _ _, e | functionTail _, e | lambdaTail _, e =>
    Code.Shaped e.nodes ∧ e.isOperand = true
  | operand, e? => ∀ e, e? = some e → Code.Shaped e.nodes ∧ e.isOperand = true
  | prefixOperator _ _, step | operator _ _, step =>
    ∀ e, step = .more e → Code.Shaped e.nodes ∧ e.isOperand = true
  | arguments, e => Code.Shaped e.nodes
  | params _ _, names => names ≠ [] ∧ ∀ name ∈ names, isIdentifier name = true
  | statements _, ss => Code.Shaped (Statement.listNodes ss)
  | statement, s | forTail _, s => Code.Shaped s.nodes
  | simpleStatement, s | declaration, s => Code.Shaped s.nodes ∧ s.isSimple = true
  | initializer, s? =>
    Code.Shaped (Statement.optionNodes s?) ∧ s?.all Statement.isSimple = true
  | condition, e? => Code.Shaped (Expr.optionNodes e?) ∧ e?.all Expr.isOperand = true
  | iterator, s? =>
    Code.Shaped (Statement.optionNodes s?) ∧ s?.all Statement.isAssignment = true
  | block, s => Code.Shaped s.nodes ∧ s.isBlock = true
  | assignment, s => Code.Shaped s.nodes ∧ s.isAssignment = true
  | suffixes _ _ _, (e, isCall) =>
    Code.Shaped e.nodes ∧ e.isChain = true ∧ e.isCall = isCall

/-- A literal or a name is shaped. -/
theorem shaped_of_atomOf? {t : Token} {e : Expr} (ht : IsLexical t) (h : atomOf? t = some e) :
    Code.Shaped e.nodes ∧ e.isOperand = true := by
  unfold atomOf? at h
  split at h
  case h_8 =>
    split at h <;> cases h
    simp [Expr.nodes, Code.Shaped, Code.isShaped, Expr.isOperand, Expr.isNoArguments]
  case h_9 => cases h
  all_goals
    cases h
    simp_all [Expr.nodes, Code.Shaped, Code.isShaped, Expr.isOperand, Expr.isNoArguments,
      IsLexical]

/-- A token that the strict mode expects is there. -/
theorem expect_strict {kind : TokenKind} {t? : Option Token}
    (h : c.expect .strict kind = .ok (t?, d)) :
    ∃ t, t? = some t ∧ c.next? = some (t, d) ∧ t.kind = kind := by
  rcases expect_eq_ok_iff.1 h with h | ⟨-, -, ⟨⟩, -⟩
  exact h

/-- What the strict rules read is shaped. -/
theorem Reads.shaped {r : p.Result} (h : Reads .strict p c r d) (hc : c.Lexical)
    (hp : p.Given) : p.Shaped r := by
  induction h with
  | operandAtom hn ha =>
    rintro e ⟨⟩
    exact shaped_of_atomOf? (hc.next? hn).1 ha
  | operatorsMissing _ _ hm => cases hm
  | operatorsMore _ hs _ ihs ih =>
    exact ih (hs.lexical hc.splitNegative) (ihs hc.splitNegative hp _ rfl)
  | assignmentMissing _ _ _ _ hm => cases hm
  | _ =>
    simp only [Phrase.Given, Phrase.Shaped, Expr.join, Expr.nodes, Statement.nodes,
      Statement.listNodes, Statement.optionNodes, Expr.optionNodes, Code.shaped_cons,
      Code.shaped_append, Code.shaped_nil, Code.isShaped, Statement.ofExpr, Step.more.injEq,
      forall_eq', Option.some.injEq, Option.all_some, Option.all_none, reduceCtorEq, false_implies,
      implies_true, Bool.and_eq_true, true_implies, and_true, true_and, List.all_eq_true] at * <;>
    grind [Expr.isChain, Expr.isCall, Statement.isAssignment, Statement.isSimple,
      Statement.isBlock, Expr.isOperand, Expr.isNoArguments, → Lexical.next?, → Lexical.expect,
      → Lexical.require, → Reads.lexical, → expect_strict, IsLexical, Phrase.EndsOpen,
      → Reads.endsOpen, → kind?_of_next?, → Expr.isOperand_of_isChain,
      → Statement.isSimple_of_isAssignment]

end Parse

variable {source : String}

/-- An expression that is strictly read is shaped. -/
theorem Expr.shaped_of_parse {e : Expr} (h : Expr.parse .strict source = .ok e) :
    Code.Shaped e.nodes ∧ e.isOperand = true := by
  obtain ⟨c, d, hc, hr, -⟩ := Expr.parse_eq_ok_iff.1 h
  exact hr.shaped (Cursor.lexical_start hc) trivial

/-- A script that is strictly read is a block, and shaped. -/
theorem Statement.shaped_of_parseScript {s : Statement}
    (h : Statement.parseScript .strict source = .ok s) :
    Code.Shaped s.nodes ∧ s.isBlock = true := by
  obtain ⟨c, body, d, hc, hr, -, rfl⟩ := Statement.parseScript_eq_ok_iff.1 h
  have hb := hr.shaped (Cursor.lexical_start hc) trivial
  simp only [Parse.Phrase.Shaped] at hb
  simp [Statement.nodes, Code.shaped_cons, Code.isShaped, Statement.isBlock, hb]

end SearchScript
