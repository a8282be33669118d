import Mathlib
import SearchScript.Proofs.Parse.Inversion
import SearchScript.Proofs.Parse.Tolerant
import SearchScript.Document.Analysis

/-!
# Expressions and scripts are kept apart

A document is read as an expression first, so a script must not pass for one, not even in the
tolerant mode, which takes a missing operand as read. It cannot: where a statement starts with a
name and its suffixes, an expression is read through the same suffixes by the rules for operators,
and stops with them at the semicolon or the assignment operator; where a statement starts with
anything else, no expression starts at all. Either way a token is left, and the text is no
expression.

## Key results

- `Reads.operators_of_suffixes`: the suffixes of a statement are operators to an expression
- `Reads.expr_of_statement`: an expression read in place of a statement leaves a token
- `Expr.parse_tolerant_of_script`: the tolerant mode reads no script as an expression
- `Document.parse_forms`: the tolerant mode reads a complete document in the same form and as the
  same tree as the strict mode, which reads no text in both forms
-/

namespace SearchScript

namespace TokenKind

variable {kind : TokenKind}

/-- Whether a token ends the chain of suffixes that a strictly read statement starts with. -/
def endsTarget : TokenKind → Bool
  | .semicolon => true
  | kind => (AssignOp.ofToken? kind).isSome

theorem endsTarget_of_assign {op : AssignOp} (h : AssignOp.ofToken? kind = some op) :
    kind.endsTarget = true := by
  cases kind <;> simp_all [endsTarget, AssignOp.ofToken?]

/-- What ends the target of a statement is no operator of an expression. -/
theorem noInfix_of_endsTarget (h : kind.endsTarget = true) (depth : Nat) :
    Parse.noInfix depth (some kind) = true := by
  cases kind <;>
    simp_all [endsTarget, AssignOp.ofToken?, Parse.noInfix, infixDepth?, BinaryOp.ofToken?]

theorem ne_number_of_endsTarget (h : kind.endsTarget = true) : kind ≠ .number := by
  rintro rfl
  simp [endsTarget, AssignOp.ofToken?] at h

/-- Whether a token starts a statement that no expression starts with. -/
def startsOnlyStatement : TokenKind → Bool
  | .letWord => true
  | kind => Parse.startsStatement kind

/-- In place of an operand, such a token is neither an operand nor an operator. -/
theorem starts_nothing_of_startsOnlyStatement (h : kind.startsOnlyStatement = true) :
    kind ≠ .functionWord ∧ kind ≠ .lambdaWord ∧ kind ≠ .leftParen ∧
      Parse.startsAtom kind = false ∧ ∀ depth, Parse.noPrefix depth (some kind) = true := by
  cases kind <;>
    simp_all [startsOnlyStatement, Parse.startsStatement, Parse.startsAtom, Parse.noPrefix,
      UnaryOp.ofToken?, infixDepth?, BinaryOp.ofToken?]

end TokenKind

namespace Parse

open Cursor TokenKind

variable {mode : ParseMode} {c d c₁ : Cursor} {t : Token}

/-- What a chain of suffixes leads to when an expression is read in its place. -/
def Phrase.AsOperators (mode : ParseMode) (d : Cursor) : (p : Phrase) → p.Result → Cursor → Prop
  | suffixes rounds node _, (e, _), c =>
      ∀ depth start, depth < 8 → noInfix depth d.kind? = true → d.kind? ≠ some .number →
        Reads mode (.operators depth start rounds (some node)) c e d
  | _, _, _ => True

/-- One more suffix is one more operator; the token in front of it is never cut. -/
theorem Reads.operators_of_more {depth start rounds : Nat} {node left e : Expr}
    {kind : TokenKind} (hrounds : rounds < loopLimit) (hk : c.kind? = some kind)
    (hs : startsSuffix kind = true) (hop : Reads mode (.operator depth node) c (.more left) c₁)
    (h : Reads mode (.operators depth start (rounds + 1) (some left)) c₁ e d) :
    Reads mode (.operators depth start rounds (some node)) c e d := by
  refine .operatorsMore hrounds ?_ h
  rw [splitNegative_of_kind? (by rw [hk]; rintro ⟨⟩; simp [startsSuffix] at hs)]
  exact hop

/-- The suffixes that a statement starts with are read as operators of an expression, round by
round, provided that no operator follows them. -/
theorem Reads.asOperators {p : Phrase} {r : p.Result} (h : Reads mode p c r d) :
    p.AsOperators mode d r c := by
  induction h with
  | suffixesDone hrounds _ =>
    intro depth start _ hinfix hnumber
    refine .operatorsDone hrounds ?_
    rw [splitNegative_of_kind? hnumber]
    exact .infixDone hinfix
  | suffixesMember hrounds hn hk he _ _ ih =>
    intro depth start hdepth hinfix hnumber
    exact .operators_of_more hrounds (kind?_of_next? hn) (by rw [hk]; rfl)
      (.infixMember hn hk hdepth he) (ih depth start hdepth hinfix hnumber)
  | suffixesCall hrounds hn hk ha _ _ ih =>
    intro depth start hdepth hinfix hnumber
    exact .operators_of_more hrounds (kind?_of_next? hn) (by rw [hk]; rfl)
      (.infixCall hn hk hdepth ha) (ih depth start hdepth hinfix hnumber)
  | suffixesSubscript hrounds hn hk he hr _ _ ih =>
    intro depth start hdepth hinfix hnumber
    exact .operators_of_more hrounds (kind?_of_next? hn) (by rw [hk]; rfl)
      (.infixSubscript hn hk hdepth he hr) (ih depth start hdepth hinfix hnumber)
  | _ => trivial

/-- The name and the suffixes that a statement starts with are an expression, if a token that ends
a target stands behind them. -/
theorem Reads.expr_of_suffixes {e : Expr} {isCall : Bool} {kind : TokenKind}
    (hn : c.next? = some (t, c₁)) (ht : t.kind = .identifier)
    (h : Reads mode (.suffixes 0 (.name t.span t.text) false) c₁ (e, isCall) d)
    (hk : d.kind? = some kind) (hend : kind.endsTarget = true) :
    Reads mode (.expr 0) c e d := by
  have hkind : c.kind? = some .identifier := by rw [kind?_of_next? hn, ht]
  have hatom : atomOf? t = some (.name t.span t.text) := by simp [atomOf?, ht]
  refine .exprOperators (by simp [hkind]) (by simp [hkind]) (.operandAtom hn hatom) ?_
  refine h.asOperators 0 c.position (by decide) ?_ ?_
  · rw [hk]
    exact noInfix_of_endsTarget hend 0
  · simpa [hk] using ne_number_of_endsTarget hend

/-- Where no expression starts, the tolerant mode reads a missing one and takes nothing. -/
theorem Reads.expr_of_startsOnlyStatement {kind : TokenKind} (hk : c.kind? = some kind)
    (hs : kind.startsOnlyStatement = true) :
    Reads .tolerant (.expr 0) c (.placeholder (.empty c.position)) c := by
  obtain ⟨hfunction, hlambda, hparen, hatom, hprefix⟩ := starts_nothing_of_startsOnlyStatement hs
  refine .exprOperators (by simpa [hk] using hfunction) (by simpa [hk] using hlambda)
    (.operandNone (by simpa [hk] using hparen) (by simpa [hk] using hatom)) ?_
  exact .operatorsMissing (by decide) (.prefixDone (by rw [hk]; exact hprefix 0)) rfl

/-- In the strict mode a required token is the next one. -/
theorem kind?_of_require_strict {kind : TokenKind} (h : c.require .strict kind = .ok d) :
    c.kind? = some kind := by
  rcases require_eq_ok_iff.1 h with ⟨t, hn, hk⟩ | ⟨-, ⟨⟩, -⟩
  rw [kind?_of_next? hn, hk]

/-- Where a strict assignment is followed by a semicolon, an expression read in its place stops in
front of a token. -/
theorem Reads.expr_of_assignment {s : Statement} {c₂ : Cursor}
    (h : Reads .strict .assignment c s d) (hd : d.require .strict .semicolon = .ok c₂) :
    ∃ e c', Reads .strict (.expr 0) c e c' ∧ c'.kind?.isSome = true := by
  cases h with
  | assignmentCall hn hk hsuffixes =>
    have hkind := kind?_of_require_strict hd
    exact ⟨_, _, .expr_of_suffixes hn hk hsuffixes hkind rfl, by rw [hkind]; rfl⟩
  | assignmentValue hn hk hsuffixes hn' hop =>
    have hkind := kind?_of_next? hn'
    exact ⟨_, _, .expr_of_suffixes hn hk hsuffixes hkind (endsTarget_of_assign hop),
      by rw [hkind]; rfl⟩
  | assignmentMissing _ _ _ _ hm => cases hm

/-- In place of a strict statement, the tolerant mode reads an expression that stops in front of a
token. -/
theorem Reads.expr_of_statement {s : Statement} (h : Reads .strict .statement c s d) :
    ∃ e c', Reads .tolerant (.expr 0) c e c' ∧ c'.kind?.isSome = true := by
  by_cases hstarts : ∃ kind, c.kind? = some kind ∧ kind.startsOnlyStatement = true
  · obtain ⟨kind, hk, hs⟩ := hstarts
    exact ⟨_, c, .expr_of_startsOnlyStatement hk hs, by rw [hk]; rfl⟩
  · simp only [not_exists, not_and, Bool.not_eq_true] at hstarts
    -- only an assignment or a call is left of the forms of a statement
    have hsimple : Reads .strict .simpleStatement c s d := by
      cases h with
      | statementSimple _ h => exact h
      | _ => grind [kind?_of_next?, startsOnlyStatement, startsStatement]
    obtain ⟨c₁, hdeclaration, hsemicolon⟩ := hsimple.of_simple
    cases hdeclaration with
    | declarationAssignment _ hassignment =>
      obtain ⟨e, c', he, hc'⟩ := hassignment.expr_of_assignment hsemicolon
      exact ⟨e, c', he.tolerant, hc'⟩
    | declarationBare hn hk => grind [kind?_of_next?, startsOnlyStatement]
    | declarationValue hn hk => grind [kind?_of_next?, startsOnlyStatement]

end Parse

variable {text : String}

/-- A strict script is no expression to the tolerant mode, which stops at a token of its first
statement. -/
theorem Expr.parse_tolerant_of_script {s : Statement}
    (h : Statement.parseScript .strict text = .ok s) :
    ∃ kind span, Expr.parse .tolerant text = .error (.trailingToken kind span) := by
  obtain ⟨c, body, d, hstart, hbody, hd, -⟩ := Statement.parseScript_eq_ok_iff.1 h
  have hne := Parse.rest_ne_nil_of_start hstart
  obtain ⟨e, c', he, hc'⟩ : ∃ e c', Parse.Reads .tolerant (.expr 0) c e c' ∧
      c'.kind?.isSome = true := by
    cases hbody with
    | statementsDone _ => exact absurd hd hne
    | statementsMore _ _ _ hs _ => exact hs.expr_of_statement
  obtain ⟨token, rest, hrest⟩ : ∃ token rest, c'.rest = token :: rest := by
    cases hr : c'.rest with
    | nil => simp [Cursor.kind?_of_rest_nil hr] at hc'
    | cons token rest => exact ⟨token, rest, rfl⟩
  have hread := he.read c.budget Parse.fuel_le_budget
  refine ⟨token.kind, token.span, ?_⟩
  simp only [Expr.parse, Parse.start_tolerant_of_strict hstart, Except.ok_bind]
  rw [show Parse.expr (some loopLimit) .tolerant c.budget 0 c = .ok (e, c') from hread]
  simp [Except.ok_bind, Except.error_bind, Parse.finish, hrest]

namespace Document

/-- A document that can be read strictly is read by the tolerant mode in the same form and as the
same tree. No text is both an expression and a script in the strict mode, and none that is a script
there is an expression in the tolerant mode. -/
theorem parse_forms (text : String) :
    (∀ code, parse .strict text = .ok code → parse .tolerant text = .ok code) ∧
    (∀ e s, ¬(Expr.parse .strict text = .ok e ∧ Statement.parseScript .strict text = .ok s)) ∧
    ∀ s, Statement.parseScript .strict text = .ok s →
      ∃ kind span, Expr.parse .tolerant text = .error (.trailingToken kind span) := by
  refine ⟨fun code h => ?_, fun e s ⟨he, hs⟩ => ?_, fun s => Expr.parse_tolerant_of_script⟩
  · unfold parse at h
    split at h
    · next e he =>
      cases h
      rw [parse, Expr.parse_tolerant he]
    · split at h
      · next s hs =>
        cases h
        obtain ⟨kind, span, he⟩ := Expr.parse_tolerant_of_script hs
        simp only [parse, he, Statement.parseScript_tolerant hs]
      · cases h
  · obtain ⟨kind, span, he'⟩ := Expr.parse_tolerant_of_script hs
    rw [Expr.parse_tolerant he] at he'
    cases he'

/-- An assignment to a member of what a call gives: an expression is read up to its operator. -/
theorem parse_forms_of_assignment :
    ∃ s, Statement.parseScript .strict "f(a).b = function(x) { return x; };" = .ok s ∧
      parse .strict "f(a).b = function(x) { return x; };" = .ok (.statement s) ∧
      parse .tolerant "f(a).b = function(x) { return x; };" = .ok (.statement s) ∧
      ∃ kind span, Expr.parse .tolerant "f(a).b = function(x) { return x; };" =
        .error (.trailingToken kind span) := by
  obtain ⟨hmodes, hapart, hrefused⟩ := parse_forms "f(a).b = function(x) { return x; };"
  have hread :
      (Statement.parseScript .strict "f(a).b = function(x) { return x; };").isOk = true := by
    cbv
  cases hs : Statement.parseScript .strict "f(a).b = function(x) { return x; };" with
  | error e => simp [hs, Except.isOk, Except.toBool] at hread
  | ok s =>
    have hstrict : parse .strict "f(a).b = function(x) { return x; };" = .ok (.statement s) := by
      unfold parse
      split
      · next e he => exact absurd ⟨he, hs⟩ (hapart e s)
      · rw [hs]
    exact ⟨s, rfl, hstrict, hmodes _ hstrict, hrefused s hs⟩

end Document

end SearchScript
