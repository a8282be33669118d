import SearchScript.Proofs.Parse.Cut
import SearchScript.Proofs.Parse.Inversion
import SearchScript.Proofs.Parse.Printed
import SearchScript.Proofs.Parse.Shape
import SearchScript.Run.Walk

/-!
# The arguments of a call

The arguments of a call are read as one expression at the depth of the comma, and taken apart again
when the call is carried out. A list of expressions with commas between them is read in the same
way: the loop over the operators joins one expression after the other to the group. Taken apart, the
group gives the parts of each expression, so an expression that is a group itself, which stands in
parentheses, does not come back as one argument.

## Key definitions

- `Parse.ListsArguments`: expressions written one after the other up to a closing parenthesis
- `Code.Opened`: the arguments of a call are read behind an opening parenthesis

## Key results

- `Reads.arguments_eq`: the arguments of a call are the parts of the expressions in its list
- `Reads.opened`: every call that is read has an opening parenthesis
-/

namespace SearchScript

/-- Whether an expression is a group. -/
def Expr.isGroup : Expr → Bool
  | .binary _ .group _ _ => true
  | _ => false

namespace Expr

theorem parts_of_isGroup {e : Expr} (h : e.isGroup = false) : e.parts = [e] := by
  unfold parts
  split
  · cases h
  · rfl

theorem one_le_length_parts (e : Expr) : 1 ≤ e.parts.length := by
  fun_induction parts e with
  | case1 _ left right ihl _ =>
    rw [List.length_append]
    omega
  | case2 => exact Nat.le_refl _

theorem two_le_length_parts {e : Expr} (h : e.isGroup = true) : 2 ≤ e.parts.length := by
  unfold isGroup at h
  split at h
  · next left right =>
    have hl := left.one_le_length_parts
    have hr := right.one_le_length_parts
    rw [parts, List.length_append]
    omega
  · cases h

/-- The parts of expressions are at least as many as the expressions. -/
theorem length_le_length_flatMap_parts (es : List Expr) :
    es.length ≤ (es.flatMap parts).length := by
  induction es with
  | nil => exact Nat.le_refl _
  | cons e rest ih =>
    have := e.one_le_length_parts
    rw [List.flatMap_cons, List.length_append, List.length_cons]
    omega

/-- The parts of expressions are as many as the expressions if and only if none is a group. -/
theorem length_flatMap_parts (es : List Expr) :
    (es.flatMap parts).length = es.length ↔ ∀ e ∈ es, e.isGroup = false := by
  induction es with
  | nil => simp
  | cons e rest ih =>
    rw [List.flatMap_cons, List.length_append, List.length_cons, List.forall_mem_cons, ← ih]
    cases hg : e.isGroup with
    | true =>
      have := two_le_length_parts hg
      have := length_le_length_flatMap_parts rest
      simp only [Bool.true_eq_false, false_and, iff_false]
      omega
    | false =>
      rw [parts_of_isGroup hg, List.length_singleton]
      simp only [true_and]
      omega

theorem flatMap_parts_of_isGroup {es : List Expr} (h : ∀ e ∈ es, e.isGroup = false) :
    es.flatMap parts = es := by
  induction es with
  | nil => rfl
  | cons e rest ih =>
    obtain ⟨he, hrest⟩ := List.forall_mem_cons.1 h
    rw [List.flatMap_cons, parts_of_isGroup he, ih hrest]
    rfl

end Expr

namespace Cursor

variable {c : Cursor}

/-- What was cut in two is not cut again. -/
theorem splitNegative_splitNegative (c : Cursor) :
    c.splitNegative.splitNegative = c.splitNegative := by
  by_cases h : c.splitNegative = c
  · rw [h, h]
  · refine splitNegative_of_kind? ?_
    unfold splitNegative at h ⊢
    split at h
    · split at h
      · next minus number hs =>
        have hminus : minus.kind = .minus := by
          unfold splitToken? at hs
          split at hs <;> cases hs
          rfl
        simp [*, kind?]
      · exact absurd rfl h
    · exact absurd rfl h

end Cursor

namespace Parse

open Cursor

variable {c d c₁ c₂ : Cursor} {t : Token} {depth lower start rounds : Nat} {e left : Expr}
  {es : List Expr} {mode : ParseMode} {p : Phrase}

/-! ## The same operators at a lower depth -/

/-- An operator that applies at a depth applies at a lower one. -/
theorem Reads.operator_lower (h : Reads mode (.operator depth left) c (.more e) d)
    (hle : lower ≤ depth) : Reads mode (.operator lower left) c (.more e) d := by
  cases h with
  | infixMember hn hk hd he => exact .infixMember hn hk (by omega) he
  | infixCall hn hk hd ha => exact .infixCall hn hk (by omega) ha
  | infixSubscript hn hk hd he hr => exact .infixSubscript hn hk (by omega) he hr
  | infixTernary hn hk hd he hr he' => exact .infixTernary hn hk (by omega) he hr he'
  | infixBinary hn hk hd he => exact .infixBinary hn hk (by omega) he

theorem Reads.prefix_lower (h : Reads mode (.prefixOperator depth start) c (.more e) d)
    (hle : lower ≤ depth) : Reads mode (.prefixOperator lower start) c (.more e) d := by
  cases h with
  | prefixUnary hn hd hk he => exact .prefixUnary hn (by omega) hk he

/-- The operators of a phrase, read at a lower depth, begin with those read at its own. -/
def Phrase.Resumes (lower : Nat) (c₁ : Cursor) : (p : Phrase) → p.Result → Cursor → Prop
  | operators depth start _ left?, e, c => lower ≤ depth → ∀ rounds e' d,
      Reads .strict (.operators lower start rounds left?) c e' d →
        ∃ rounds, Reads .strict (.operators lower start rounds (some e)) c₁ e' d
  | _, _, _ => True

theorem Reads.resumes {r : p.Result} (h : Reads .strict p c r d) : p.Resumes lower d r c := by
  induction h with
  | operatorsPrefix _ hp _ _ ih =>
    intro hle rounds e' d h'
    have hp := hp.prefix_lower hle
    cases h' with
    | operatorsPrefix _ hp' h' =>
      -- both readings take the same first operator
      obtain ⟨heq, rfl⟩ := hp.unique hp'
      cases heq
      exact ih hle _ _ _ h'
    | operatorsMissing _ _ hm => cases hm
  | operatorsMissing _ _ hm => cases hm
  | operatorsMore _ ho _ _ ih =>
    intro hle rounds e' d h'
    have ho := ho.operator_lower hle
    cases h' with
    | operatorsMore _ ho' h' =>
      obtain ⟨heq, rfl⟩ := ho.unique ho'
      cases heq
      exact ih hle _ _ _ h'
    | operatorsDone _ ho' =>
      obtain ⟨heq, -⟩ := ho.unique ho'
      cases heq
  | operatorsDone _ ho _ =>
    intro hle rounds e' d h'
    cases ho
    refine ⟨rounds, ?_⟩
    cases h' with
    | operatorsMore hr ho' h' =>
      exact .operatorsMore hr (by rw [splitNegative_splitNegative]; exact ho') h'
    | operatorsDone hr ho' =>
      exact .operatorsDone hr (by rw [splitNegative_splitNegative]; exact ho')
  | _ => trivial

/-- An expression that is read at a lower depth too is either all that is read there, or the operand
that more operators follow. -/
theorem Reads.expr_lower {e' : Expr} (h : Reads .strict (.expr depth) c e c₁)
    (h' : Reads .strict (.expr lower) c e' d) (hle : lower ≤ depth) :
    (e' = e ∧ d = c₁) ∨
      ∃ start rounds, Reads .strict (.operators lower start rounds (some e)) c₁ e' d := by
  cases h with
  | exprFunction hn hk hf =>
    obtain ⟨rfl, rfl⟩ := hf.unique (h'.of_functionWord hn hk)
    exact .inl ⟨rfl, rfl⟩
  | exprLambda hn hk hl =>
    obtain ⟨rfl, rfl⟩ := hl.unique (h'.of_lambdaWord hn hk)
    exact .inl ⟨rfl, rfl⟩
  | exprOperators hf hl ho hops =>
    obtain ⟨node?, c₂, ho', hops'⟩ := h'.of_operand hf hl
    obtain ⟨rfl, rfl⟩ := ho.unique ho'
    exact .inr ⟨_, hops.resumes hle _ _ _ hops'⟩

/-! ## Lists of arguments -/

/-- Expressions with commas between them, up to and with a closing parenthesis. -/
inductive Lists (mode : ParseMode) : Cursor → List Expr → Cursor → Prop
  | last {c c₁ d : Cursor} {e : Expr} {t : Token} : Reads mode (.expr 2) c e c₁ →
      c₁.next? = some (t, d) → t.kind = .rightParen → Lists mode c [e] d
  | more {c c₁ c₂ d : Cursor} {e : Expr} {es : List Expr} {t : Token} :
      Reads mode (.expr 2) c e c₁ → c₁.next? = some (t, c₂) → t.kind = .comma →
      Lists mode c₂ es d → Lists mode c (e :: es) d

/-- The arguments of a call as they are written behind the opening parenthesis, up to and with the
closing one. -/
inductive ListsArguments (mode : ParseMode) : Cursor → List Expr → Cursor → Prop
  | none {c d : Cursor} {t : Token} : c.next? = some (t, d) → t.kind = .rightParen →
      ListsArguments mode c [] d
  | some {c d : Cursor} {es : List Expr} : Lists mode c es d → ListsArguments mode c es d

/-- A comma joins the next expression to the group. -/
theorem Reads.of_comma (h : Reads .strict (.operators 1 start rounds (some left)) c e d)
    (hn : c.next? = some (t, c₁)) (hk : t.kind = .comma) :
    ∃ e₁ c₂, Reads .strict (.expr 2) c₁ e₁ c₂ ∧
      Reads .strict (.operators 1 start (rounds + 1) (some (.join .group left e₁))) c₂ e d := by
  have hsplit : c.splitNegative = c :=
    splitNegative_of_kind? (by rw [kind?_of_next? hn, hk]; decide)
  -- of the operators that apply at depth 1, a comma is the grouping one
  have hgroup : ∀ step c', Reads .strict (.operator 1 left) c step c' →
      ∃ e₁, step = .more (.join .group left e₁) ∧ Reads .strict (.expr 2) c₁ e₁ c' := by
    intro step c' ho
    cases ho <;> grind [noInfix, TokenKind.infixDepth?, kind?_of_next?, BinaryOp.ofToken?,
      BinaryOp.depth]
  cases h with
  | operatorsMore _ ho hops =>
    rw [hsplit] at ho
    obtain ⟨e₁, heq, he₁⟩ := hgroup _ _ ho
    cases heq
    exact ⟨e₁, _, he₁, hops⟩
  | operatorsDone _ ho =>
    rw [hsplit] at ho
    obtain ⟨e₁, heq, -⟩ := hgroup _ _ ho
    cases heq

/-- A closing parenthesis ends the operators. -/
theorem Reads.of_rightParen (h : Reads .strict (.operators depth start rounds (some left)) c e d)
    (hn : c.next? = some (t, c₁)) (hk : t.kind = .rightParen) : e = left ∧ d = c := by
  have hsplit : c.splitNegative = c :=
    splitNegative_of_kind? (by rw [kind?_of_next? hn, hk]; decide)
  have hdone : ∀ step c', Reads .strict (.operator depth left) c step c' →
      step = .done ∧ c' = c := by
    intro step c' ho
    cases ho <;> grind [BinaryOp.ofToken?]
  cases h with
  | operatorsMore _ ho hops =>
    rw [hsplit] at ho
    cases (hdone _ _ ho).1
  | operatorsDone _ ho =>
    rw [hsplit] at ho
    exact ⟨rfl, (hdone _ _ ho).2⟩

/-- A list behind a comma is joined to the group in front of it, and ends where it is closed. -/
theorem Lists.parts_of_operators (h : Lists .strict c es d) :
    ∀ {c₀ t left start rounds e c₁ d'}, c₀.next? = some (t, c) → t.kind = .comma →
      Reads .strict (.operators 1 start rounds (some left)) c₀ e c₁ →
      c₁.require .strict .rightParen = .ok d' →
        e.parts = left.parts ++ es.flatMap Expr.parts ∧ d' = d := by
  induction h with
  | last he hn hk =>
    intro c₀ t left start rounds e c₁ d' hn₀ hk₀ hops hr
    obtain ⟨e₁, c₂, he₁, hops⟩ := hops.of_comma hn₀ hk₀
    obtain ⟨rfl, rfl⟩ := he.unique he₁
    obtain ⟨rfl, rfl⟩ := hops.of_rightParen hn hk
    rw [require_of_next? hn hk] at hr
    cases hr
    simp [Expr.join, Expr.parts]
  | more he hn hk _ ih =>
    intro c₀ t left start rounds e c₁ d' hn₀ hk₀ hops hr
    obtain ⟨e₁, c₂, he₁, hops⟩ := hops.of_comma hn₀ hk₀
    obtain ⟨rfl, rfl⟩ := he.unique he₁
    obtain ⟨hparts, rfl⟩ := ih hn hk hops hr
    refine ⟨?_, rfl⟩
    rw [hparts, List.flatMap_cons, ← List.append_assoc]
    rfl

/-- A list that is read as one expression and closed has the parts of all its expressions. -/
theorem Lists.parts_eq {d' : Cursor} (h : Lists .strict c es d)
    (h' : Reads .strict (.expr 1) c e c₁) (hr : c₁.require .strict .rightParen = .ok d') :
    e.parts = es.flatMap Expr.parts ∧ d' = d := by
  cases h with
  | @last _ c₂ _ e₂ _ he hn hk =>
    have hend : e = e₂ ∧ c₁ = c₂ := by
      rcases he.expr_lower h' (by decide) with heq | ⟨start, rounds, hops⟩
      · exact heq
      · exact hops.of_rightParen hn hk
    obtain ⟨rfl, rfl⟩ := hend
    rw [require_of_next? hn hk] at hr
    cases hr
    simp
  | more he hn hk hrest =>
    rcases he.expr_lower h' (by decide) with ⟨rfl, rfl⟩ | ⟨start, rounds, hops⟩
    · -- a comma stands where the list has to be closed
      obtain ⟨t', hk', hrest'⟩ := rest_of_require_strict hr
      rw [rest_of_next? hn] at hrest'
      obtain ⟨rfl, -⟩ := List.cons.inj hrest'
      rw [hk] at hk'
      cases hk'
    · rw [List.flatMap_cons]
      exact hrest.parts_of_operators hn hk hops hr

/-- The arguments of a call are the parts of the expressions that are written for it. -/
theorem Reads.arguments_eq {d' : Cursor} (h : Reads .strict .arguments c e d) (hc : c.Lexical)
    (hes : ListsArguments .strict c es d') : e.arguments = es.flatMap Expr.parts ∧ d = d' := by
  cases h with
  | argumentsNone hn hk =>
    cases hes with
    | none hn' _ =>
      rw [hn] at hn'
      cases hn'
      simp [Expr.arguments, Expr.isNoArguments, Span.isEmpty, Span.empty]
    | some hlist =>
      -- an argument does not start with the parenthesis that closes the list
      have hne : c.kind? ≠ some .rightParen := by
        cases hlist with
        | last he | more he => exact he.kind?_ne.1
      exact absurd (by rw [kind?_of_next? hn, hk]) hne
  | argumentsSome hne he hr =>
    cases hes with
    | none hn hk => exact absurd (by rw [kind?_of_next? hn, hk]) hne
    | some hlist =>
      obtain ⟨hparts, rfl⟩ := hlist.parts_eq he hr
      -- what was read as an expression is not the mark of an empty list
      have hoperand : e.isNoArguments = false := by
        simpa [Expr.isOperand] using (he.shaped hc trivial).2
      rw [Expr.arguments, hoperand, hparts]
      exact ⟨rfl, rfl⟩

end Parse

/-! ## Where arguments are read -/

/-- Whether the tokens that are left are the last ones of a list, but that the first of them may be
a number that was cut in two, or the rest of one. -/
def Cursor.Drawn (tokens : List Token) (c : Cursor) : Prop :=
  ∃ cut rest, c.rest = cut ++ rest ∧ rest <:+ tokens ∧
    ∀ t ∈ cut, t.kind = .minus ∨ t.kind = .number

/-- Whether the arguments of a node, if it is a call, are read behind an opening parenthesis of a
list of tokens. -/
def Code.Opened (mode : ParseMode) (tokens : List Token) : Code → Prop
  | .expression (.binary _ .call _ args) => ∃ opening c d, opening.kind = .leftParen ∧
      opening :: c.rest <:+ tokens ∧ Parse.Reads mode .arguments c args d
  | _ => True

/-- Whether every node of a list is opened. -/
def Code.AllOpened (mode : ParseMode) (tokens : List Token) (nodes : List Code) : Prop :=
  ∀ node ∈ nodes, node.Opened mode tokens

namespace Code

variable {mode : ParseMode} {tokens : List Token}

theorem allOpened_nil : AllOpened mode tokens [] := List.forall_mem_nil _

theorem allOpened_append {as bs : List Code} :
    AllOpened mode tokens (as ++ bs) ↔ AllOpened mode tokens as ∧ AllOpened mode tokens bs :=
  List.forall_mem_append

theorem allOpened_cons {node : Code} {nodes : List Code} :
    AllOpened mode tokens (node :: nodes) ↔
      node.Opened mode tokens ∧ AllOpened mode tokens nodes :=
  List.forall_mem_cons

end Code

namespace Cursor

variable {tokens : List Token} {c d : Cursor} {t : Token} {mode : ParseMode} {kind : TokenKind}

namespace Drawn

theorem next? (h : c.Drawn tokens) (hn : c.next? = some (t, d)) :
    d.Drawn tokens ∧ (t.kind = .leftParen → t :: d.rest <:+ tokens) := by
  obtain ⟨cut, rest, hrest, hsuffix, hcut⟩ := h
  rw [rest_of_next? hn] at hrest
  cases cut with
  | nil =>
    rw [List.nil_append] at hrest
    rw [← hrest] at hsuffix
    exact ⟨⟨[], d.rest, rfl, (List.suffix_cons t _).trans hsuffix, nofun⟩, fun _ => hsuffix⟩
  | cons first cut =>
    obtain ⟨rfl, htail⟩ := List.cons.inj hrest
    obtain ⟨hfirst, hcut⟩ := List.forall_mem_cons.1 hcut
    refine ⟨⟨cut, rest, htail, hsuffix, hcut⟩, fun hk => ?_⟩
    rw [hk] at hfirst
    simp at hfirst

theorem expect {t? : Option Token} (h : c.Drawn tokens)
    (he : c.expect mode kind = .ok (t?, d)) : d.Drawn tokens := by
  rcases expect_eq_ok_iff.1 he with ⟨t, -, hn, -⟩ | ⟨-, -, -, rfl⟩
  · exact (h.next? hn).1
  · exact h

theorem require (h : c.Drawn tokens) (hr : c.require mode kind = .ok d) : d.Drawn tokens := by
  rcases require_eq_ok_iff.1 hr with ⟨t, hn, -⟩ | ⟨-, -, rfl⟩
  · exact (h.next? hn).1
  · exact h

theorem splitNegative (h : c.Drawn tokens) : c.splitNegative.Drawn tokens := by
  rcases rest_splitNegative c with hr | ⟨t, minus, number, rest, hc, hr, -, hminus, hnumber⟩
  · obtain ⟨cut, rest, hrest, hsuffix⟩ := h
    exact ⟨cut, rest, hr.trans hrest, hsuffix⟩
  · -- what is behind the number that was cut is drawn from the tokens
    have hn : c.next? = some (t, c.pass t rest) := next?_of_rest hc
    obtain ⟨cut, rest', hrest, hsuffix, hcut⟩ := (h.next? hn).1
    refine ⟨minus :: number :: cut, rest', ?_, hsuffix, ?_⟩
    · rw [hr, show rest = cut ++ rest' from hrest]
      rfl
    · exact List.forall_mem_cons.2 ⟨.inl hminus, List.forall_mem_cons.2 ⟨.inr hnumber, hcut⟩⟩

end Drawn

theorem drawn_ofTokens (tokens : List Token) : (ofTokens tokens).Drawn tokens :=
  ⟨[], tokens, rfl, List.suffix_refl _, nofun⟩

end Cursor

namespace Parse

open Cursor

variable {mode : ParseMode} {tokens : List Token} {p : Phrase} {c d : Cursor}

/-- Reading leaves the last tokens of a list. -/
theorem Reads.drawn {r : p.Result} (h : Reads mode p c r d) (hc : c.Drawn tokens) :
    d.Drawn tokens := by
  induction h with
  | _ =>
    grind [→ Drawn.next?, → Drawn.expect, → Drawn.require, → Drawn.splitNegative,
      → eq_of_missing, → eq_of_unassigned]

/-- The nodes of what a phrase gives. -/
def Phrase.nodes : (p : Phrase) → p.Result → List Code
  | expr _, e | operators _ _ _ _, e | arguments, e | functionTail _, e | lambdaTail _, e => e.nodes
  | operand, e? | condition, e? => Expr.optionNodes e?
  | prefixOperator _ _, .more e | operator _ _, .more e => e.nodes
  | prefixOperator _ _, .done | operator _ _, .done => []
  | params _ _, _ => []
  | statements _, ss => Statement.listNodes ss
  | initializer, s? | iterator, s? => Statement.optionNodes s?
  | statement, s | simpleStatement, s | forTail _, s | block, s | declaration, s
  | assignment, s => s.nodes
  | suffixes _ _ _, (e, _) => e.nodes

/-- The nodes of what a phrase goes on from. -/
def Phrase.former : Phrase → List Code
  | operators _ _ _ left? => Expr.optionNodes left?
  | operator _ left | suffixes _ left _ => left.nodes
  | _ => []

theorem opened_of_atomOf? {t : Token} {e : Expr} (h : atomOf? t = some e) :
    Code.AllOpened mode tokens e.nodes := by
  unfold atomOf? at h
  repeat' split at h
  all_goals
    cases h
    try simp [Expr.nodes, Code.AllOpened, Code.Opened]

theorem call_ne_of_ofToken? {kind : TokenKind} {op : BinaryOp}
    (h : BinaryOp.ofToken? kind = some op) : op ≠ .call := by
  rintro rfl
  cases kind <;> cases h

/-- The arguments of every call that is read are read behind an opening parenthesis. -/
theorem Reads.opened {r : p.Result} (h : Reads .strict p c r d) (hc : c.Drawn tokens)
    (hp : Code.AllOpened .strict tokens p.former) :
    Code.AllOpened .strict tokens (p.nodes r) := by
  induction h with
  | operandAtom hn ha => exact opened_of_atomOf? ha
  | operatorsMissing _ _ hm => cases hm
  | assignmentMissing _ _ _ _ hm => cases hm
  | operatorsMore _ ho _ iho ih =>
    exact ih (ho.drawn hc.splitNegative) (iho hc.splitNegative hp)
  | operatorsDone _ ho ih => exact hp
  | _ =>
    simp only [Phrase.nodes, Phrase.former, Expr.join, Expr.nodes, Statement.nodes,
      Statement.listNodes, Statement.optionNodes, Expr.optionNodes, Statement.ofExpr,
      Code.allOpened_nil, Code.allOpened_append, Code.allOpened_cons, Code.Opened, true_and,
      and_true, true_implies] at * <;>
    grind [→ Drawn.next?, → Drawn.expect, → Drawn.require, → Reads.drawn, → call_ne_of_ofToken?]

end Parse

end SearchScript
