import SearchScript.Proofs.Parse.Arguments
import SearchScript.Proofs.Parse.Unfinished
import SearchScript.Proofs.Syntax.Words

/-!
# How operators group

Without parentheses around them, operands are grouped by how tightly the operators bind: what stands
to the left of an operator binds at least as tightly as it, and what stands to the right more
tightly, unless it starts with a prefix operator or is a function. So the suffixes bind tighter than
all other operators, and operators of one depth group to the left.

An operand that ends in a function literal may bind less tightly on the left, for the reading of an
expression is over behind such a literal, whatever operator follows. And the operands in the
brackets of a call or a subscript may be anything.

## Key definitions

- `Code.isGrouped`: whether the operands of a node bind as tightly as it needs
- `Token.parensFollow`: whether parentheses are those of calls, parameters and headers only

## Key results

- `Reads.grouped`: what is read without parentheses around operands is grouped
- `Code.isGrouped_of_parse`: the same for whole programs
-/

namespace SearchScript

theorem BinaryOp.depth_le_eight (op : BinaryOp) : op.depth ≤ 8 := by
  cases op <;> decide

namespace Expr

/-- Whether an expression is a lambda or a function literal. -/
def isFunction : Expr → Bool
  | lambda _ _ _ | function _ _ _ => true
  | _ => false

/-- Whether an expression is a number with a sign. -/
def isNegativeLiteral : Expr → Bool
  | number _ n => n.isNegative
  | _ => false

/-- Whether an expression ends in a function literal. -/
def endsInFunction : Expr → Bool
  | function _ _ _ => true
  | unary _ _ operand => operand.endsInFunction
  | binary _ .call _ _ | binary _ .subscript _ _ => false
  | binary _ _ _ right => right.endsInFunction
  | ternary _ _ _ whenFalse => whenFalse.endsInFunction
  | lambda _ _ body => body.endsInFunction
  | _ => false

/-- Whether an expression can stand to the left of an operator. -/
def standsLeft (e : Expr) (depth : Nat) : Bool :=
  depth ≤ e.precedence || e.isNegativeLiteral || e.endsInFunction

/-- Whether an expression can stand to the right of an operator. -/
def standsRight (e : Expr) (depth : Nat) : Bool :=
  depth < e.precedence || e.startsWithSign || e.isFunction

theorem le_precedence_of_standsLeft {e : Expr} {depth : Nat} (h : e.standsLeft depth = true)
    (hsign : e.isNegativeLiteral = false) (hend : e.endsInFunction = false) :
    depth ≤ e.precedence := by
  simpa only [standsLeft, hsign, hend, Bool.or_false, decide_eq_true_eq] using h

theorem lt_precedence_of_standsRight {e : Expr} {depth : Nat} (h : e.standsRight depth = true)
    (hsign : e.startsWithSign = false) (hfunction : e.isFunction = false) :
    depth < e.precedence := by
  simpa only [standsRight, hsign, hfunction, Bool.or_false, decide_eq_true_eq] using h

/-- How tight an operator may be that takes an expression for its left operand. The sign of a number
belongs to it. -/
def reach (e : Expr) : Nat := if e.isNegativeLiteral then 9 else e.precedence

theorem standsLeft_of_le_reach {e : Expr} {depth : Nat} (h : depth ≤ e.reach) :
    e.standsLeft depth = true := by
  unfold reach at h
  unfold standsLeft
  split at h <;> simp_all

end Expr

/-- Whether the operands of a node bind as tightly as it needs. -/
def Code.isGrouped : Code → Bool
  | .expression (.binary _ op left right) =>
    left.standsLeft op.depth && (op == .call || op == .subscript || right.standsRight op.depth)
  | .expression (.ternary _ condition whenTrue whenFalse) =>
    condition.standsLeft 3 && whenTrue.standsRight 3 && whenFalse.standsRight 3
  | _ => true

/-- Whether all nodes of a list are grouped. -/
def Code.Grouped (nodes : List Code) : Prop := ∀ node ∈ nodes, node.isGrouped = true

namespace Code

theorem grouped_nil : Grouped [] := List.forall_mem_nil _

theorem grouped_append {as bs : List Code} : Grouped (as ++ bs) ↔ Grouped as ∧ Grouped bs :=
  List.forall_mem_append

theorem grouped_cons {node : Code} {nodes : List Code} :
    Grouped (node :: nodes) ↔ node.isGrouped = true ∧ Grouped nodes :=
  List.forall_mem_cons

end Code

/-! ## Parentheses -/

/-- Whether the parentheses behind a token of some kind belong to a call, to the parameters of a
function or to the header of a statement. -/
def TokenKind.takesParens : TokenKind → Bool
  | .identifier | .booleanType | .numberType | .stringType | .number | .boolean | .string | .null
  | .rightParen | .rightBracket | .rightBrace | .functionWord | .ifWord | .forWord | .whileWord =>
    true
  | _ => false

namespace TokenKind

variable {kind : TokenKind}

theorem takesParens_of_unary {op : UnaryOp} (h : UnaryOp.ofToken? kind = some op) :
    kind.takesParens = false := by
  cases kind <;> first | rfl | cases h

theorem takesParens_of_binary {op : BinaryOp} (h : BinaryOp.ofToken? kind = some op) :
    kind.takesParens = false := by
  cases kind <;> first | rfl | cases h

theorem takesParens_of_assign {op : AssignOp} (h : AssignOp.ofToken? kind = some op) :
    kind.takesParens = false := by
  cases kind <;> first | rfl | cases h

end TokenKind

/-- Whether every opening parenthesis stands behind a token that takes parentheses; `behind` says
whether the token in front of the list does. -/
def Token.parensFollow (behind : Bool) : List Token → Bool
  | [] => true
  | t :: rest => (t.kind != .leftParen || behind) && parensFollow t.kind.takesParens rest

/-- Whether every opening parenthesis that is left stands behind a token that takes parentheses. -/
def Cursor.ParensFollow (behind : Bool) (c : Cursor) : Prop :=
  Token.parensFollow behind c.rest = true

namespace Cursor

variable {c d : Cursor} {t : Token} {kind : TokenKind} {behind : Bool}

namespace ParensFollow

theorem next? (h : c.ParensFollow behind) (hn : c.next? = some (t, d)) :
    d.ParensFollow t.kind.takesParens ∧ (t.kind = .leftParen → behind = true) := by
  unfold ParensFollow at h ⊢
  rw [rest_of_next? hn] at h
  simp only [Token.parensFollow, Bool.and_eq_true, Bool.or_eq_true, bne_iff_ne] at h
  exact ⟨h.2, fun hk => h.1.resolve_left (not_not_intro hk)⟩

theorem require (h : c.ParensFollow behind) (hr : c.require .strict kind = .ok d) :
    d.ParensFollow kind.takesParens := by
  rcases require_eq_ok_iff.1 hr with ⟨t, hn, rfl⟩ | ⟨-, ⟨⟩, -⟩
  exact (h.next? hn).1

theorem expect {t? : Option Token} (h : c.ParensFollow behind)
    (he : c.expect .strict kind = .ok (t?, d)) : d.ParensFollow kind.takesParens := by
  obtain ⟨t, -, hn, rfl⟩ := Parse.expect_strict he
  exact (h.next? hn).1

theorem weaken (h : c.ParensFollow behind) : c.ParensFollow true := by
  unfold ParensFollow at h ⊢
  cases hr : c.rest with
  | nil => rfl
  | cons t rest =>
    rw [hr] at h
    simp only [Token.parensFollow, Bool.and_eq_true, Bool.or_true, true_and] at h ⊢
    exact h.2

theorem splitNegative (h : c.ParensFollow behind) : c.splitNegative.ParensFollow behind := by
  rcases rest_splitNegative c with hr | ⟨t, minus, number, rest, hc, hr, ht, hminus, hnumber⟩
  · unfold ParensFollow
    rw [hr]
    exact h
  · unfold ParensFollow at h ⊢
    rw [hc] at h
    rw [hr]
    simp_all [Token.parensFollow, TokenKind.takesParens]

end ParensFollow

end Cursor

namespace Parse

open Cursor

variable {p : Phrase} {c d : Cursor}

/-- Whether a parenthesis may stand where a phrase starts. -/
def Phrase.opensParens : Phrase → Bool
  | expr _ | operand | operators _ _ _ none | prefixOperator _ _ | arguments | params _ _
  | lambdaTail _ | condition => false
  | _ => true

/-- Whether a parenthesis may stand behind what a phrase gives. -/
def Phrase.takesParens : (p : Phrase) → p.Result → Bool
  | operand, none | prefixOperator _ _, .done | initializer, _ => false
  | params closing _, _ => closing.takesParens
  | _, _ => true

/-- Reading leaves the parentheses where they are. -/
theorem Reads.parensFollow {r : p.Result} (h : Reads .strict p c r d)
    (hc : c.ParensFollow p.opensParens) : d.ParensFollow (p.takesParens r) := by
  induction h with
  | operatorsMissing _ _ hm => cases hm
  | assignmentMissing _ _ _ _ hm => cases hm
  | _ =>
    simp only [Phrase.opensParens, Phrase.takesParens] at *
    grind [→ ParensFollow.next?, → ParensFollow.require, → ParensFollow.expect,
      → ParensFollow.weaken, → ParensFollow.splitNegative, → TokenKind.takesParens_of_unary,
      → TokenKind.takesParens_of_binary, → TokenKind.takesParens_of_assign, TokenKind.takesParens,
      → expect_strict]

/-! ## The operators behind an operand -/

/-- Whether no operator that is tighter than an expression stands behind it, unless the expression
ends in a function literal. -/
def Closes (e : Expr) (depth : Nat) (kind? : Option TokenKind) : Prop :=
  e.endsInFunction = true ∨ noInfix depth kind? = true

section

variable {e left right whenTrue whenFalse : Expr} {op : BinaryOp} {depth lower : Nat}
  {kind : TokenKind} {kind? : Option TokenKind}

theorem noInfix_mono (h : noInfix lower kind? = true) (hle : lower ≤ depth) :
    noInfix depth kind? = true := by
  unfold noInfix at h ⊢
  split at h
  · rfl
  · split at h
    · simp only [decide_eq_true_eq] at h ⊢
      omega
    · rfl

/-- No operator is tighter than the suffixes. -/
theorem noInfix_of_le (h : 8 ≤ depth) : noInfix depth kind? = true := by
  refine noInfix_mono ?_ h
  cases kind? with
  | none => rfl
  | some kind => cases kind <;> rfl

theorem Closes.mono (h : Closes e lower kind?) (hle : lower ≤ depth) : Closes e depth kind? :=
  h.imp_right fun hinfix => noInfix_mono hinfix hle

/-- The operator that stands behind an operand may take it for its left one. -/
theorem Closes.standsLeft (h : Closes e e.reach (some kind)) (hk : kind.infixDepth? = some depth) :
    e.standsLeft depth = true := by
  rcases h with hend | hinfix
  · simp [Expr.standsLeft, hend]
  · simp only [noInfix, hk, decide_eq_true_eq] at hinfix
    exact Expr.standsLeft_of_le_reach hinfix

theorem closes_join (h : op = .call ∨ op = .subscript ∨ Closes right op.depth kind?) :
    Closes (.join op left right) (Expr.join op left right).reach kind? := by
  have hreach : (Expr.join op left right).reach = op.depth := rfl
  rw [hreach]
  by_cases hcall : op = .call
  · exact .inr (noInfix_of_le (by rw [hcall]; decide))
  by_cases hsubscript : op = .subscript
  · exact .inr (noInfix_of_le (by rw [hsubscript]; decide))
  have hends : (Expr.join op left right).endsInFunction = right.endsInFunction := by
    cases op <;> first | rfl | contradiction
  rcases h with h | h | h
  · exact absurd h hcall
  · exact absurd h hsubscript
  · exact h.imp_left fun hend => hends.trans hend

theorem standsRight_of_lt (h : depth < e.precedence) : e.standsRight depth = true := by
  simp [Expr.standsRight, h]

theorem standsRight_lower (h : e.standsRight depth = true) (hle : lower ≤ depth) :
    e.standsRight lower = true := by
  simp only [Expr.standsRight, Bool.or_eq_true, decide_eq_true_eq] at h ⊢
  exact h.imp_left fun h => h.imp_left fun hlt => Nat.lt_of_le_of_lt hle hlt

end

/-- What has to hold of the node that a phrase goes on from, and of the depth of the phrase. -/
def Phrase.Leads (c : Cursor) : Phrase → Prop
  | expr depth | prefixOperator depth _ | operators depth _ _ none => depth ≤ 8
  | operators depth _ _ (some left) => Code.Grouped left.nodes ∧ left.standsRight depth = true ∧
      Closes left left.reach c.splitNegative.kind?
  | operator _ left => Code.Grouped left.nodes ∧ Closes left left.reach c.kind?
  | suffixes _ node _ => Code.Grouped node.nodes ∧ node.standsLeft 8 = true
  | _ => True

/-- What a phrase gives is grouped, and can stand to the right of an operator at its depth. -/
def Phrase.Groups (d : Cursor) : (p : Phrase) → p.Result → Prop
  | expr depth, e => Code.Grouped e.nodes ∧ e.standsRight depth = true ∧
      Closes e depth d.splitNegative.kind?
  | operand, e? => ∀ e, e? = some e →
      Code.Grouped e.nodes ∧ e.standsRight 8 = true ∧ e.reach = 9
  | operators depth _ _ _, e => Code.Grouped e.nodes ∧ e.standsRight depth = true ∧
      noInfix depth d.splitNegative.kind? = true
  | prefixOperator depth _, step | operator depth _, step => ∀ e, step = .more e →
      Code.Grouped e.nodes ∧ e.standsRight depth = true ∧
        Closes e e.reach d.splitNegative.kind?
  | functionTail _, e => Code.Grouped e.nodes ∧ e.isFunction = true ∧ e.endsInFunction = true
  | lambdaTail _, e => Code.Grouped e.nodes ∧ e.isFunction = true ∧
      Closes e 0 d.splitNegative.kind?
  | p, r => Code.Grouped (p.nodes r)

theorem grouped_of_atomOf? {t : Token} {e : Expr} (h : atomOf? t = some e) :
    Code.Grouped e.nodes ∧ e.standsRight 8 = true ∧ e.reach = 9 := by
  unfold atomOf? at h
  repeat' split at h
  all_goals
    cases h
    try simp [Expr.nodes, Code.Grouped, Code.isGrouped, Expr.standsRight, Expr.reach,
      Expr.precedence, Expr.isNegativeLiteral, Expr.startsWithSign]
  split <;> simp_all

/-- What an operator joins to its left operand is grouped. -/
theorem groups_join {op : BinaryOp} {left right : Expr} {depth : Nat} {t : Token} {c₁ : Cursor}
    (hleft : (Phrase.operator depth left).Leads c) (hn : c.next? = some (t, c₁))
    (hk : t.kind.infixDepth? = some op.depth) (hdepth : depth < op.depth)
    (hr : Code.Grouped right.nodes)
    (hright : op = .call ∨ op = .subscript ∨
      right.standsRight op.depth = true ∧ Closes right op.depth d.splitNegative.kind?) :
    (Phrase.operator depth left).Groups d (.more (.join op left right)) := by
  rintro e ⟨⟩
  obtain ⟨hl, hclose⟩ := hleft
  rw [kind?_of_next? hn] at hclose
  refine ⟨Code.grouped_cons.2 ⟨?_, Code.grouped_append.2 ⟨hl, hr⟩⟩, standsRight_of_lt hdepth,
    closes_join (hright.imp_right (Or.imp_right And.right))⟩
  simp only [Expr.join, Code.isGrouped, hclose.standsLeft hk, Bool.true_and, Bool.or_eq_true,
    beq_iff_eq, or_assoc]
  exact hright.imp_right (Or.imp_right And.left)

theorem leads_name {span : Span} {name : String} :
    (Phrase.suffixes 0 (.name span name) false).Leads c :=
  ⟨Code.grouped_cons.2 ⟨rfl, Code.grouped_nil⟩, rfl⟩

/-- What a suffix joins to a node can take the next suffix. -/
theorem leads_join {op : BinaryOp} {node right : Expr} {rounds rounds' : Nat} {isCall isCall' : Bool}
    (hp : (Phrase.suffixes rounds node isCall).Leads c) (hop : op.depth = 8)
    (hr : Code.Grouped right.nodes)
    (hright : op = .call ∨ op = .subscript ∨ right.standsRight 8 = true) :
    (Phrase.suffixes rounds' (.join op node right) isCall').Leads d := by
  obtain ⟨hl, hleft⟩ := hp
  refine ⟨Code.grouped_cons.2 ⟨?_, Code.grouped_append.2 ⟨hl, hr⟩⟩, ?_⟩
  · simp only [Expr.join, Code.isGrouped, hop, hleft, Bool.true_and, Bool.or_eq_true, beq_iff_eq,
      or_assoc]
    exact hright
  · exact Expr.standsLeft_of_le_reach (Nat.le_of_eq hop.symm)

/-- What is read without parentheses around operands is grouped. -/
theorem Reads.grouped {r : p.Result} (h : Reads .strict p c r d)
    (hc : c.ParensFollow p.opensParens) (hp : p.Leads c) : p.Groups d r := by
  induction h with
  | operatorsMissing _ _ hm => cases hm
  | assignmentMissing _ _ _ _ hm => cases hm
  | exprFunction hn hk _ ih =>
    have hc₁ := (hc.next? hn).1
    rw [hk] at hc₁
    obtain ⟨hg, hfunction, hend⟩ := ih hc₁ trivial
    exact ⟨hg, by simp [Expr.standsRight, hfunction], .inl hend⟩
  | exprLambda hn hk _ ih =>
    have hc₁ := (hc.next? hn).1
    rw [hk] at hc₁
    obtain ⟨hg, hfunction, hclose⟩ := ih hc₁ trivial
    exact ⟨hg, by simp [Expr.standsRight, hfunction], hclose.mono (Nat.zero_le _)⟩
  | @exprOperators depth c node? c₁ e c₂ _ _ ho hops iho ihops =>
    have hc₁ := ho.parensFollow hc
    -- the operand may lead the loop: nothing in front of it binds more tightly than `depth` allows
    have hfit : (Phrase.operators depth c.position 0 node?).Leads c₁ := by
      cases node? with
      | none => exact hp
      | some left =>
        obtain ⟨hg, hright, hreach⟩ := iho hc trivial left rfl
        exact ⟨hg, standsRight_lower hright hp, .inr (noInfix_of_le (by omega))⟩
    obtain ⟨hg, hright, hinfix⟩ := ihops (by cases node? <;> exact hc₁) hfit
    exact ⟨hg, hright, .inr hinfix⟩
  | operandParens hn hk =>
    -- nothing that takes parentheses stands in front of an operand
    exact absurd ((hc.next? hn).2 hk) (by decide)
  | operandAtom hn ha =>
    rintro e ⟨⟩
    exact grouped_of_atomOf? ha
  | operatorsPrefix _ hpre _ ihpre ih =>
    exact ih (hpre.parensFollow hc) (ihpre hc hp _ rfl)
  | operatorsMore _ ho _ iho ih =>
    obtain ⟨hg, hright, hclose⟩ := hp
    exact ih (ho.parensFollow hc.splitNegative) (iho hc.splitNegative ⟨hg, hclose⟩ _ rfl)
  | operatorsDone _ ho _ =>
    obtain ⟨hg, hright, -⟩ := hp
    cases ho with
    | infixDone hinfix => exact ⟨hg, hright, by rwa [splitNegative_splitNegative]⟩
  | prefixUnary hn _ hop _ ih =>
    rintro e ⟨⟩
    have hc₁ := (hc.next? hn).1
    rw [TokenKind.takesParens_of_unary hop] at hc₁
    obtain ⟨hg, -, hclose⟩ := ih hc₁ (show 7 ≤ 8 by decide)
    exact ⟨Code.grouped_cons.2 ⟨rfl, hg⟩, by simp [Expr.standsRight, Expr.startsWithSign], hclose⟩
  | infixMember hn hk hdepth _ ih =>
    have hc₁ := (hc.next? hn).1
    rw [hk] at hc₁
    obtain ⟨hg, hright, hclose⟩ := ih hc₁ (Nat.le_refl 8)
    exact groups_join hp hn (by rw [hk]; rfl) hdepth hg (.inr (.inr ⟨hright, hclose⟩))
  | infixCall hn hk hdepth _ ih =>
    have hc₁ := (hc.next? hn).1
    rw [hk] at hc₁
    exact groups_join hp hn (by rw [hk]; rfl) hdepth (ih hc₁ trivial) (.inl rfl)
  | infixSubscript hn hk hdepth _ _ ih =>
    have hc₁ := (hc.next? hn).1
    rw [hk] at hc₁
    exact groups_join hp hn (by rw [hk]; rfl) hdepth (ih hc₁ (show 1 ≤ 8 by decide)).1
      (.inr (.inl rfl))
  | infixBinary hn hop hdepth _ ih =>
    have hc₁ := (hc.next? hn).1
    rw [TokenKind.takesParens_of_binary hop] at hc₁
    obtain ⟨hg, hright, hclose⟩ := ih hc₁ (BinaryOp.depth_le_eight _)
    exact groups_join hp hn (infixDepth?_of_binary hop).1 hdepth hg
      (.inr (.inr ⟨hright, hclose⟩))
  | @infixTernary depth left c t c₁ e c₂ c₃ e' c₄ hn hk hdepth he hr _ ih ih' =>
    rintro _ ⟨⟩
    have hc₁ := (hc.next? hn).1
    rw [hk] at hc₁
    -- the condition was read before the question mark, and both alternatives at its depth
    obtain ⟨hl, hleft⟩ := hp
    rw [kind?_of_next? hn, hk] at hleft
    obtain ⟨hg, hright, -⟩ := ih hc₁ (show 3 ≤ 8 by decide)
    obtain ⟨hg', hright', hclose⟩ :=
      ih' ((he.parensFollow hc₁).require hr) (show 3 ≤ 8 by decide)
    have hcondition : left.standsLeft 3 = true := hleft.standsLeft rfl
    have hnode : (Code.expression
        (.ternary (left.span.merge e'.span) left e e')).isGrouped = true := by
      simp [Code.isGrouped, hcondition, hright, hright']
    exact ⟨Code.grouped_cons.2 ⟨hnode, Code.grouped_append.2
      ⟨hl, Code.grouped_append.2 ⟨hg, hg'⟩⟩⟩, standsRight_of_lt hdepth, hclose⟩
  | lambda hps _ ih ih' =>
    obtain ⟨hg, -, hclose⟩ := ih' (hps.parensFollow hc) (Nat.zero_le 8)
    exact ⟨Code.grouped_cons.2 ⟨rfl, hg⟩, rfl, hclose⟩
  | assignmentCall hn hk _ ih =>
    have hc₁ := (hc.next? hn).1
    rw [hk] at hc₁
    exact Code.grouped_cons.2 ⟨rfl, ih hc₁ leads_name⟩
  | assignmentValue hn hk hs hn' hop _ ih ih' =>
    have hc₁ := (hc.next? hn).1
    rw [hk] at hc₁
    have hc₃ := ((hs.parensFollow hc₁).next? hn').1
    rw [TokenKind.takesParens_of_assign hop] at hc₃
    exact Code.grouped_cons.2 ⟨rfl, Code.grouped_append.2
      ⟨ih hc₁ leads_name, (ih' hc₃ (Nat.zero_le 8)).1⟩⟩
  | suffixesMember _ hn hk he _ ih ih' =>
    have hc₁ := (hc.next? hn).1
    rw [hk] at hc₁
    obtain ⟨hg, hright, -⟩ := ih hc₁ (Nat.le_refl 8)
    exact ih' (he.parensFollow hc₁) (leads_join hp rfl hg (.inr (.inr hright)))
  | suffixesCall _ hn hk he _ ih ih' =>
    have hc₁ := (hc.next? hn).1
    rw [hk] at hc₁
    exact ih' (he.parensFollow hc₁) (leads_join hp rfl (ih hc₁ trivial) (.inl rfl))
  | suffixesSubscript _ hn hk he hr _ ih ih' =>
    have hc₁ := (hc.next? hn).1
    rw [hk] at hc₁
    exact ih' ((he.parensFollow hc₁).require hr)
      (leads_join hp rfl (ih hc₁ (show 1 ≤ 8 by decide)).1 (.inr (.inl rfl)))
  | _ =>
    simp only [Phrase.Leads, Phrase.Groups, Phrase.nodes, Expr.nodes, Statement.nodes,
      Statement.listNodes, Statement.optionNodes, Expr.optionNodes, Code.grouped_nil,
      Code.grouped_append, Code.grouped_cons, Code.isGrouped, Expr.isFunction, Expr.endsInFunction,
      true_and, and_true, true_implies, Phrase.opensParens] at * <;>
    grind [→ ParensFollow.next?, → ParensFollow.require, → ParensFollow.expect,
      → ParensFollow.weaken, TokenKind.takesParens, → Reads.parensFollow, Phrase.takesParens,
      Phrase.opensParens]

end Parse

namespace Code

open Parse

variable {isScript : Bool} {source : String} {code : Code} {tokens : List Token}

theorem grouped_of_parse (hparse : Code.parse .strict isScript source = .ok code)
    (hscan : Token.scan source = .ok tokens) (hparens : Token.parensFollow false tokens = true) :
    Grouped code.nodes := by
  have hstart : (Cursor.ofTokens tokens).ParensFollow false := hparens
  cases isScript with
  | false =>
    obtain ⟨e, he, rfl⟩ := Except.map_eq_ok_iff.1 hparse
    obtain ⟨c, d, hc, hr, -⟩ := Expr.parse_eq_ok_iff.1 he
    obtain rfl := start_strict hscan hc
    exact (hr.grouped hstart (Nat.zero_le 8)).1
  | true =>
    obtain ⟨s, hs, rfl⟩ := Except.map_eq_ok_iff.1 hparse
    obtain ⟨c, body, d, hc, hr, -, rfl⟩ := Statement.parseScript_eq_ok_iff.1 hs
    obtain rfl := start_strict hscan hc
    exact grouped_cons.2 ⟨rfl, hr.grouped hstart.weaken trivial⟩

/-- Where parentheses stand around arguments, parameters and headers only, all operands bind as
tightly as their operators need. So an operator to the right of another one binds more tightly, and
an operator to the left of another one at least as tightly, as long as no function literal stands
at its end. -/
theorem isGrouped_of_parse (hparse : Code.parse .strict isScript source = .ok code)
    (hscan : Token.scan source = .ok tokens) (hparens : Token.parensFollow false tokens = true) :
    (∀ node ∈ code.nodes, node.isGrouped = true) ∧
    ∀ span op left right, .expression (.binary span op left right) ∈ code.nodes →
      (∀ span' op' a b, left = .binary span' op' a b → left.endsInFunction = false →
        op.depth ≤ op'.depth) ∧
      ∀ span' op' a b, right = .binary span' op' a b → op ≠ .call → op ≠ .subscript →
        op.depth < op'.depth := by
  have hgrouped := grouped_of_parse hparse hscan hparens
  refine ⟨hgrouped, fun span op left right hmem => ?_⟩
  have hnode := hgrouped _ hmem
  simp only [isGrouped, Bool.and_eq_true, Bool.or_eq_true, beq_iff_eq] at hnode
  obtain ⟨hleft, hright⟩ := hnode
  refine ⟨?_, ?_⟩
  · rintro span' op' a b rfl hend
    exact Expr.le_precedence_of_standsLeft hleft rfl hend
  · rintro span' op' a b rfl hcall hsubscript
    have hright := (hright.resolve_left (not_or_intro hcall hsubscript))
    exact Expr.lt_precedence_of_standsRight hright rfl rfl

set_option maxRecDepth 10000 in
/-- A call in the chain of suffixes stands to the right of two operators of one depth. -/
theorem isGrouped_of_parse_of_chain :
    ∃ left right, Code.parse .strict false "a - b - f(c)" =
        .ok (.expression (.join .sub left right)) ∧
      (Code.expression (.join .sub left right)).isGrouped = true ∧
      left = .join .sub (.name ⟨0, 1⟩ "a") (.name ⟨4, 5⟩ "b") := by
  have hscan : Token.scan "a - b - f(c)" = .ok [⟨.identifier, ⟨0, 1⟩, "a"⟩, ⟨.minus, ⟨2, 3⟩, "-"⟩,
      ⟨.identifier, ⟨4, 5⟩, "b"⟩, ⟨.minus, ⟨6, 7⟩, "-"⟩, ⟨.identifier, ⟨8, 9⟩, "f"⟩,
      ⟨.leftParen, ⟨9, 10⟩, "("⟩, ⟨.identifier, ⟨10, 11⟩, "c"⟩,
      ⟨.rightParen, ⟨11, 12⟩, ")"⟩] := by cbv
  have hparse : Code.parse .strict false "a - b - f(c)" = .ok (.expression (.join .sub
      (.join .sub (.name ⟨0, 1⟩ "a") (.name ⟨4, 5⟩ "b"))
      (.join .call (.name ⟨8, 9⟩ "f") (.name ⟨10, 11⟩ "c")))) := by cbv
  obtain ⟨hnodes, -⟩ := isGrouped_of_parse hparse hscan rfl
  exact ⟨_, _, hparse, hnodes _ List.mem_cons_self, rfl⟩

/-- Whether the left operand of a node binds at least as tightly as it, and the other ones more
tightly. -/
def bindsTighter : Code → Bool
  | .expression (.binary _ op left right) =>
    op.depth ≤ left.precedence && right.standsRight op.depth
  | .expression (.ternary _ condition whenTrue whenFalse) =>
    3 ≤ condition.precedence && whenTrue.standsRight 3 && whenFalse.standsRight 3
  | _ => true

/-- The sign of a number belongs to it, and the arguments of a call need not bind tightly at all. -/
theorem not_all_bindsTighter :
    (["-1[0]", "f(a + b)"].all fun source =>
      (Token.scan source).toOption.any (Token.parensFollow false) &&
        (Code.parse .strict false source).toOption.any (·.nodes.any (!bindsTighter ·))) = true := by
  decide +kernel

end Code

end SearchScript
