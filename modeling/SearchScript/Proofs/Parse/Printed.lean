import SearchScript.Proofs.Parse.Complete
import SearchScript.Proofs.Syntax.Shape
import SearchScript.Proofs.Syntax.Spans
import SearchScript.Proofs.Syntax.Words
import SearchScript.Proofs.Text.Quoted

/-!
# Reading the words of a tree

The rules read the words of a tree as the tree, spans apart. For an expression that stands where the
loop of the operators starts, this is said for whatever the loop makes of it (`Expr.IsRead.starts`):
its words are read, and the loop goes on behind them with the expression as its left operand. So the
left operand of an operator needs no argument of its own about where it ends. A right operand ends
where no operator that binds tighter follows.

## Key definitions

- `Cursor.Takes`: the tokens in front of a cursor are the given words
- `Expr.IsRead`, `Statement.IsRead`: what it means that a tree is read, one lemma for each
  constructor
-/

namespace SearchScript

open Piece

theorem ofWord_of_isIdentifier {text : String} (h : isIdentifier text = true) :
    TokenKind.ofWord text = .identifier := by
  unfold isIdentifier at h
  split at h
  · simp only [Bool.and_eq_true, beq_iff_eq] at h
    exact h.2
  · cases h

namespace Cursor

/-! ## Taking words -/

/-- The tokens between two cursors are the given words, and each has a width. -/
inductive Takes : Cursor → List Piece → Cursor → Prop
  | nil {c} : Takes c [] c
  | cons {c t c₁ ws d} : c.next? = some (t, c₁) → t.span.isEmpty = false → Takes c₁ ws d →
      Takes c (t.piece :: ws) d

variable {c d m : Cursor} {ws vs : List Piece} {w : Piece} {kind : TokenKind}

theorem takes_nil : Takes c [] d ↔ d = c :=
  ⟨fun h => by cases h; rfl, fun h => h ▸ .nil⟩

theorem takes_cons : Takes c (w :: ws) d ↔
    ∃ t c₁, c.next? = some (t, c₁) ∧ t.piece = w ∧ t.span.isEmpty = false ∧ Takes c₁ ws d := by
  constructor
  · intro h
    cases h with
    | cons hn ht h => exact ⟨_, _, hn, rfl, ht, h⟩
  · rintro ⟨t, c₁, hn, rfl, ht, h⟩
    exact .cons hn ht h

theorem takes_append : Takes c (ws ++ vs) d ↔ ∃ m, Takes c ws m ∧ Takes m vs d := by
  induction ws generalizing c with
  | nil => simp [takes_nil]
  | cons w ws ih =>
    simp only [List.cons_append, takes_cons, ih]
    grind

/-- An operator, a bracket or a keyword in front. -/
theorem takes_symbol (h : Takes c (symbol kind :: ws) d) :
    ∃ t c₁, c.next? = some (t, c₁) ∧ t.kind = kind ∧ Takes c₁ ws d := by
  obtain ⟨t, c₁, hn, ht, -, h⟩ := takes_cons.1 h
  exact ⟨t, c₁, hn, (Token.piece_eq_iff.1 ht).1, h⟩

/-- A word in front. -/
theorem takes_word {text : String} (h : Takes c (word text :: ws) d) :
    ∃ t c₁, c.next? = some (t, c₁) ∧ t.kind = TokenKind.ofWord text ∧ t.text = text ∧
      t.span.isEmpty = false ∧ Takes c₁ ws d := by
  obtain ⟨t, c₁, hn, ht, hs, h⟩ := takes_cons.1 h
  obtain ⟨hk, htext⟩ := Token.piece_eq_iff.1 ht
  exact ⟨t, c₁, hn, hk, htext, hs, h⟩

theorem require_of_next? {mode : ParseMode} {t : Token} (hn : c.next? = some (t, d))
    (hk : t.kind = kind) : c.require mode kind = .ok d :=
  require_eq_ok_iff.2 (.inl ⟨t, hn, hk⟩)

theorem expect_of_next? {mode : ParseMode} {t : Token} (hn : c.next? = some (t, d))
    (hk : t.kind = kind) : c.expect mode kind = .ok (some t, d) :=
  expect_eq_ok_iff.2 (.inl ⟨t, rfl, hn, hk⟩)

/-! ## Where expressions end -/

/-- Whether an expression that is read at a depth ends here. -/
def Stops (depth : Nat) (c : Cursor) : Prop :=
  Parse.noInfix depth c.kind? = true ∧ c.kind? ≠ some .number

theorem Stops.mono {depth more : Nat} (h : c.Stops depth) (hle : depth ≤ more) :
    c.Stops more := by
  obtain ⟨h, hn⟩ := h
  refine ⟨?_, hn⟩
  unfold Parse.noInfix at h ⊢
  split at h
  · rfl
  · split at h
    · simp only [decide_eq_true_eq] at h ⊢
      omega
    · rfl

/-- An operator that does not bind tighter ends an expression. -/
theorem stops_of_infix {t : Token} {depth level : Nat} (hn : c.next? = some (t, d))
    (hk : t.kind.infixDepth? = some level) (hle : level ≤ depth) : c.Stops depth := by
  rw [Stops, kind?_of_next? hn]
  refine ⟨by simpa [Parse.noInfix, hk] using hle, fun h => ?_⟩
  rw [Option.some.inj h] at hk
  cases hk

/-- Only a number is left to read behind the member of an expression. -/
theorem stops_eight (h : c.kind? ≠ some .number) : c.Stops 8 := by
  refine ⟨?_, h⟩
  unfold Parse.noInfix
  split
  · rfl
  · next kind _ => cases kind <;> rfl

/-- Whether a token ends each expression in front of it. -/
def closesExpr (kind : TokenKind) : Bool := kind.infixDepth?.isNone && kind != .number

theorem stops_of_closes (h : c.kind?.all closesExpr = true) (depth : Nat) : c.Stops depth := by
  unfold Stops
  cases hk : c.kind? with
  | none => exact ⟨rfl, nofun⟩
  | some kind =>
    rw [hk] at h
    simp only [Option.all_some, closesExpr, Bool.and_eq_true, Option.isNone_iff_eq_none,
      bne_iff_ne] at h
    exact ⟨by simp [Parse.noInfix, h.1], by simpa using h.2⟩

end Cursor

/-- What is read strictly as an expression starts with neither a closing parenthesis nor a
semicolon. -/
theorem Parse.Reads.kind?_ne {depth : Nat} {c d : Cursor} {e : Expr}
    (h : Reads .strict (.expr depth) c e d) :
    c.kind? ≠ some .rightParen ∧ c.kind? ≠ some .semicolon := by
  cases h with
  | exprFunction hn hk =>
    rw [Cursor.kind?_of_next? hn, hk]
    decide
  | exprLambda hn hk =>
    rw [Cursor.kind?_of_next? hn, hk]
    decide
  | exprOperators _ _ ho hloop =>
    -- the first token is that of the operand, or that of a prefix operator
    cases ho with
    | operandParens hn hk =>
      rw [Cursor.kind?_of_next? hn, hk]
      decide
    | operandAtom hn ha =>
      have hstart := startsAtom_of_atomOf? ha
      rw [Cursor.kind?_of_next? hn]
      constructor <;>
        · intro hk
          rw [Option.some.inj hk] at hstart
          cases hstart
    | operandNone =>
      cases hloop with
      | operatorsPrefix _ hp =>
        cases hp with
        | prefixUnary hn _ hop =>
          rw [Cursor.kind?_of_next? hn]
          constructor <;>
            · intro hk
              rw [Option.some.inj hk] at hop
              cases hop
      | operatorsMissing _ _ hm => cases hm

/-- An assignment or a call starts with a name. -/
theorem Parse.Reads.kind?_of_assignment {c d : Cursor} {s : Statement}
    (h : Reads .strict .assignment c s d) : c.kind? = some .identifier := by
  cases h with
  | assignmentCall hn hk | assignmentValue hn hk | assignmentMissing hn hk =>
    rw [Cursor.kind?_of_next? hn, hk]

/-- What is read strictly as a declaration does not start with a semicolon. -/
theorem Parse.Reads.kind?_ne_semicolon {c d : Cursor} {s : Statement}
    (h : Reads .strict .declaration c s d) : c.kind? ≠ some .semicolon := by
  cases h with
  | declarationAssignment _ h => simp [h.kind?_of_assignment]
  | declarationBare hn hk | declarationValue hn hk =>
    rw [Cursor.kind?_of_next? hn, hk]
    decide

namespace Expr

open Cursor Parse

/-- Whether an expression is read at a depth without parentheses around it. -/
def FitsAt (e : Expr) (depth : Nat) : Prop :=
  depth < e.precedence ∨ e.startsWithSign = true ∧ depth < 8

/-- The words of an expression are read as the expression. -/
structure IsRead (e : Expr) : Prop where
  turns_lt : e.turns < loopLimit
  /-- Where the loop of the operators starts, it goes on behind the expression. -/
  starts {depth : Nat} {c d : Cursor} : 2 ≤ e.precedence → e.FitsAt depth → Takes c e.words d →
    d.Stops e.precedence → ∃ e' : Expr, e'.withoutSpans = e.withoutSpans ∧
      ∀ r d', Reads .strict (.operators depth c.position e.turns (some e')) d r d' →
        Reads .strict (.expr depth) c r d'
  /-- Where any expression may stand, it is read up to what ends all expressions. -/
  whole {depth : Nat} {c d : Cursor} : depth ≤ 1 → Takes c e.words d → d.Stops 0 →
    ∃ e' : Expr, e'.withoutSpans = e.withoutSpans ∧ Reads .strict (.expr depth) c e' d
  /-- Where a statement starts, its suffixes are read one by one. -/
  chain {c d : Cursor} : e.isChain = true → Takes c e.words d → d.kind? ≠ some .number →
    ∃ t c₁ e', c.next? = some (t, c₁) ∧ t.kind = .identifier ∧
      e'.withoutSpans = e.withoutSpans ∧
      ∀ r d', Reads .strict (.suffixes e.turns e' e.isCall) d r d' →
        Reads .strict (.suffixes 0 (.name t.span t.text) false) c₁ r d'

variable {e left right operand condition whenTrue whenFalse : Expr} {depth : Nat} {c d : Cursor}
  {span : Span}

/-- The loop of the operators ends where no operator binds tighter. -/
theorem reads_operators_done {start rounds : Nat} (hr : rounds < loopLimit)
    (hd : d.Stops depth) : Reads .strict (.operators depth start rounds (some e)) d e d := by
  refine .operatorsDone hr ?_
  rw [splitNegative_of_kind? hd.2]
  exact .infixDone hd.1

/-- An operand in its place, in parentheses or without. -/
theorem IsRead.placed (h : e.IsRead) {b : Bool}
    (hfits : b = false → 2 ≤ e.precedence ∧ e.FitsAt depth ∧ d.Stops e.precedence)
    (ht : Takes c (inParens b e.words) d) :
    ∃ e' : Expr, e'.withoutSpans = e.withoutSpans ∧
      ∀ r d', Reads .strict
          (.operators depth c.position (if b then 0 else e.turns) (some e')) d r d' →
        Reads .strict (.expr depth) c r d' := by
  cases b with
  | false =>
    obtain ⟨hprec, hfits, hd⟩ := hfits rfl
    exact h.starts hprec hfits ht hd
  | true =>
    obtain ⟨t, c₁, hn, hk, ht⟩ := takes_symbol ht
    obtain ⟨m, ht, hclose⟩ := takes_append.1 ht
    obtain ⟨t', c₂, hn', hk', hd⟩ := takes_symbol hclose
    obtain rfl := takes_nil.1 hd
    have hstop : m.Stops 0 := stops_of_closes (by rw [kind?_of_next? hn', hk']; rfl) 0
    obtain ⟨e', he', hr⟩ := h.whole (Nat.le_refl 1) ht hstop
    refine ⟨e', he', fun r d' hloop => ?_⟩
    have hkind := kind?_of_next? hn
    rw [hk] at hkind
    exact .exprOperators (by simp [hkind]) (by simp [hkind])
      (.operandParens hn hk hr (require_of_next? hn' hk')) hloop

/-- An operand in its place is read up to what ends it. -/
theorem IsRead.placed_whole (h : e.IsRead) {b : Bool}
    (hfits : b = false → 2 ≤ e.precedence ∧ e.FitsAt depth ∧ d.Stops e.precedence)
    (ht : Takes c (inParens b e.words) d) (hd : d.Stops depth) :
    ∃ e' : Expr, e'.withoutSpans = e.withoutSpans ∧ Reads .strict (.expr depth) c e' d := by
  obtain ⟨e', he', hr⟩ := h.placed hfits ht
  refine ⟨e', he', hr _ _ (reads_operators_done ?_ hd)⟩
  split
  · decide
  · exact h.turns_lt

/-- A right operand. -/
theorem IsRead.right_operand (h : e.IsRead) (hdepth : 1 ≤ depth) (hle : depth ≤ 7)
    (ht : Takes c (inParens (e.needsParensRight depth) e.words) d) (hd : d.Stops depth) :
    ∃ e' : Expr, e'.withoutSpans = e.withoutSpans ∧ Reads .strict (.expr depth) c e' d := by
  refine h.placed_whole (fun hb => ?_) ht hd
  cases hsign : e.startsWithSign with
  | true =>
    have hprec : e.precedence = 7 := by
      cases e <;> simp_all [startsWithSign, precedence]
    exact ⟨by omega, .inr ⟨hsign, by omega⟩, hd.mono (by omega)⟩
  | false =>
    simp only [needsParensRight, hsign, Bool.not_false, Bool.true_and, decide_eq_false_iff_not]
      at hb
    exact ⟨by omega, .inl (by omega), hd.mono (by omega)⟩

/-- What is read where the loop of the operators starts is read where any expression may stand. -/
theorem isRead_of_starts (hturns : e.turns < loopLimit) (hprec : 2 ≤ e.precedence)
    (hstarts : ∀ {depth : Nat} {c d : Cursor}, e.FitsAt depth → Takes c e.words d →
      d.Stops e.precedence → ∃ e' : Expr, e'.withoutSpans = e.withoutSpans ∧
        ∀ r d', Reads .strict (.operators depth c.position e.turns (some e')) d r d' →
          Reads .strict (.expr depth) c r d')
    (hchain : ∀ {c d : Cursor}, e.isChain = true → Takes c e.words d → d.kind? ≠ some .number →
      ∃ t c₁ e', c.next? = some (t, c₁) ∧ t.kind = .identifier ∧
        e'.withoutSpans = e.withoutSpans ∧
        ∀ r d', Reads .strict (.suffixes e.turns e' e.isCall) d r d' →
          Reads .strict (.suffixes 0 (.name t.span t.text) false) c₁ r d') :
    e.IsRead where
  turns_lt := hturns
  starts _ := hstarts
  whole {depth _ _} hdepth ht hd := by
    have hfits : e.FitsAt depth := .inl (by omega)
    obtain ⟨e', he', hr⟩ := hstarts hfits ht (hd.mono (Nat.zero_le _))
    exact ⟨e', he', hr _ _ (reads_operators_done hturns (hd.mono (Nat.zero_le _)))⟩
  chain := hchain

/-! ## Atoms -/

/-- An expression of one word is read as the atom that the word is. -/
theorem isRead_atom (kind : TokenKind) (text : String)
    (hwords : e.words = [⟨.token kind, text.toList⟩]) (hturns : e.turns = 0)
    (hprec : 2 ≤ e.precedence)
    (hatom : ∀ t : Token, t.kind = kind → t.text = text → t.span.isEmpty = false →
      (atomOf? t).map withoutSpans = some e.withoutSpans)
    (hchain : e.isChain = true → e.isCall = false ∧ kind = .identifier) : e.IsRead := by
  -- an atom is one token
  have hread : ∀ {c d}, Takes c e.words d → ∃ t e', c.next? = some (t, d) ∧ t.kind = kind ∧
      atomOf? t = some e' ∧ e'.withoutSpans = e.withoutSpans := by
    intro c d ht
    rw [hwords] at ht
    obtain ⟨t, c₁, hn, hw, hs, hd⟩ := takes_cons.1 ht
    obtain rfl := takes_nil.1 hd
    obtain ⟨hk, htext⟩ := Token.piece_eq_iff.1 hw
    obtain ⟨e', ha, he'⟩ := Option.map_eq_some_iff.1 (hatom t hk htext hs)
    exact ⟨t, e', hn, hk, ha, he'⟩
  refine isRead_of_starts (by rw [hturns]; decide) hprec (fun _ ht _ => ?_) fun hc ht _ => ?_
  · obtain ⟨t, e', hn, -, ha, he'⟩ := hread ht
    refine ⟨e', he', fun r d' hloop => ?_⟩
    rw [hturns] at hloop
    have hkind := kind?_of_next? hn
    have hstart := startsAtom_of_atomOf? ha
    refine .exprOperators ?_ ?_ (.operandAtom hn ha) hloop <;>
      · rw [hkind]
        intro hk
        rw [Option.some.inj hk] at hstart
        cases hstart
  · obtain ⟨t, e', hn, hk, ha, he'⟩ := hread ht
    obtain ⟨hcall, rfl⟩ := hchain hc
    refine ⟨t, _, e', hn, hk, he', fun r d' hloop => ?_⟩
    rw [hturns, hcall] at hloop
    simp only [atomOf?, hk, Option.some.injEq] at ha
    rwa [ha]

theorem isRead_name {text : String} (hid : isIdentifier text = true) : (name span text).IsRead := by
  refine isRead_atom .identifier text ?_ rfl (by simp [precedence])
    (fun t hk htext _ => by simp [atomOf?, hk, withoutSpans, htext]) fun _ => ⟨rfl, rfl⟩
  rw [← ofWord_of_isIdentifier hid]
  rfl

theorem isRead_typeName (span : Span) (type : TypeName) : (typeName span type).IsRead := by
  cases type with
  | boolean =>
    exact isRead_atom .booleanType "Boolean" rfl rfl (by simp [precedence])
      (fun t hk _ _ => by simp [atomOf?, hk, withoutSpans]) (by simp [isChain])
  | number =>
    exact isRead_atom .numberType "Number" rfl rfl (by simp [precedence])
      (fun t hk _ _ => by simp [atomOf?, hk, withoutSpans]) (by simp [isChain])
  | string =>
    exact isRead_atom .stringType "String" rfl rfl (by simp [precedence])
      (fun t hk _ _ => by simp [atomOf?, hk, withoutSpans]) (by simp [isChain])

theorem isRead_number {n : Number} (hn : Number.read n.literal = n) : (number span n).IsRead := by
  refine isRead_atom .number n.literal rfl rfl ?_
    (fun t hk htext _ => by simp [atomOf?, hk, withoutSpans, htext, hn]) (by simp [isChain])
  simp only [precedence]
  split <;> decide

theorem isRead_boolean (span : Span) (value : Bool) : (boolean span value).IsRead := by
  cases value with
  | false =>
    exact isRead_atom .boolean "false" rfl rfl (by simp [precedence])
      (fun t hk htext _ => by simp [atomOf?, hk, withoutSpans, htext]) (by simp [isChain])
  | true =>
    exact isRead_atom .boolean "true" rfl rfl (by simp [precedence])
      (fun t hk htext _ => by simp [atomOf?, hk, withoutSpans, htext]) (by simp [isChain])

theorem isRead_string (span : Span) (value : String) : (string span value).IsRead :=
  isRead_atom .string (Quoted.encode value) rfl rfl (by simp [precedence])
    (fun t hk htext _ => by simp [atomOf?, hk, withoutSpans, htext, Quoted.decode_encode])
    (by simp [isChain])

theorem isRead_null (ho : (null span).isOperand = true) : (null span).IsRead := by
  simp only [isOperand, isNoArguments, Bool.not_eq_eq_eq_not, Bool.not_true] at ho
  refine isRead_atom .null "null" ?_ rfl (by simp [precedence])
    (fun t hk _ hs => by simp [atomOf?, hk, withoutSpans, Span.emptiness, hs, ho])
    (by simp [isChain])
  simp only [words, ho]
  rfl

/-! ## Prefix operators -/

theorem isRead_unary {op : UnaryOp} (h : operand.IsRead) : (unary span op operand).IsRead := by
  refine isRead_of_starts (by simp [turns, loopLimit]) (by simp [precedence])
    (fun {depth c d} hfits ht hd => ?_) nofun
  have hdepth : depth < 8 := by
    rcases hfits with hfits | hfits
    · simp only [precedence] at hfits
      omega
    · exact hfits.2
  obtain ⟨t, c₁, hn, hk, ht⟩ := takes_symbol ht
  have hop : UnaryOp.ofToken? t.kind = some op := by rw [hk, op.ofToken?_token]
  obtain ⟨e', he', hr⟩ : ∃ e' : Expr, e'.withoutSpans = operand.withoutSpans ∧
      Reads .strict (.expr 7) c₁ e' d := by
    refine h.placed_whole (fun hb => ?_) ht hd
    have hb := of_decide_eq_false hb
    exact ⟨by omega, .inl (by omega), hd.mono (show 7 ≤ operand.precedence by omega)⟩
  refine ⟨.unary ((d.spanFrom c.position).merge e'.span) op e', by simp [withoutSpans, he'],
    fun r d' hloop => ?_⟩
  have hkind := kind?_of_next? hn
  refine .exprOperators ?_ ?_ (.operandNone ?_ ?_)
    (.operatorsPrefix (by decide) (.prefixUnary hn hdepth hop hr) hloop)
  all_goals
    rw [hkind, hk]
    cases op <;> simp [UnaryOp.token, startsAtom]

/-! ## Operators behind an operand -/

/-- How often the loop goes round before a left operand is read. -/
def leftTurns (level : Nat) (left : Expr) : Nat := if left.needsParens level then 0 else left.turns

/-- A left operand and the operator behind it are read in the next round of the loop. -/
theorem starts_operator {kind : TokenKind} {level : Nat} {ws : List Piece} {P : Expr → Prop}
    (hl : left.IsRead) (hkind : kind.infixDepth? = some level) (hlevel : 2 ≤ level)
    (hdepth : depth < level) (hturns : leftTurns level left < loopLimit)
    (ht : Takes c (inParens (left.needsParens level) left.words ++ symbol kind :: ws) d)
    (hstep : ∀ {left' : Expr} {m t m₁}, left'.withoutSpans = left.withoutSpans →
      m.next? = some (t, m₁) → t.kind = kind → Takes m₁ ws d →
      ∃ e', P e' ∧ Reads .strict (.operator depth left') m (.more e') d) :
    ∃ e', P e' ∧ ∀ r d',
      Reads .strict (.operators depth c.position (leftTurns level left + 1) (some e')) d r d' →
        Reads .strict (.expr depth) c r d' := by
  obtain ⟨m, htl, ht⟩ := takes_append.1 ht
  obtain ⟨t, m₁, hn, hk, ht⟩ := takes_symbol ht
  have hnumber : m.kind? ≠ some .number := by
    rw [kind?_of_next? hn, hk]
    rintro ⟨⟩
    cases hkind
  have hfits : left.needsParens level = false →
      2 ≤ left.precedence ∧ left.FitsAt depth ∧ m.Stops left.precedence := by
    intro hb
    have hb := of_decide_eq_false hb
    exact ⟨by omega, .inl (by omega), stops_of_infix hn (hk ▸ hkind) (by omega)⟩
  obtain ⟨left', hleft', hr⟩ := hl.placed hfits htl
  obtain ⟨e', he', hop⟩ := hstep hleft' hn hk ht
  refine ⟨e', he', fun r d' hloop => hr r d' (.operatorsMore hturns ?_ hloop)⟩
  rwa [splitNegative_of_kind? hnumber]

theorem isRead_infix {op : BinaryOp} (hop : op.isSuffix = false) (hl : left.IsRead)
    (hr : right.IsRead) (hturns : (binary span op left right).turns < loopLimit) :
    (binary span op left right).IsRead := by
  have hwords : (binary span op left right).words = inParens (left.needsParens op.depth) left.words ++
      symbol op.token :: inParens (right.needsParensRight op.depth) right.words := by
    cases op <;> first | rfl | cases hop
  have hchain : (binary span op left right).isChain = false := by
    cases op <;> first | rfl | cases hop
  refine isRead_of_starts hturns op.two_le_depth (fun {depth c d} hfits ht hd => ?_)
    fun hc => by simp [hchain] at hc
  have hdepth : depth < op.depth := hfits.resolve_right fun h => by cases h.1
  rw [hwords] at ht
  refine starts_operator hl op.infixDepth?_token op.two_le_depth hdepth
    (Nat.lt_of_succ_lt hturns) ht fun hleft hn hk ht => ?_
  have hone : 1 ≤ op.depth := Nat.le_of_succ_le op.two_le_depth
  obtain ⟨right', hright, hread⟩ := hr.right_operand hone (BinaryOp.depth_le hop) ht hd
  refine ⟨_, ?_, .infixBinary hn (hk ▸ BinaryOp.ofToken?_token hop) hdepth hread⟩
  simp [join, withoutSpans, hleft, hright]

/-! ## Suffixes -/

theorem exists_null_of_isOperand (h : e.isOperand = false) :
    ∃ span, e = null span ∧ span.isEmpty = true := by
  unfold isOperand isNoArguments at h
  split at h
  · exact ⟨_, rfl, by simpa using h⟩
  · cases h

theorem needsParens_of_isChain (h : e.isChain = true) : e.needsParens 8 = false := by
  cases e with
  | binary _ op _ _ => cases op <;> first | rfl | cases h
  | name => rfl
  | _ => cases h

/-- A suffix is read in the same way by the loop of the operators and where a statement starts. -/
theorem isRead_suffix {op : BinaryOp} {ws : List Piece} (hop : op.isSuffix = true)
    (hl : left.IsRead) (hturns : (binary span op left right).turns < loopLimit)
    (hwords : (binary span op left right).words =
      inParens (left.needsParens 8) left.words ++ symbol op.token :: ws)
    (hstep : ∀ {m t m₁ d}, m.next? = some (t, m₁) → t.kind = op.token → Takes m₁ ws d →
      d.kind? ≠ some .number → ∃ right' : Expr, right'.withoutSpans = right.withoutSpans ∧
        (∀ {left' depth}, depth < 8 →
          Reads .strict (.operator depth left') m (.more (.join op left' right')) d) ∧
        ∀ {left' rounds isCall r d'}, rounds < loopLimit →
          Reads .strict (.suffixes (rounds + 1) (.join op left' right') (op == .call)) d r d' →
          Reads .strict (.suffixes rounds left' isCall) m r d') :
    (binary span op left right).IsRead := by
  have hdepth := BinaryOp.depth_of_isSuffix hop
  have hjoin : ∀ {left' right' : Expr}, left'.withoutSpans = left.withoutSpans →
      right'.withoutSpans = right.withoutSpans →
      (join op left' right').withoutSpans = (binary span op left right).withoutSpans :=
    fun hl hr => by simp [join, withoutSpans, hl, hr]
  -- where the operator binds tightly enough, the loop of the operators reads it; as a link of a
  -- chain, the loop of the suffixes does
  refine isRead_of_starts hturns op.two_le_depth (fun {depth c d} hfits ht hd => ?_)
    fun {c d} hc ht hd => ?_
  · have hlt : depth < op.depth := hfits.resolve_right fun h => by cases h.1
    rw [hwords, ← hdepth] at ht
    refine starts_operator hl op.infixDepth?_token op.two_le_depth hlt
      (Nat.lt_of_succ_lt hturns) ht fun {left' m t m₁} hleft hn hk ht => ?_
    obtain ⟨right', hright, hread, -⟩ := hstep hn hk ht hd.2
    exact ⟨_, hjoin hleft hright, hread (hdepth ▸ hlt)⟩
  · have hchain : left.isChain = true := by
      cases op <;> first | exact hc | cases hop
    have hcall : (binary span op left right).isCall = (op == .call) := by
      cases op <;> rfl
    have hparens := needsParens_of_isChain hchain
    have hleftTurns : (binary span op left right).turns = left.turns + 1 := by
      simp [turns, hdepth, hparens]
    rw [hwords, hparens] at ht
    obtain ⟨m, htl, ht⟩ := takes_append.1 ht
    obtain ⟨t', m₁, hn', hk', ht⟩ := takes_symbol ht
    -- behind a number the left side would be read with its sign, which is not so in front of a
    -- suffix
    have hnumber : m.kind? ≠ some .number := by
      rw [kind?_of_next? hn', hk']
      cases op <;> simp [BinaryOp.token]
    obtain ⟨t, c₁, left', hn, hk, hleft, hr⟩ := hl.chain hchain htl hnumber
    obtain ⟨right', hright, -, hread⟩ := hstep hn' hk' ht hd
    refine ⟨t, c₁, _, hn, hk, hjoin hleft hright, fun r d' hloop => hr r d' ?_⟩
    rw [hleftTurns, hcall] at hloop
    exact hread hl.turns_lt hloop

theorem isRead_member (hl : left.IsRead) (hr : right.IsRead)
    (hturns : (binary span .member left right).turns < loopLimit) :
    (binary span .member left right).IsRead := by
  refine isRead_suffix rfl hl hturns rfl fun {m t m₁ d} hn hk ht hd => ?_
  have hstop := stops_eight hd
  obtain ⟨right', hright, hread⟩ : ∃ right' : Expr, right'.withoutSpans = right.withoutSpans ∧
      Reads .strict (.expr 8) m₁ right' d := by
    refine hr.placed_whole (fun hb => ?_) ht hstop
    have hb := of_decide_eq_false hb
    exact ⟨by omega, .inl (by omega), hstop.mono (by omega)⟩
  exact ⟨right', hright, fun hdepth => .infixMember hn hk hdepth hread,
    fun hrounds hloop => .suffixesMember hrounds hn hk hread hloop⟩

theorem isRead_call (hl : left.IsRead) (hr : right.isOperand = true → right.IsRead)
    (hturns : (binary span .call left right).turns < loopLimit) :
    (binary span .call left right).IsRead := by
  refine isRead_suffix rfl hl hturns rfl fun {m t m₁ d} hn hk ht hd => ?_
  obtain ⟨args, hargs, hread⟩ : ∃ args : Expr, args.withoutSpans = right.withoutSpans ∧
      Reads .strict .arguments m₁ args d := by
    obtain ⟨m₂, ht, hclose⟩ := takes_append.1 ht
    obtain ⟨t', m₃, hn', hk', hend⟩ := takes_symbol hclose
    obtain rfl := takes_nil.1 hend
    cases ho : right.isOperand with
    | false =>
      obtain ⟨s, rfl, hs⟩ := exists_null_of_isOperand ho
      simp only [words, hs] at ht
      obtain rfl := takes_nil.1 ht
      exact ⟨_, by simp [withoutSpans, Span.emptiness, hs], .argumentsNone hn' hk'⟩
    | true =>
      have hstop := stops_of_closes (by rw [kind?_of_next? hn', hk']; rfl) 0
      obtain ⟨args, hargs, hread⟩ := (hr ho).whole (Nat.le_refl 1) ht hstop
      exact ⟨args, hargs, .argumentsSome hread.kind?_ne.1 hread (require_of_next? hn' hk')⟩
  exact ⟨args, hargs, fun hdepth => .infixCall hn hk hdepth hread,
    fun hrounds hloop => .suffixesCall hrounds hn hk hread hloop⟩

theorem isRead_subscript (hl : left.IsRead) (hr : right.IsRead)
    (hturns : (binary span .subscript left right).turns < loopLimit) :
    (binary span .subscript left right).IsRead := by
  refine isRead_suffix rfl hl hturns rfl fun {m t m₁ d} hn hk ht hd => ?_
  obtain ⟨m₂, ht, hclose⟩ := takes_append.1 ht
  obtain ⟨t', m₃, hn', hk', hend⟩ := takes_symbol hclose
  obtain rfl := takes_nil.1 hend
  obtain ⟨index, hindex, hread⟩ := hr.whole (Nat.le_refl 1) ht
    (stops_of_closes (by rw [kind?_of_next? hn', hk']; rfl) 0)
  have hrequire : m₂.require .strict .rightBracket = .ok d := require_of_next? hn' hk'
  exact ⟨index, hindex, fun hdepth => .infixSubscript hn hk hdepth hread hrequire,
    fun hrounds hloop => .suffixesSubscript hrounds hn hk hread hrequire hloop⟩

theorem isRead_binary {op : BinaryOp} (hl : left.IsRead)
    (hr : right.isOperand = true → right.IsRead)
    (ho : (op == .call || right.isOperand) = true)
    (hturns : (binary span op left right).turns < loopLimit) :
    (binary span op left right).IsRead := by
  by_cases hcall : op = .call
  · subst hcall
    exact isRead_call hl hr hturns
  · have hr := hr (by simpa [hcall] using ho)
    cases hop : op.isSuffix with
    | false => exact isRead_infix hop hl hr hturns
    | true =>
      cases op with
      | member => exact isRead_member hl hr hturns
      | subscript => exact isRead_subscript hl hr hturns
      | _ => first | exact absurd rfl hcall | cases hop

/-! ## Ternaries -/

theorem isRead_ternary (hc : condition.IsRead) (ht : whenTrue.IsRead) (hf : whenFalse.IsRead)
    (hturns : (ternary span condition whenTrue whenFalse).turns < loopLimit) :
    (ternary span condition whenTrue whenFalse).IsRead := by
  refine isRead_of_starts hturns (by simp [precedence]) (fun {depth c d} hfits hw hd => ?_) nofun
  have hdepth : depth < 3 := hfits.resolve_right fun h => by cases h.1
  have hquestion : TokenKind.question.infixDepth? = some 3 := rfl
  refine starts_operator hc hquestion (by decide) hdepth (Nat.lt_of_succ_lt hturns) hw
    fun {condition' m t m₁} hcond hn hk hw => ?_
  obtain ⟨m₂, hwt, hw⟩ := takes_append.1 hw
  obtain ⟨t', m₃, hn', hk', hwf⟩ := takes_symbol hw
  have hcolon : m₂.Stops 3 := stops_of_closes (by rw [kind?_of_next? hn', hk']; rfl) 3
  obtain ⟨true', htrue, hreadTrue⟩ := ht.right_operand (by decide) (by decide) hwt hcolon
  obtain ⟨false', hfalse, hreadFalse⟩ := hf.right_operand (by decide) (by decide) hwf hd
  refine ⟨_, ?_, .infixTernary hn hk hdepth hreadTrue (require_of_next? hn' hk') hreadFalse⟩
  simp [withoutSpans, hcond, htrue, hfalse]

/-! ## Functions -/

/-- Parameters are read up to the closing token. -/
theorem reads_params {names : List String} {closing : TokenKind} {ws : List Piece} (rounds : Nat)
    (hne : names ≠ []) (hids : names.all isIdentifier = true)
    (hrounds : rounds + names.length ≤ loopLimit) (hclosing : closing ≠ .comma)
    (ht : Takes c (params names ++ symbol closing :: ws) d) :
    c.kind? = some .identifier ∧
      ∃ m, Reads .strict (.params closing rounds) c names m ∧ Takes m ws d := by
  induction names generalizing c rounds with
  | nil => exact absurd rfl hne
  | cons text names ih =>
    obtain ⟨hid, hrest⟩ := Bool.and_eq_true_iff.1 hids
    have hof := ofWord_of_isIdentifier hid
    simp only [List.length_cons] at hrounds
    cases names with
    | nil =>
      have ht : Takes c (word text :: symbol closing :: ws) d := ht
      obtain ⟨t, c₁, hn, hk, rfl, -, ht⟩ := takes_word ht
      obtain ⟨t', c₂, hn', hk', ht⟩ := takes_symbol ht
      have hk := hk.trans hof
      exact ⟨by rw [kind?_of_next? hn, hk], c₂,
        .paramsLast (by omega) (expect_of_next? hn hk) hn' hk', ht⟩
    | cons other names =>
      have ht : Takes c (word text :: symbol .comma ::
        (params (other :: names) ++ symbol closing :: ws)) d := ht
      obtain ⟨t, c₁, hn, hk, rfl, -, ht⟩ := takes_word ht
      obtain ⟨t', c₂, hn', hk', ht⟩ := takes_symbol ht
      have hk := hk.trans hof
      obtain ⟨-, m, hread, ht⟩ := ih (rounds + 1) (by simp) hrest (by omega) ht
      -- behind the name stands a comma, which does not close the list
      have hcomma : c₁.kind? ≠ some closing := by
        rw [kind?_of_next? hn', hk']
        simpa using hclosing.symm
      exact ⟨by rw [kind?_of_next? hn, hk], m, .paramsMore (by omega) (expect_of_next? hn hk) hcomma
        (expect_of_next? hn' hk') hread, ht⟩

theorem isRead_lambda {names : List String} {body : Expr} (h : body.IsRead)
    (hne : names ≠ []) (hids : names.all isIdentifier = true)
    (hlength : names.length ≤ loopLimit) : (lambda span names body).IsRead where
  turns_lt := by simp [turns, loopLimit]
  starts hprec := absurd hprec (by simp [precedence])
  chain := nofun
  whole {depth c d} _ ht hd := by
    obtain ⟨t, c₁, hn, hk, ht⟩ := takes_symbol ht
    obtain ⟨-, m, hparams, ht⟩ := reads_params 0 hne hids (by omega) (by decide) ht
    obtain ⟨body', hbody, hread⟩ := h.whole (Nat.zero_le 1) ht hd
    exact ⟨_, by simp only [withoutSpans, hbody], .exprLambda hn hk (.lambda hparams hread)⟩

theorem isRead_function {names : List String} {body : Statement}
    (h : ∀ {c d}, Takes c body.words d →
      ∃ body' : Statement, body'.withoutSpans = body.withoutSpans ∧
        Reads .strict .block c body' d)
    (hids : names.all isIdentifier = true) (hlength : names.length ≤ loopLimit) :
    (function span names body).IsRead where
  turns_lt := by simp [turns, loopLimit]
  starts hprec := absurd hprec (by simp [precedence])
  chain := nofun
  whole {depth c d} _ ht _ := by
    obtain ⟨t, c₁, hn, hk, ht⟩ := takes_symbol ht
    obtain ⟨p, c₂, hp, hpk, ht⟩ := takes_symbol ht
    have hopen : c₁.expect .strict .leftParen = .ok (some p, c₂) := expect_of_next? hp hpk
    by_cases hne : names = []
    · subst hne
      obtain ⟨t', c₃, hn', hk', ht⟩ := takes_symbol ht
      obtain ⟨body', hbody, hread⟩ := h ht
      exact ⟨_, by simp only [withoutSpans, hbody],
        .exprFunction hn hk (.functionBare hopen hn' hk' hread)⟩
    · obtain ⟨hkind, m, hparams, ht⟩ := reads_params 0 hne hids (by omega) (by decide) ht
      obtain ⟨body', hbody, hread⟩ := h ht
      exact ⟨_, by simp only [withoutSpans, hbody],
        .exprFunction hn hk (.functionParams hopen (by simp [hkind]) hparams hread)⟩

end Expr

namespace Statement

open Cursor Parse

/-! ## Statements -/

/-- The words of a statement are read as the statement. -/
structure IsRead (s : Statement) : Prop where
  /-- An `else` behind the statement is not read as a part of it. -/
  statement {c d : Cursor} : Takes c s.words d →
    (s.endsOpen = true → d.kind? ≠ some .elseWord) →
    ∃ s' : Statement, s'.withoutSpans = s.withoutSpans ∧ Reads .strict .statement c s' d
  declaration {c d : Cursor} : s.isSimple = true → Takes c s.bareWords d →
    d.kind? = some .semicolon →
    ∃ s' : Statement, s'.withoutSpans = s.withoutSpans ∧ Reads .strict .declaration c s' d
  assignment {c d : Cursor} : s.isAssignment = true → Takes c s.bareWords d →
    d.kind? = some .semicolon ∨ d.kind? = some .rightParen →
    ∃ s' : Statement, s'.withoutSpans = s.withoutSpans ∧ Reads .strict .assignment c s' d
  block {c d : Cursor} : s.isBlock = true → Takes c s.words d →
    ∃ s' : Statement, s'.withoutSpans = s.withoutSpans ∧ Reads .strict .block c s' d
  /-- No statement starts like the end of a block or of a branch. -/
  first {c d : Cursor} : Takes c s.words d →
    ∃ kind, c.kind? = some kind ∧ kind ≠ .rightBrace ∧ kind ≠ .elseWord

variable {s body whenTrue : Statement} {ss : List Statement} {e target value condition : Expr}
  {span : Span} {c d : Cursor}

/-- A declaration, an assignment or a call is read as a statement with the semicolon behind it. -/
theorem isRead_simple (hend : s.endsWithSemicolon = true) (hblock : s.isBlock = false)
    (hdecl : ∀ {c d : Cursor}, Takes c s.bareWords d → d.kind? = some .semicolon →
      (c.kind? = some .identifier ∨ c.kind? = some .letWord) ∧
      ∃ s' : Statement, s'.withoutSpans = s.withoutSpans ∧ Reads .strict .declaration c s' d)
    (hassign : ∀ {c d : Cursor}, s.isAssignment = true → Takes c s.bareWords d →
      d.kind? = some .semicolon ∨ d.kind? = some .rightParen →
      ∃ s' : Statement, s'.withoutSpans = s.withoutSpans ∧ Reads .strict .assignment c s' d) :
    s.IsRead := by
  -- the words are those in front of the semicolon and the semicolon
  have hwords : ∀ {c d : Cursor}, Takes c s.words d → ∃ m t, Takes c s.bareWords m ∧
      m.next? = some (t, d) ∧ t.kind = .semicolon := by
    intro c d ht
    simp only [words, terminateWords, hend, if_true] at ht
    obtain ⟨m, ht, hsemi⟩ := takes_append.1 ht
    obtain ⟨t, m₁, hn, hk, hend⟩ := takes_symbol hsemi
    obtain rfl := takes_nil.1 hend
    exact ⟨m, t, ht, hn, hk⟩
  have hread : ∀ {c d : Cursor}, Takes c s.words d →
      (c.kind? = some .identifier ∨ c.kind? = some .letWord) ∧
      ∃ s' : Statement, s'.withoutSpans = s.withoutSpans ∧ Reads .strict .statement c s' d := by
    intro c d ht
    obtain ⟨m, t, ht, hn, hk⟩ := hwords ht
    obtain ⟨hkind, s', hs', hr⟩ := hdecl ht (by rw [kind?_of_next? hn, hk])
    refine ⟨hkind, s', hs', .statementSimple ?_ (.simple hr (require_of_next? hn hk))⟩
    rintro kind hc
    rcases hkind with hkind | hkind <;>
      · rw [hkind] at hc
        cases hc
        rfl
  exact {
    statement := fun ht _ => (hread ht).2
    declaration := fun _ ht hd => (hdecl ht hd).2
    assignment := hassign
    block := fun h => by simp [hblock] at h
    first := fun ht => (hread ht).1.elim (fun h => ⟨_, h, by decide, by decide⟩)
      fun h => ⟨_, h, by decide, by decide⟩ }

/-- An assignment or a call is read as a declaration, too. -/
theorem isRead_assignment (hend : s.endsWithSemicolon = true) (hblock : s.isBlock = false)
    (hassign : ∀ {c d : Cursor}, Takes c s.bareWords d →
      d.kind? = some .semicolon ∨ d.kind? = some .rightParen →
      c.kind? = some .identifier ∧
      ∃ s' : Statement, s'.withoutSpans = s.withoutSpans ∧ Reads .strict .assignment c s' d) :
    s.IsRead := by
  refine isRead_simple hend hblock (fun ht hd => ?_) fun _ ht hd => (hassign ht hd).2
  obtain ⟨hkind, s', hs', hr⟩ := hassign ht (.inl hd)
  exact ⟨.inl hkind, s', hs', .declarationAssignment (by simp [hkind]) hr⟩

theorem isRead_expression (h : e.IsRead) (hchain : e.isChain = true) (hcall : e.isCall = true) :
    (expression span e).IsRead := by
  refine isRead_assignment rfl rfl fun {c d} ht hd => ?_
  have hnumber : d.kind? ≠ some .number := by rcases hd with hd | hd <;> simp [hd]
  obtain ⟨t, c₁, e', hn, hk, he', hr⟩ := h.chain hchain ht hnumber
  refine ⟨by rw [kind?_of_next? hn, hk], .ofExpr e', by simp [ofExpr, withoutSpans, he'],
    .assignmentCall hn hk (hr _ _ ?_)⟩
  rw [hcall]
  refine .suffixesDone h.turns_lt fun kind hkind => ?_
  rcases hd with hd | hd <;>
    · rw [hd] at hkind
      cases hkind
      rfl

theorem stops_of_ends (hd : d.kind? = some .semicolon ∨ d.kind? = some .rightParen) :
    d.Stops 0 := by
  refine stops_of_closes ?_ 0
  rcases hd with hd | hd <;>
    · rw [hd]
      rfl

theorem isRead_assign {op : AssignOp} (ht : target.IsRead) (hv : value.IsRead)
    (hchain : target.isChain = true) (hcall : target.isCall = false) :
    (assign span op target value).IsRead := by
  refine isRead_assignment rfl rfl fun {c d} hw hd => ?_
  obtain ⟨m, htarget, hw⟩ := takes_append.1 hw
  obtain ⟨t', m₁, hn', hk', hvalue⟩ := takes_symbol hw
  have hkind : m.kind? = some op.token := by rw [kind?_of_next? hn', hk']
  have hnumber : m.kind? ≠ some .number := by
    rw [hkind]
    cases op <;> simp [AssignOp.token]
  obtain ⟨t, c₁, target', hn, hk, htarget', hr⟩ := ht.chain hchain htarget hnumber
  obtain ⟨value', hvalue', hread⟩ := hv.whole (Nat.zero_le 1) hvalue (stops_of_ends hd)
  refine ⟨by rw [kind?_of_next? hn, hk], .assign (target'.span.merge value'.span) op target' value',
    ?_, .assignmentValue hn hk (hr _ _ ?_) hn' (hk' ▸ op.ofToken?_token) hread⟩
  · simp [withoutSpans, htarget', hvalue']
  · rw [hcall]
    refine .suffixesDone ht.turns_lt fun kind hm => ?_
    rw [hkind] at hm
    cases hm
    cases op <;> rfl

theorem isRead_declare {name : String} (hid : isIdentifier name = true) :
    (declare span name none).IsRead := by
  refine isRead_simple rfl rfl (fun {c d} ht hd => ?_) nofun
  obtain ⟨t, c₁, hn, hk, ht⟩ := takes_symbol ht
  obtain ⟨t', c₂, hn', hk', rfl, -, ht⟩ := takes_word ht
  obtain rfl := takes_nil.1 ht
  have hexpect : c₁.expect .strict .identifier = .ok (some t', d) :=
    expect_of_next? hn' (hk'.trans (ofWord_of_isIdentifier hid))
  exact ⟨.inr (by rw [kind?_of_next? hn, hk]), .declare (d.spanFrom c.position) t'.text none, rfl,
    .declarationBare hn hk hexpect (.inr hd)⟩

theorem isRead_declare_value {name : String} (hid : isIdentifier name = true) (hv : value.IsRead) :
    (declare span name (some value)).IsRead := by
  refine isRead_simple rfl rfl (fun {c d} ht hd => ?_) nofun
  obtain ⟨t, c₁, hn, hk, ht⟩ := takes_symbol ht
  obtain ⟨t', c₂, hn', hk', rfl, -, ht⟩ := takes_word ht
  obtain ⟨t'', c₃, hn'', hk'', ht⟩ := takes_symbol ht
  have hexpect : c₁.expect .strict .identifier = .ok (some t', c₂) :=
    expect_of_next? hn' (hk'.trans (ofWord_of_isIdentifier hid))
  obtain ⟨value', hvalue', hread⟩ := hv.whole (Nat.zero_le 1) ht (stops_of_ends (.inl hd))
  exact ⟨.inr (by rw [kind?_of_next? hn, hk]),
    .declare ((d.spanFrom c.position).merge value'.span) t'.text (some value'),
    by simp [withoutSpans, Expr.optionWithoutSpans, hvalue'],
    .declarationValue hn hk hexpect (by rw [kind?_of_next? hn'', hk'']; decide)
      (require_of_next? hn'' hk'') hread⟩

/-- A statement with a keyword or a bracket of its own in front. -/
theorem isRead_keyword (kind : TokenKind) (ws : List Piece)
    (hwords : s.words = symbol kind :: ws) (hsimple : s.isSimple = false)
    (hblock : s.isBlock = false) (hkind : kind ≠ .rightBrace ∧ kind ≠ .elseWord)
    (h : ∀ {c t c₁ d}, c.next? = some (t, c₁) → t.kind = kind → Takes c₁ ws d →
      (s.endsOpen = true → d.kind? ≠ some .elseWord) →
      ∃ s' : Statement, s'.withoutSpans = s.withoutSpans ∧ Reads .strict .statement c s' d) :
    s.IsRead where
  statement ht hd := by
    rw [hwords] at ht
    obtain ⟨t, c₁, hn, hk, ht⟩ := takes_symbol ht
    exact h hn hk ht hd
  declaration hs := by simp [hsimple] at hs
  assignment hs := by simp [isSimple_of_isAssignment hs] at hsimple
  block hs := by simp [hblock] at hs
  first ht := by
    rw [hwords] at ht
    obtain ⟨t, c₁, hn, hk, -⟩ := takes_symbol ht
    exact ⟨kind, by rw [kind?_of_next? hn, hk], hkind⟩

theorem isRead_leave_none : (leave span none).IsRead :=
  isRead_keyword .returnWord [symbol .semicolon] rfl rfl rfl (by decide)
    fun {c t c₁ d} hn hk ht _ => by
    obtain ⟨t', c₂, hn', hk', ht⟩ := takes_symbol ht
    obtain rfl := takes_nil.1 ht
    exact ⟨.leave (d.spanFrom c.position) none, rfl, .statementReturn hn hk hn' hk'⟩

theorem isRead_leave (h : e.IsRead) : (leave span (some e)).IsRead :=
  isRead_keyword .returnWord (e.words ++ [symbol .semicolon]) rfl rfl rfl (by decide)
    fun {c t c₁ d} hn hk ht _ => by
    obtain ⟨m, ht, hsemi⟩ := takes_append.1 ht
    obtain ⟨t', c₂, hn', hk', hend⟩ := takes_symbol hsemi
    obtain rfl := takes_nil.1 hend
    have hkind := kind?_of_next? hn'
    rw [hk'] at hkind
    obtain ⟨e', he', hr⟩ := h.whole (Nat.zero_le 1) ht (stops_of_ends (.inl hkind))
    exact ⟨.leave (d.spanFrom c.position) (some e'),
      by simp [withoutSpans, Expr.optionWithoutSpans, he'],
      .statementReturnValue hn hk hr.kind?_ne.2 hr (require_of_next? hn' hk')⟩

theorem isRead_breakLoop (span : Span) : (breakLoop span).IsRead :=
  isRead_keyword .breakWord [symbol .semicolon] rfl rfl rfl (by decide)
    fun {c t c₁ d} hn hk ht _ => by
    obtain ⟨t', c₂, hn', hk', ht⟩ := takes_symbol ht
    obtain rfl := takes_nil.1 ht
    exact ⟨.breakLoop (d.spanFrom c.position), rfl, .statementBreak hn hk (require_of_next? hn' hk')⟩

theorem isRead_continueLoop (span : Span) : (continueLoop span).IsRead :=
  isRead_keyword .continueWord [symbol .semicolon] rfl rfl rfl (by decide)
    fun {c t c₁ d} hn hk ht _ => by
    obtain ⟨t', c₂, hn', hk', ht⟩ := takes_symbol ht
    obtain rfl := takes_nil.1 ht
    exact ⟨.continueLoop (d.spanFrom c.position), rfl,
      .statementContinue hn hk (require_of_next? hn' hk')⟩

theorem isRead_empty (span : Span) : (empty span).IsRead :=
  isRead_keyword .semicolon [] rfl rfl rfl (by decide)
    fun {c t c₁ d} hn hk ht _ => by
    obtain rfl := takes_nil.1 ht
    exact ⟨.empty (.empty c.position), rfl, .statementEmpty hn hk⟩

/-! ## Statements in a row -/

/-- Statements are read one by one up to the end of the block or of the text. -/
theorem reads_statements (h : ∀ s ∈ ss, s.IsRead) (rounds : Nat)
    (hrounds : rounds + ss.length ≤ loopLimit) (ht : Takes c (listWords ss) d)
    (hd : d.kind? = none ∨ d.kind? = some .rightBrace) :
    c.kind? ≠ some .elseWord ∧ ∃ ss', listWithoutSpans ss' = listWithoutSpans ss ∧
      Reads .strict (.statements rounds) c ss' d := by
  induction ss generalizing c rounds with
  | nil =>
    obtain rfl := takes_nil.1 ht
    exact ⟨by rcases hd with hd | hd <;> simp [hd], [], rfl, .statementsDone hd⟩
  | cons s ss ih =>
    obtain ⟨hs, hss⟩ := List.forall_mem_cons.1 h
    obtain ⟨m, hts, ht⟩ := takes_append.1 ht
    simp only [List.length_cons] at hrounds
    obtain ⟨helse, ss', hss', hrest⟩ := ih hss (rounds + 1) (by omega) ht
    obtain ⟨kind, hkind, hbrace, hfirst⟩ := hs.first hts
    obtain ⟨s', hs', hr⟩ := hs.statement hts fun _ => helse
    exact ⟨by simp [hkind, hfirst], s' :: ss', by simp [listWithoutSpans, hs', hss'],
      .statementsMore hkind hbrace (by omega) hr hrest⟩

theorem isRead_block (h : ∀ s ∈ ss, s.IsRead) (hlength : ss.length ≤ loopLimit) :
    (block span ss).IsRead := by
  have hread : ∀ {c d}, Takes c (block span ss).words d → c.kind? = some .leftBrace ∧
      ∃ s' : Statement, s'.withoutSpans = (block span ss).withoutSpans ∧
        Reads .strict .block c s' d := by
    intro c d ht
    obtain ⟨t, c₁, hn, hk, ht⟩ := takes_symbol ht
    obtain ⟨m, ht, hclose⟩ := takes_append.1 ht
    obtain ⟨t', c₂, hn', hk', hend⟩ := takes_symbol hclose
    obtain rfl := takes_nil.1 hend
    obtain ⟨-, ss', hss', hr⟩ := reads_statements h 0 (by omega) ht
      (.inr (by rw [kind?_of_next? hn', hk']))
    exact ⟨by rw [kind?_of_next? hn, hk], .block (d.spanFrom c.position) ss',
      by simp [withoutSpans, hss'],
      .block (require_of_next? hn hk) hr (require_of_next? hn' hk')⟩
  exact {
    statement := fun ht _ => by
      obtain ⟨hkind, s', hs', hr⟩ := hread ht
      exact ⟨s', hs', .statementBlock hkind hr⟩
    declaration := nofun
    assignment := nofun
    block := fun _ ht => (hread ht).2
    first := fun ht => ⟨_, (hread ht).1, by decide, by decide⟩ }

/-! ## Branches and loops -/

/-- The condition in the parentheses of a branch or a loop. -/
theorem reads_header {ws : List Piece} (hc : condition.IsRead)
    (ht : Takes c (symbol .leftParen :: (condition.words ++ symbol .rightParen :: ws)) d) :
    ∃ c₁ condition' c₂ c₃, c.require .strict .leftParen = .ok c₁ ∧
      condition'.withoutSpans = condition.withoutSpans ∧
      Reads .strict (.expr 0) c₁ condition' c₂ ∧ c₂.require .strict .rightParen = .ok c₃ ∧
      Takes c₃ ws d := by
  obtain ⟨t, c₁, hn, hk, ht⟩ := takes_symbol ht
  obtain ⟨c₂, ht, hclose⟩ := takes_append.1 ht
  obtain ⟨t', c₃, hn', hk', hrest⟩ := takes_symbol hclose
  obtain ⟨condition', hcond, hr⟩ := hc.whole (Nat.zero_le 1) ht
    (stops_of_ends (.inr (by rw [kind?_of_next? hn', hk'])))
  exact ⟨c₁, condition', c₂, c₃, require_of_next? hn hk, hcond, hr, require_of_next? hn' hk', hrest⟩

theorem isRead_branch (hc : condition.IsRead) (ht : whenTrue.IsRead) :
    (branch span condition whenTrue none).IsRead := by
  refine isRead_keyword _ _ rfl rfl rfl (by decide) fun {c t c₁ d} hn hk hw hd => ?_
  obtain ⟨c₂, condition', c₃, c₄, hopen, hcond, hread, hclose, hw⟩ := reads_header hc hw
  have helse := hd rfl
  obtain ⟨true', htrue, hr⟩ := ht.statement hw fun _ => helse
  exact ⟨.branch (d.spanFrom c.position) condition' true' none,
    by simp [withoutSpans, optionWithoutSpans, hcond, htrue],
    .statementIf hn hk hopen hread hclose hr helse⟩

theorem isRead_branch_else {whenFalse : Statement} (hc : condition.IsRead) (ht : whenTrue.IsRead)
    (hf : whenFalse.IsRead) (hopen : whenTrue.endsOpen = false) :
    (branch span condition whenTrue (some whenFalse)).IsRead := by
  refine isRead_keyword _ _ rfl rfl rfl (by decide) fun {c t c₁ d} hn hk hw hd => ?_
  obtain ⟨c₂, condition', c₃, c₄, hleft, hcond, hread, hclose, hw⟩ := reads_header hc hw
  obtain ⟨m, hwt, hw⟩ := takes_append.1 hw
  obtain ⟨t', m₁, hn', hk', hwf⟩ := takes_symbol hw
  obtain ⟨true', htrue, hr⟩ := ht.statement hwt fun h => by simp [hopen] at h
  obtain ⟨false', hfalse, hr'⟩ := hf.statement hwf hd
  exact ⟨.branch (d.spanFrom c.position) condition' true' (some false'),
    by simp [withoutSpans, optionWithoutSpans, hcond, htrue, hfalse],
    .statementIfElse hn hk hleft hread hclose hr hn' hk' hr'⟩

theorem isRead_whileLoop (hc : condition.IsRead) (hb : body.IsRead) :
    (whileLoop span condition body).IsRead := by
  refine isRead_keyword _ _ rfl rfl rfl (by decide) fun {c t c₁ d} hn hk hw hd => ?_
  obtain ⟨c₂, condition', c₃, c₄, hopen, hcond, hread, hclose, hw⟩ := reads_header hc hw
  obtain ⟨body', hbody, hr⟩ := hb.statement hw hd
  exact ⟨.whileLoop (d.spanFrom c.position) condition' body',
    by simp [withoutSpans, hcond, hbody], .statementWhile hn hk hopen hread hclose hr⟩

theorem reads_initializer {o : Option Statement} {ws : List Piece} (h : ∀ s ∈ o, s.IsRead)
    (hsimple : o.all isSimple = true)
    (hw : Takes c (headerWords o ++ symbol .semicolon :: ws) d) :
    ∃ o' m, optionWithoutSpans o' = optionWithoutSpans o ∧
      Reads .strict .initializer c o' m ∧ Takes m ws d := by
  obtain ⟨m, hto, hclose⟩ := takes_append.1 hw
  obtain ⟨t, m₁, hn, hk, ht⟩ := takes_symbol hclose
  cases o with
  | none =>
    obtain rfl := takes_nil.1 hto
    exact ⟨none, m₁, rfl, .initializerNone hn hk, ht⟩
  | some s =>
    have hkind := kind?_of_next? hn
    rw [hk] at hkind
    obtain ⟨s', hs', hr⟩ := (h s rfl).declaration hsimple hto hkind
    exact ⟨some s', m₁, by simp [optionWithoutSpans, hs'],
      .initializerSome hr.kind?_ne_semicolon hr (require_of_next? hn hk), ht⟩

theorem reads_condition {o : Option Expr} {ws : List Piece} (h : ∀ e ∈ o, e.IsRead)
    (hw : Takes c (Expr.optionWords o ++ symbol .semicolon :: ws) d) :
    ∃ o' m, Expr.optionWithoutSpans o' = Expr.optionWithoutSpans o ∧
      Reads .strict .condition c o' m ∧ Takes m ws d := by
  obtain ⟨m, hto, hclose⟩ := takes_append.1 hw
  obtain ⟨t, m₁, hn, hk, ht⟩ := takes_symbol hclose
  cases o with
  | none =>
    obtain rfl := takes_nil.1 hto
    exact ⟨none, m₁, rfl, .conditionNone hn hk, ht⟩
  | some e =>
    obtain ⟨e', he', hr⟩ := (h e rfl).whole (Nat.zero_le 1) hto
      (stops_of_ends (.inl (by rw [kind?_of_next? hn, hk])))
    exact ⟨some e', m₁, by simp [Expr.optionWithoutSpans, he'],
      .conditionSome hr.kind?_ne.2 hr (require_of_next? hn hk), ht⟩

theorem reads_iterator {o : Option Statement} {ws : List Piece} (h : ∀ s ∈ o, s.IsRead)
    (hassign : o.all isAssignment = true)
    (hw : Takes c (headerWords o ++ symbol .rightParen :: ws) d) :
    ∃ o' m, optionWithoutSpans o' = optionWithoutSpans o ∧
      Reads .strict .iterator c o' m ∧ Takes m ws d := by
  obtain ⟨m, hto, hclose⟩ := takes_append.1 hw
  obtain ⟨t, m₁, hn, hk, ht⟩ := takes_symbol hclose
  cases o with
  | none =>
    obtain rfl := takes_nil.1 hto
    exact ⟨none, m₁, rfl, .iteratorNone hn hk, ht⟩
  | some s =>
    have hkind := kind?_of_next? hn
    rw [hk] at hkind
    obtain ⟨s', hs', hr⟩ := (h s rfl).assignment hassign hto (.inr hkind)
    exact ⟨some s', m₁, by simp [optionWithoutSpans, hs'],
      .iteratorSome (by simp [hr.kind?_of_assignment]) hr (require_of_next? hn hk), ht⟩

theorem isRead_forLoop {initializer iterator : Option Statement} {condition : Option Expr}
    (hi : ∀ s ∈ initializer, s.IsRead) (hc : ∀ e ∈ condition, e.IsRead)
    (hs : ∀ s ∈ iterator, s.IsRead) (hb : body.IsRead)
    (hsimple : initializer.all isSimple = true) (hassign : iterator.all isAssignment = true) :
    (forLoop span initializer condition iterator body).IsRead := by
  refine isRead_keyword _ _ rfl rfl rfl (by decide) fun {c t c₁ d} hn hk hw hd => ?_
  obtain ⟨p, c₂, hp, hpk, hw⟩ := takes_symbol hw
  obtain ⟨initializer', c₃, hinit, hri, hw⟩ := reads_initializer hi hsimple hw
  obtain ⟨condition', c₄, hcond, hrc, hw⟩ := reads_condition hc hw
  obtain ⟨iterator', c₅, hstep, hrs, hw⟩ := reads_iterator hs hassign hw
  obtain ⟨body', hbody, hrb⟩ := hb.statement hw hd
  exact ⟨.forLoop (d.spanFrom c.position) initializer' condition' iterator' body',
    by simp [withoutSpans, hinit, hcond, hstep, hbody],
    .statementFor hn hk (.forLoop (require_of_next? hp hpk) hri hrc hrs hrb)⟩

end Statement

end SearchScript
