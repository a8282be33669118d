import SearchScript.Proofs.Parse.Alike
import SearchScript.Proofs.Parse.Inversion

/-!
# Reading alike tokens alike

Phrases that are read in front of alike tokens are read with the same results, spans and folded
signs apart. The induction on the rules keeps the tokens alike and knows of each phrase whether it
is read behind an operand. That leaves two cases where the next tokens at two cursors are of
different kinds: behind an operand a negative number, which is cut before an operator is read, and
in front of an operand a negated literal.

## Key definitions

- `Phrase.Keeps`: what it means that a phrase is read alike, for each phrase

## Key results

- `Reads.keeps`: whatever is strictly read is read alike
-/

namespace SearchScript

namespace Parse

open Cursor Token TokenKind

/-- Whether a reading gives an expression, spans and folded signs apart, and ends in front of tokens
like those at a cursor. -/
def Gives (fold : Bool) (e : Expr) (d : Cursor) (read : Expr → Cursor → Prop) : Prop :=
  ∃ e' d', read e' d' ∧ e'.reduced fold = e.reduced fold ∧ Parallel fold true d d'

/-- Whether a reading gives a statement, spans and folded signs apart, and ends in front of tokens
like those at a cursor. -/
def GivesStatement (fold operand : Bool) (s : Statement) (d : Cursor)
    (read : Statement → Cursor → Prop) : Prop :=
  ∃ s' d', read s' d' ∧ s'.reduced fold = s.reduced fold ∧ Parallel fold operand d d'

/-- Whether a phrase that is read between two cursors is read with the same result at every cursor
in front of alike tokens, and ends in front of alike tokens there. Where the phrase begins, which
left operand it continues and how often a loop has gone round may differ, but the loop of the
operators must not have gone round more often. -/
def Phrase.Keeps (fold : Bool) (c d : Cursor) : (p : Phrase) → p.Result → Prop
  | expr depth, e => ∀ c', Parallel fold false c c' →
      Gives fold e d (Reads .strict (.expr depth) c')
  | operand, none => ∀ c', c'.kind? = c.kind? → Reads .strict .operand c' none c'
  | operand, some e => ∀ c', Parallel fold false c c' → c'.kind? = c.kind? →
      Gives fold e d fun e' => Reads .strict .operand c' (some e')
  | operators depth _ rounds none, e => ∀ c' start' rounds', Parallel fold false c c' →
      rounds' ≤ rounds →
      (c'.kind? = c.kind? →
        Gives fold e d (Reads .strict (.operators depth start' rounds' none) c')) ∧
      -- a literal stands for the prefix operator and its operand
      (c'.kind? ≠ c.kind? → ∃ t' c₁' literal, c'.next? = some (t', c₁') ∧
        atomOf? t' = some literal ∧
        Gives fold e d (Reads .strict (.operators depth start' rounds' (some literal)) c₁'))
  | operators depth _ rounds (some left), e => ∀ c' start' rounds' left',
      Parallel fold true c c' → rounds' ≤ rounds → left'.reduced fold = left.reduced fold →
      Gives fold e d (Reads .strict (.operators depth start' rounds' (some left')) c')
  | prefixOperator depth _, .done => ∀ c' start', c'.kind? = c.kind? →
      Reads .strict (.prefixOperator depth start') c' .done c'
  | prefixOperator depth _, .more e => ∀ c' start', Parallel fold false c c' →
      c'.kind? = c.kind? →
      Gives fold e d fun e' => Reads .strict (.prefixOperator depth start') c' (.more e')
  | operator depth _, .done => ∀ c' left', c'.kind? = c.kind? →
      Reads .strict (.operator depth left') c' .done c'
  | operator depth left, .more e => ∀ c' left', Parallel fold true c c' → c'.kind? = c.kind? →
      left'.reduced fold = left.reduced fold →
      Gives fold e d fun e' => Reads .strict (.operator depth left') c' (.more e')
  | arguments, e => ∀ c', Parallel fold false c c' → Gives fold e d (Reads .strict .arguments c')
  | functionTail _, e => ∀ c' start', Parallel fold false c c' →
      Gives fold e d (Reads .strict (.functionTail start') c')
  | lambdaTail _, e => ∀ c' start', Parallel fold false c c' →
      Gives fold e d (Reads .strict (.lambdaTail start') c')
  | params closing rounds, names => closing.isSign = false → ∀ operand c',
      Parallel fold operand c c' → ∃ d', Reads .strict (.params closing rounds) c' names d' ∧
        Parallel fold closing.endsOperand d d'
  | statements rounds, ss => ∀ operand c', Parallel fold operand c c' →
      ∃ operand' ss' d', Reads .strict (.statements rounds) c' ss' d' ∧
        Statement.listReduced fold ss' = Statement.listReduced fold ss ∧ Parallel fold operand' d d'
  | statement, s => ∀ operand c', Parallel fold operand c c' →
      ∃ operand', GivesStatement fold operand' s d (Reads .strict .statement c')
  | simpleStatement, s => ∀ operand c', Parallel fold operand c c' →
      ∃ operand', GivesStatement fold operand' s d (Reads .strict .simpleStatement c')
  | forTail _, s => ∀ operand c' start', Parallel fold operand c c' →
      ∃ operand', GivesStatement fold operand' s d (Reads .strict (.forTail start') c')
  | initializer, s? => ∀ operand c', Parallel fold operand c c' →
      ∃ s?' d', Reads .strict .initializer c' s?' d' ∧
        Statement.optionReduced fold s?' = Statement.optionReduced fold s? ∧
        Parallel fold false d d'
  | condition, e? => ∀ c', Parallel fold false c c' →
      ∃ operand' e?' d', Reads .strict .condition c' e?' d' ∧
        Expr.optionReduced fold e?' = Expr.optionReduced fold e? ∧ Parallel fold operand' d d'
  | iterator, s? => ∀ operand c', Parallel fold operand c c' →
      ∃ operand' s?' d', Reads .strict .iterator c' s?' d' ∧
        Statement.optionReduced fold s?' = Statement.optionReduced fold s? ∧
        Parallel fold operand' d d'
  | block, s => ∀ operand c', Parallel fold operand c c' →
      GivesStatement fold true s d (Reads .strict .block c')
  | declaration, s => ∀ operand c', Parallel fold operand c c' →
      GivesStatement fold true s d (Reads .strict .declaration c')
  | assignment, s => ∀ operand c', Parallel fold operand c c' →
      GivesStatement fold true s d (Reads .strict .assignment c')
  | suffixes rounds node isCall, (e, flag) => ∀ c' node', Parallel fold true c c' →
      node'.reduced fold = node.reduced fold →
      Gives fold e d fun e' => Reads .strict (.suffixes rounds node' isCall) c' (e', flag)

variable {fold : Bool} {p : Phrase} {c d c' : Cursor} {t t' m n : Token} {e left : Expr}
  {depth start rounds : Nat}

theorem startsStatement_of_isSign (kind : TokenKind) (h : kind.isSign = true) :
    startsStatement kind = false := by
  cases kind <;> first | rfl | cases h

theorem startsSuffix_of_isSign (kind : TokenKind) (h : kind.isSign = true) :
    startsSuffix kind = false := by
  cases kind <;> first | rfl | cases h

/-- The literals of tokens that are the same are the same. -/
theorem exists_atomOf? (h : SameAs t t') (ha : atomOf? t = some e) :
    ∃ e', atomOf? t' = some e' ∧ e'.reduced fold = e.reduced fold := by
  unfold atomOf? at ha ⊢
  rw [h.kind, h.text]
  split at ha <;> try cases ha
  case h_7 hk =>
    refine ⟨_, rfl, ?_⟩
    simp only [Expr.reduced, Span.emptiness, h.empty hk]
  case h_8 =>
    split at ha <;> cases ha
    exact ⟨_, rfl, rfl⟩
  all_goals exact ⟨_, rfl, rfl⟩

theorem eq_of_operandNone (h : Reads .strict .operand c none d) : d = c := by
  cases h
  rfl

theorem eq_of_operatorDone (h : Reads .strict (.operator depth left) c .done d) : d = c := by
  cases h
  rfl

theorem kind?_of_operandSome (h : Reads .strict .operand c (some e) d) :
    c.kind? ≠ some .minus := by
  cases h with
  | operandParens hn hk =>
    rw [kind?_of_next? hn, hk]
    nofun
  | operandAtom hn ha =>
    rw [kind?_of_next? hn]
    intro hk
    have hatom := startsAtom_of_atomOf? ha
    rw [Option.some.inj hk] at hatom
    cases hatom

theorem depth_le_of_ofToken? {kind : TokenKind} {op : BinaryOp}
    (h : BinaryOp.ofToken? kind = some op) : op.depth ≤ 7 := by
  unfold BinaryOp.ofToken? at h
  split at h <;> cases h <;> decide

theorem noInfix_of_not_startsSuffix {kind : TokenKind} (h : startsSuffix kind = false) :
    noInfix 7 (some kind) = true := by
  cases kind <;> first | rfl | cases h

theorem forall_kind?_of_rest {ts : List Token} (hr : c.rest = ts)
    (hs : ∀ u, ts.head? = some u → startsSuffix u.kind = false) :
    ∀ kind, c.kind? = some kind → startsSuffix kind = false := by
  intro kind hk
  obtain ⟨u, hu, rfl⟩ := Option.map_eq_some_iff.1 hk
  exact hs u (hr ▸ hu)

/-- A number that no suffix follows is read in front of the next operator, at the depth of what a
prefix operator applies to. -/
theorem of_literal (h : Reads .strict (.expr 7) c e d) (hn : c.next? = some (n, c'))
    (hk : n.kind = .number) (hs : ∀ kind, c'.kind? = some kind → startsSuffix kind = false) :
    e = .number n.span (Number.read n.text) ∧ d = c'.splitNegative := by
  have hkind : c.kind? = some .number := by rw [kind?_of_next? hn, hk]
  obtain ⟨node?, c₁, ho, hops⟩ := h.of_operand (by simp [hkind]) (by simp [hkind])
  have hliteral : node? = some (.number n.span (Number.read n.text)) ∧ c₁ = c' := by
    cases ho with
    | operandParens hn' hk' => rw [hn] at hn'; cases hn'; rw [hk] at hk'; cases hk'
    | operandAtom hn' ha =>
      rw [hn] at hn'
      cases hn'
      simp only [atomOf?, hk, Option.some.injEq] at ha
      exact ⟨by rw [ha], rfl⟩
    | operandNone _ ha => cases ha _ hkind
  obtain ⟨rfl, rfl⟩ := hliteral
  cases hops with
  | operatorsDone _ hdone => exact ⟨rfl, eq_of_operatorDone hdone⟩
  | operatorsMore _ hmore _ =>
    -- only a suffix applies at this depth, and cutting a number does not bring one about
    have hsplit : ∀ kind, c₁.splitNegative.kind? = some kind → startsSuffix kind = false := by
      intro kind hkind
      rcases kind?_splitNegative c₁ with heq | heq
      · exact hs kind (heq ▸ hkind)
      · rw [heq] at hkind
        cases hkind
        rfl
    cases hmore with
    | infixMember hn' hk' | infixCall hn' hk' | infixSubscript hn' hk' =>
      have hsuffix := hsplit _ (kind?_of_next? hn')
      rw [hk'] at hsuffix
      cases hsuffix
    | infixTernary _ _ hdepth => exact absurd hdepth (by decide)
    | infixBinary _ ho hdepth => exact absurd (depth_le_of_ofToken? ho) (Nat.not_le.2 hdepth)

/-- A number that no suffix follows is what a prefix operator applies to. -/
theorem reads_literal (hn : c.next? = some (n, c')) (hk : n.kind = .number)
    (hs : ∀ kind, c'.kind? = some kind → startsSuffix kind = false) :
    Reads .strict (.expr 7) c (.number n.span (Number.read n.text)) c'.splitNegative := by
  have hkind : c.kind? = some .number := by rw [kind?_of_next? hn, hk]
  have hatom : atomOf? n = some (.number n.span (Number.read n.text)) := by simp only [atomOf?, hk]
  refine .exprOperators (by simp [hkind]) (by simp [hkind]) (.operandAtom hn hatom)
    (.operatorsDone (by decide) (.infixDone ?_))
  rcases kind?_splitNegative c' with heq | heq
  · rw [heq]
    cases hk' : c'.kind? with
    | none => rfl
    | some kind => exact noInfix_of_not_startsSuffix (hs kind hk')
  · rw [heq]
    decide

/-- The negation of a number that no suffix follows is the prefix operator and its operand. -/
theorem of_negatedLiteral {ts : List Token}
    (h : Reads .strict (.prefixOperator depth start) c (.more e) d) (hr : c.rest = m :: n :: ts)
    (hm : m.kind = .minus) (hk : n.kind = .number)
    (hs : ∀ u, ts.head? = some u → startsSuffix u.kind = false) :
    ∃ span span', e = .unary span .negate (.number span' (Number.read n.text)) ∧
      ∃ c₂ : Cursor, c₂.rest = ts ∧ d = c₂.splitNegative := by
  have hn := next?_of_rest hr
  cases h with
  | prefixUnary hn' _ ho he =>
    rw [hn] at hn'
    cases hn'
    rw [hm] at ho
    cases ho
    obtain ⟨rfl, rfl⟩ := of_literal he (next?_of_rest rfl) hk (forall_kind?_of_rest rfl hs)
    exact ⟨_, _, rfl, _, rfl, rfl⟩

/-- What is strictly read is read with the same result in front of alike tokens. -/
theorem Reads.keeps {r : p.Result} (h : Reads .strict p c r d) : p.Keeps fold c d r := by
  induction h with
  | exprFunction hn hk _ ih =>
    intro c' hc
    obtain ⟨t', c₁', hn', hk', -, hc₁⟩ := hc.nextOf hn hk
    obtain ⟨e', d', he, hsame, hd⟩ := ih c₁' c'.position hc₁
    exact ⟨e', d', .exprFunction hn' hk' he, hsame, hd⟩
  | exprLambda hn hk _ ih =>
    intro c' hc
    obtain ⟨t', c₁', hn', hk', -, hc₁⟩ := hc.nextOf hn hk
    obtain ⟨e', d', he, hsame, hd⟩ := ih c₁' c'.position hc₁
    exact ⟨e', d', .exprLambda hn' hk' he, hsame, hd⟩
  | @exprOperators _ c node? _ _ _ hf hl ho _ iho ihs =>
    intro c' hc
    have hf' := mt hc.kind?_eq_some_iff.1 hf
    have hl' := mt hc.kind?_eq_some_iff.1 hl
    cases node? with
    | none =>
      -- the operators begin with one in front of an operand, or the literal stands for both
      rw [eq_of_operandNone ho] at ihs
      by_cases hkind : c'.kind? = c.kind?
      · obtain ⟨e', d', he, hsame, hd⟩ := (ihs c' c'.position 0 hc (Nat.le_refl 0)).1 hkind
        exact ⟨e', d', .exprOperators hf' hl' (iho c' hkind) he, hsame, hd⟩
      · obtain ⟨t', c₁', literal, hn, ha, e', d', he, hsame, hd⟩ :=
          (ihs c' c'.position 0 hc (Nat.le_refl 0)).2 hkind
        exact ⟨e', d', .exprOperators hf' hl' (.operandAtom hn ha) he, hsame, hd⟩
    | some left =>
      -- an operand does not begin with a minus, so the cursors agree on its first token
      have hkind : c'.kind? = c.kind? := by
        by_contra hne
        obtain ⟨t, m, n, ts, ts', hr, -, -, hfuses, -⟩ := hc.exists_signed hne
        exact kind?_of_operandSome ho (by rw [kind?_of_rest hr, hfuses.minus.1])
      obtain ⟨left', c₁', ho', hleft, hc₁⟩ := iho c' hc hkind
      obtain ⟨e', d', he, hsame, hd⟩ := ihs c₁' c'.position 0 left' hc₁ (Nat.le_refl 0) hleft
      exact ⟨e', d', .exprOperators hf' hl' ho' he, hsame, hd⟩
  | operandParens hn hk _ hr ih =>
    intro c' hc _
    obtain ⟨t', c₁', hn', hk', -, hc₁⟩ := hc.nextOf hn hk
    obtain ⟨e', c₂', he, hsame, hc₂⟩ := ih c₁' hc₁
    obtain ⟨c₃', hr', hc₃⟩ := hc₂.require hr
    exact ⟨e', c₃', .operandParens hn' hk' he hr', hsame, hc₃⟩
  | operandAtom hn ha =>
    intro c' hc hkind
    obtain ⟨t', c₁', hn', ht, hc₁⟩ := hc.next hkind hn
    obtain ⟨e', ha', hsame⟩ := exists_atomOf? ht ha
    rw [endsOperand_of_startsAtom (startsAtom_of_atomOf? ha)] at hc₁
    exact ⟨e', c₁', .operandAtom hn' ha', hsame, hc₁⟩
  | operandNone hparen ha =>
    intro c' hkind
    exact .operandNone (hkind ▸ hparen) (hkind ▸ ha)
  | operatorsPrefix hl hs _ ihs ih =>
    intro c' start' rounds' hc hle
    refine ⟨fun hkind => ?_, fun hkind => ?_⟩
    · obtain ⟨e', c₁', hs', he, hc₁⟩ := ihs c' start' hc hkind
      obtain ⟨e'', d', hs'', hsame, hd⟩ :=
        ih c₁' start' (rounds' + 1) e' hc₁ (Nat.succ_le_succ hle) he
      exact ⟨e'', d', .operatorsPrefix (Nat.lt_of_le_of_lt hle hl) hs' hs'', hsame, hd⟩
    · -- the minus and the number are read as a negation, and the loop has gone round once for it
      obtain ⟨t, m, n, ts, ts', hr, hr', rfl, hf, hread, hsuffix, hts⟩ := hc.exists_signed hkind
      obtain ⟨span, span', rfl, c₂, hr₂, rfl⟩ :=
        of_negatedLiteral hs hr hf.minus.1 hf.number hsuffix
      have hc₁ : Parallel true true c₂ (c'.pass t ts') := by
        rw [Parallel, hr₂]
        exact hts
      have hsame : (Expr.number t.span (Number.read t.text)).reduced true =
          (Expr.unary span .negate (.number span' (Number.read n.text))).reduced true := by
        simp only [Expr.reduced, Expr.reducedUnary, hread]
      have hatom : atomOf? t = some (.number t.span (Number.read t.text)) := by
        simp only [atomOf?, hf.kind]
      exact ⟨t, _, _, next?_of_rest hr', hatom,
        ih _ start' rounds' _ hc₁.splitNegative_left (Nat.le_succ_of_le hle) hsame⟩
  | operatorsMissing _ _ hm => cases hm
  | operatorsMore hl _ _ ihs ih =>
    intro c' start' rounds' left' hc hle hleft
    -- both cursors stand behind an operand, so a negative number is cut at either
    obtain ⟨hsplit, hkind⟩ := hc.splitNegative
    obtain ⟨e', c₁', hs', he, hc₁⟩ := ihs _ left' hsplit hkind hleft
    obtain ⟨e'', d', hs'', hsame, hd⟩ :=
      ih c₁' start' (rounds' + 1) e' hc₁ (Nat.succ_le_succ hle) he
    exact ⟨e'', d', .operatorsMore (Nat.lt_of_le_of_lt hle hl) hs' hs'', hsame, hd⟩
  | operatorsDone hl hs ihs =>
    intro c' start' rounds' left' hc hle hleft
    obtain ⟨hsplit, hkind⟩ := hc.splitNegative
    obtain rfl := eq_of_operatorDone hs
    exact ⟨left', _, .operatorsDone (Nat.lt_of_le_of_lt hle hl) (ihs _ left' hkind), hleft, hsplit⟩
  | prefixDone hk =>
    intro c' start' hkind
    exact .prefixDone (hkind ▸ hk)
  | prefixUnary hn hd ho _ ih =>
    intro c' start' hc hkind
    obtain ⟨t', c₁', hn', ht, hc₁⟩ := hc.next hkind hn
    rw [endsOperand_of_unary ho] at hc₁
    obtain ⟨e', d', he, hsame, hd'⟩ := ih c₁' hc₁
    exact ⟨_, d', .prefixUnary hn' hd (ht.kind ▸ ho) he, by simp only [Expr.reduced, hsame], hd'⟩
  | infixDone hk =>
    intro c' left' hkind
    exact .infixDone (hkind ▸ hk)
  | infixMember hn hk hd _ ih =>
    intro c' left' hc _ hleft
    obtain ⟨t', c₁', hn', hk', -, hc₁⟩ := hc.nextOf hn hk
    obtain ⟨e', d', he, hsame, hd'⟩ := ih c₁' hc₁
    exact ⟨_, d', .infixMember hn' hk' hd he,
      by simp only [Expr.join, Expr.reduced, hleft, hsame], hd'⟩
  | infixCall hn hk hd _ ih =>
    intro c' left' hc _ hleft
    obtain ⟨t', c₁', hn', hk', -, hc₁⟩ := hc.nextOf hn hk
    obtain ⟨e', d', he, hsame, hd'⟩ := ih c₁' hc₁
    exact ⟨_, d', .infixCall hn' hk' hd he,
      by simp only [Expr.join, Expr.reduced, hleft, hsame], hd'⟩
  | infixSubscript hn hk hd _ hr ih =>
    intro c' left' hc _ hleft
    obtain ⟨t', c₁', hn', hk', -, hc₁⟩ := hc.nextOf hn hk
    obtain ⟨e', c₂', he, hsame, hc₂⟩ := ih c₁' hc₁
    obtain ⟨c₃', hr', hc₃⟩ := hc₂.require hr
    exact ⟨_, c₃', .infixSubscript hn' hk' hd he hr',
      by simp only [Expr.join, Expr.reduced, hleft, hsame], hc₃⟩
  | infixTernary hn hk hd _ hr _ ihe ih =>
    intro c' left' hc _ hleft
    obtain ⟨t', c₁', hn', hk', -, hc₁⟩ := hc.nextOf hn hk
    obtain ⟨e', c₂', he, hsame, hc₂⟩ := ihe c₁' hc₁
    obtain ⟨c₃', hr', hc₃⟩ := hc₂.require hr
    obtain ⟨e'', d', he', hsame', hd'⟩ := ih c₃' hc₃
    exact ⟨_, d', .infixTernary hn' hk' hd he hr' he',
      by simp only [Expr.reduced, hleft, hsame, hsame'], hd'⟩
  | infixBinary hn ho hd _ ih =>
    intro c' left' hc hkind hleft
    obtain ⟨t', c₁', hn', ht, hc₁⟩ := hc.next hkind hn
    rw [endsOperand_of_binary ho] at hc₁
    obtain ⟨e', d', he, hsame, hd'⟩ := ih c₁' hc₁
    exact ⟨_, d', .infixBinary hn' (ht.kind ▸ ho) hd he,
      by simp only [Expr.join, Expr.reduced, hleft, hsame], hd'⟩
  | argumentsNone hn hk =>
    intro c' hc
    obtain ⟨t', c₁', hn', hk', -, hc₁⟩ := hc.nextOf hn hk
    exact ⟨_, c₁', .argumentsNone hn' hk', by simp [Expr.reduced, Span.emptiness], hc₁⟩
  | argumentsSome hk _ hr ih =>
    intro c' hc
    obtain ⟨e', c₁', he, hsame, hc₁⟩ := ih c' hc
    obtain ⟨c₂', hr', hc₂⟩ := hc₁.require hr
    exact ⟨e', c₂', .argumentsSome (mt hc.kind?_eq_some_iff.1 hk) he hr', hsame, hc₂⟩
  -- functions
  | functionMissing hm =>
    intro c' start' hc
    obtain ⟨t, -, -, ⟨⟩, -⟩ := hc.expect hm
  | functionBare hm hn hk _ ih =>
    intro c' start' hc
    obtain ⟨-, p', c₁', -, hm', -, hc₁⟩ := hc.expect hm
    obtain ⟨t', c₂', hn', hk', -, hc₂⟩ := hc₁.nextOf hn hk
    obtain ⟨s', d', hs, hsame, hd⟩ := ih _ c₂' hc₂
    exact ⟨_, d', .functionBare hm' hn' hk' hs, by simp only [Expr.reduced, hsame], hd⟩
  | functionParams hm hk _ _ ihs ih =>
    intro c' start' hc
    obtain ⟨-, p', c₁', -, hm', -, hc₁⟩ := hc.expect hm
    obtain ⟨c₂', hs', hc₂⟩ := ihs rfl _ c₁' hc₁
    obtain ⟨s', d', hs, hsame, hd⟩ := ih _ c₂' hc₂
    exact ⟨_, d', .functionParams hm' (mt hc₁.kind?_eq_some_iff.1 hk) hs' hs,
      by simp only [Expr.reduced, hsame], hd⟩
  | lambda _ _ ihs ih =>
    intro c' start' hc
    obtain ⟨c₁', hs', hc₁⟩ := ihs rfl _ c' hc
    obtain ⟨e', d', he, hsame, hd⟩ := ih c₁' hc₁
    exact ⟨_, d', .lambda hs' he, by simp only [Expr.reduced, hsame], hd⟩
  | paramsNone _ hm =>
    intro _ operand c' hc
    obtain ⟨t, -, -, ⟨⟩, -⟩ := hc.expect hm
  | paramsLast hl hm hn hk =>
    intro hclosing operand c' hc
    obtain ⟨name, name', c₁', ⟨⟩, hm', htext, hc₁⟩ := hc.expect hm
    obtain ⟨t', c₂', hn', hk', -, hc₂⟩ := hc₁.nextOf hn hk hclosing
    exact ⟨c₂', htext ▸ .paramsLast hl hm' hn' hk', hc₂⟩
  | paramsCut _ hm _ hq =>
    intro _ operand c' hc
    obtain ⟨-, -, c₁', -, -, -, hc₁⟩ := hc.expect hm
    obtain ⟨t, -, -, ⟨⟩, -⟩ := hc₁.expect hq
  | paramsMore hl hm hk hq _ ih =>
    intro hclosing operand c' hc
    obtain ⟨name, name', c₁', ⟨⟩, hm', htext, hc₁⟩ := hc.expect hm
    obtain ⟨-, comma', c₂', -, hq', -, hc₂⟩ := hc₁.expect hq
    obtain ⟨d', hs', hd⟩ := ih hclosing _ c₂' hc₂
    have hk' := mt (hc₁.kind?_eq_some_iff hclosing).1 hk
    exact ⟨d', htext ▸ .paramsMore hl hm' hk' hq' hs', hd⟩
  -- statements
  | statementsDone hk =>
    intro operand c' hc
    have hk' := hk.imp hc.kind?_eq_none_iff.2 hc.kind?_eq_some_iff.2
    exact ⟨operand, [], c', .statementsDone hk', rfl, hc⟩
  | statementsMore hk hne hl _ _ ihs ih =>
    intro operand c' hc
    obtain ⟨kind', hk'⟩ := Option.ne_none_iff_exists'.1
      (mt hc.kind?_eq_none_iff.1 (by simp [hk]))
    have hne' : kind' ≠ .rightBrace := fun heq => hne <| by
      rw [heq, hc.kind?_eq_some_iff, hk] at hk'
      exact Option.some.inj hk'
    obtain ⟨operand₁, s', c₁', hs, hsame, hc₁⟩ := ihs operand c' hc
    obtain ⟨operand₂, ss', d', hss, hsame', hd⟩ := ih operand₁ c₁' hc₁
    exact ⟨operand₂, _, d', .statementsMore hk' hne' hl hs hss,
      by simp only [Statement.listReduced, hsame, hsame'], hd⟩
  | statementBlock hk _ ih =>
    intro operand c' hc
    obtain ⟨s', d', hs, hsame, hd⟩ := ih operand c' hc
    exact ⟨true, s', d', .statementBlock (hc.kind?_eq_some_iff.2 hk) hs, hsame, hd⟩
  | statementReturn hn hk hn₁ hk₁ =>
    intro operand c' hc
    obtain ⟨t', c₁', hn', hk', -, hc₁⟩ := hc.nextOf hn hk
    obtain ⟨t₁', c₂', hn₁', hk₁', -, hc₂⟩ := hc₁.nextOf hn₁ hk₁
    exact ⟨_, _, c₂', .statementReturn hn' hk' hn₁' hk₁', rfl, hc₂⟩
  | statementReturnValue hn hk hne _ hr ih =>
    intro operand c' hc
    obtain ⟨t', c₁', hn', hk', -, hc₁⟩ := hc.nextOf hn hk
    obtain ⟨e', c₂', he, hsame, hc₂⟩ := ih c₁' hc₁
    obtain ⟨c₃', hr', hc₃⟩ := hc₂.require hr
    have hne' := mt hc₁.kind?_eq_some_iff.1 hne
    exact ⟨_, _, c₃', .statementReturnValue hn' hk' hne' he hr',
      by simp only [Statement.reduced, Expr.optionReduced, hsame], hc₃⟩
  | statementBreak hn hk hr =>
    intro operand c' hc
    obtain ⟨t', c₁', hn', hk', -, hc₁⟩ := hc.nextOf hn hk
    obtain ⟨c₂', hr', hc₂⟩ := hc₁.require hr
    exact ⟨_, _, c₂', .statementBreak hn' hk' hr', rfl, hc₂⟩
  | statementContinue hn hk hr =>
    intro operand c' hc
    obtain ⟨t', c₁', hn', hk', -, hc₁⟩ := hc.nextOf hn hk
    obtain ⟨c₂', hr', hc₂⟩ := hc₁.require hr
    exact ⟨_, _, c₂', .statementContinue hn' hk' hr', rfl, hc₂⟩
  | statementIf hn hk hq _ hr _ hne ihe ihs =>
    intro operand c' hc
    obtain ⟨t', c₁', hn', hk', -, hc₁⟩ := hc.nextOf hn hk
    obtain ⟨c₂', hq', hc₂⟩ := hc₁.require hq
    obtain ⟨e', c₃', he, hsame, hc₃⟩ := ihe c₂' hc₂
    obtain ⟨c₄', hr', hc₄⟩ := hc₃.require hr
    obtain ⟨operand', s', d', hs, hsame', hd⟩ := ihs _ c₄' hc₄
    have hne' := mt hd.kind?_eq_some_iff.1 hne
    exact ⟨operand', _, d', .statementIf hn' hk' hq' he hr' hs hne',
      by simp only [Statement.reduced, Statement.optionReduced, hsame, hsame'], hd⟩
  | statementIfElse hn hk hq _ hr _ hn₁ hk₁ _ ihe ihs ihs₁ =>
    intro operand c' hc
    obtain ⟨t', c₁', hn', hk', -, hc₁⟩ := hc.nextOf hn hk
    obtain ⟨c₂', hq', hc₂⟩ := hc₁.require hq
    obtain ⟨e', c₃', he, hsame, hc₃⟩ := ihe c₂' hc₂
    obtain ⟨c₄', hr', hc₄⟩ := hc₃.require hr
    obtain ⟨operand', s', c₅', hs, hsame', hc₅⟩ := ihs _ c₄' hc₄
    obtain ⟨t₁', c₆', hn₁', hk₁', -, hc₆⟩ := hc₅.nextOf hn₁ hk₁
    obtain ⟨operand₁, s₁', d', hs₁, hsame₁, hd⟩ := ihs₁ _ c₆' hc₆
    exact ⟨operand₁, _, d', .statementIfElse hn' hk' hq' he hr' hs hn₁' hk₁' hs₁,
      by simp only [Statement.reduced, Statement.optionReduced, hsame, hsame', hsame₁], hd⟩
  | statementFor hn hk _ ih =>
    intro operand c' hc
    obtain ⟨t', c₁', hn', hk', -, hc₁⟩ := hc.nextOf hn hk
    obtain ⟨operand', s', d', hs, hsame, hd⟩ := ih _ c₁' c'.position hc₁
    exact ⟨operand', s', d', .statementFor hn' hk' hs, hsame, hd⟩
  | statementWhile hn hk hq _ hr _ ihe ihs =>
    intro operand c' hc
    obtain ⟨t', c₁', hn', hk', -, hc₁⟩ := hc.nextOf hn hk
    obtain ⟨c₂', hq', hc₂⟩ := hc₁.require hq
    obtain ⟨e', c₃', he, hsame, hc₃⟩ := ihe c₂' hc₂
    obtain ⟨c₄', hr', hc₄⟩ := hc₃.require hr
    obtain ⟨operand', s', d', hs, hsame', hd⟩ := ihs _ c₄' hc₄
    exact ⟨operand', _, d', .statementWhile hn' hk' hq' he hr' hs,
      by simp only [Statement.reduced, hsame, hsame'], hd⟩
  | statementEmpty hn hk =>
    intro operand c' hc
    obtain ⟨t', c₁', hn', hk', -, hc₁⟩ := hc.nextOf hn hk
    exact ⟨_, _, c₁', .statementEmpty hn' hk', rfl, hc₁⟩
  | statementSimple hk _ ih =>
    intro operand c' hc
    obtain ⟨operand', s', d', hs, hsame, hd⟩ := ih operand c' hc
    have hk' := hc.forall_kind? startsStatement_of_isSign hk
    exact ⟨operand', s', d', .statementSimple hk' hs, hsame, hd⟩
  | simple _ hr ih =>
    intro operand c' hc
    obtain ⟨s', c₁', hs, hsame, hc₁⟩ := ih operand c' hc
    obtain ⟨c₂', hr', hc₂⟩ := hc₁.require hr
    exact ⟨_, s', c₂', .simple hs hr', hsame, hc₂⟩
  | forLoop hr _ _ _ _ ihi ihe ihs ih =>
    intro operand c' start' hc
    obtain ⟨c₁', hr', hc₁⟩ := hc.require hr
    obtain ⟨i', c₂', hi, hsamei, hc₂⟩ := ihi _ c₁' hc₁
    obtain ⟨operand₁, e', c₃', he, hsamee, hc₃⟩ := ihe c₂' hc₂
    obtain ⟨operand₂, s', c₄', hs, hsames, hc₄⟩ := ihs _ c₃' hc₃
    obtain ⟨operand₃, b', d', hb, hsameb, hd⟩ := ih _ c₄' hc₄
    exact ⟨operand₃, _, d', .forLoop hr' hi he hs hb,
      by simp only [Statement.reduced, hsamei, hsamee, hsames, hsameb], hd⟩
  | initializerNone hn hk =>
    intro operand c' hc
    obtain ⟨t', c₁', hn', hk', -, hc₁⟩ := hc.nextOf hn hk
    exact ⟨none, c₁', .initializerNone hn' hk', rfl, hc₁⟩
  | initializerSome hk _ hr ih =>
    intro operand c' hc
    obtain ⟨s', c₁', hs, hsame, hc₁⟩ := ih operand c' hc
    obtain ⟨c₂', hr', hc₂⟩ := hc₁.require hr
    exact ⟨some s', c₂', .initializerSome (mt hc.kind?_eq_some_iff.1 hk) hs hr',
      by simp only [Statement.optionReduced, hsame], hc₂⟩
  | conditionNone hn hk =>
    intro c' hc
    obtain ⟨t', c₁', hn', hk', -, hc₁⟩ := hc.nextOf hn hk
    exact ⟨_, none, c₁', .conditionNone hn' hk', rfl, hc₁⟩
  | conditionSome hk _ hr ih =>
    intro c' hc
    obtain ⟨e', c₁', he, hsame, hc₁⟩ := ih c' hc
    obtain ⟨c₂', hr', hc₂⟩ := hc₁.require hr
    exact ⟨_, some e', c₂', .conditionSome (mt hc.kind?_eq_some_iff.1 hk) he hr',
      by simp only [Expr.optionReduced, hsame], hc₂⟩
  | iteratorNone hn hk =>
    intro operand c' hc
    obtain ⟨t', c₁', hn', hk', -, hc₁⟩ := hc.nextOf hn hk
    exact ⟨_, none, c₁', .iteratorNone hn' hk', rfl, hc₁⟩
  | iteratorSome hk _ hr ih =>
    intro operand c' hc
    obtain ⟨s', c₁', hs, hsame, hc₁⟩ := ih operand c' hc
    obtain ⟨c₂', hr', hc₂⟩ := hc₁.require hr
    exact ⟨_, some s', c₂', .iteratorSome (mt hc.kind?_eq_some_iff.1 hk) hs hr',
      by simp only [Statement.optionReduced, hsame], hc₂⟩
  | block hq _ hr ih =>
    intro operand c' hc
    obtain ⟨c₁', hq', hc₁⟩ := hc.require hq
    obtain ⟨operand', ss', c₂', hs, hsame, hc₂⟩ := ih _ c₁' hc₁
    obtain ⟨c₃', hr', hc₃⟩ := hc₂.require hr
    exact ⟨_, c₃', .block hq' hs hr', by simp only [Statement.reduced, hsame], hc₃⟩
  | declarationAssignment hk _ ih =>
    intro operand c' hc
    obtain ⟨s', d', hs, hsame, hd⟩ := ih operand c' hc
    exact ⟨s', d', .declarationAssignment (mt hc.kind?_eq_some_iff.1 hk) hs, hsame, hd⟩
  | declarationBare hn hk hm hend =>
    intro operand c' hc
    obtain ⟨t', c₁', hn', hk', -, hc₁⟩ := hc.nextOf hn hk
    obtain ⟨name, name', c₂', rfl, hm', htext, hc₂⟩ := hc₁.expect hm
    have hend' := hend.imp hc₂.kind?_eq_none_iff.2 hc₂.kind?_eq_some_iff.2
    refine ⟨_, c₂', .declarationBare hn' hk' hm' hend', ?_, hc₂⟩
    simp only [Statement.reduced, Option.map_some, Option.getD_some, htext]
  | declarationValue hn hk hm hend hr _ ih =>
    intro operand c' hc
    obtain ⟨t', c₁', hn', hk', -, hc₁⟩ := hc.nextOf hn hk
    obtain ⟨name, name', c₂', rfl, hm', htext, hc₂⟩ := hc₁.expect hm
    obtain ⟨c₃', hr', hc₃⟩ := hc₂.require hr
    obtain ⟨e', d', he, hsame, hd⟩ := ih c₃' hc₃
    have hend' := mt (Or.imp hc₂.kind?_eq_none_iff.1 hc₂.kind?_eq_some_iff.1) hend
    refine ⟨_, d', .declarationValue hn' hk' hm' hend' hr' he, ?_, hd⟩
    simp only [Statement.reduced, Expr.optionReduced, Option.map_some, Option.getD_some, htext,
      hsame]
  | assignmentCall hn hk _ ih =>
    intro operand c' hc
    obtain ⟨t', c₁', hn', hk', htext, hc₁⟩ := hc.nextOf hn hk
    obtain ⟨e', d', hs, hsame, hd⟩ := ih c₁' (.name t'.span t'.text) hc₁ (by rw [htext]; rfl)
    exact ⟨_, d', .assignmentCall hn' hk' hs,
      by simp only [Statement.ofExpr, Statement.reduced, hsame], hd⟩
  | assignmentValue hn hk _ hn₁ ho _ ihs ih =>
    intro operand c' hc
    obtain ⟨t', c₁', hn', hk', htext, hc₁⟩ := hc.nextOf hn hk
    obtain ⟨e', c₂', hs, hsame, hc₂⟩ := ihs c₁' (.name t'.span t'.text) hc₁ (by rw [htext]; rfl)
    obtain ⟨hends, hsign⟩ := endsOperand_of_assign ho
    obtain ⟨t₁', c₃', hn₁', hk₁', -, hc₃⟩ := hc₂.nextOf hn₁ rfl hsign
    rw [hends] at hc₃
    obtain ⟨e₁', d', he, hsame₁, hd⟩ := ih c₃' hc₃
    exact ⟨_, d', .assignmentValue hn' hk' hs hn₁' (hk₁' ▸ ho) he,
      by simp only [Statement.reduced, hsame, hsame₁], hd⟩
  | assignmentMissing _ _ _ _ hm => cases hm
  | suffixesDone hl hk =>
    intro c' node' hc hnode
    exact ⟨node', c', .suffixesDone hl (hc.forall_kind? startsSuffix_of_isSign hk), hnode, hc⟩
  | suffixesMember hl hn hk _ _ ihe ih =>
    intro c' node' hc hnode
    obtain ⟨t', c₁', hn', hk', -, hc₁⟩ := hc.nextOf hn hk
    obtain ⟨e', c₂', he, hsame, hc₂⟩ := ihe c₁' hc₁
    obtain ⟨r', d', hr, hsame', hd⟩ := ih c₂' (.join .member node' e') hc₂
      (by simp only [Expr.join, Expr.reduced, hnode, hsame])
    exact ⟨r', d', .suffixesMember hl hn' hk' he hr, hsame', hd⟩
  | suffixesCall hl hn hk _ _ ihe ih =>
    intro c' node' hc hnode
    obtain ⟨t', c₁', hn', hk', -, hc₁⟩ := hc.nextOf hn hk
    obtain ⟨e', c₂', he, hsame, hc₂⟩ := ihe c₁' hc₁
    obtain ⟨r', d', hr, hsame', hd⟩ := ih c₂' (.join .call node' e') hc₂
      (by simp only [Expr.join, Expr.reduced, hnode, hsame])
    exact ⟨r', d', .suffixesCall hl hn' hk' he hr, hsame', hd⟩
  | suffixesSubscript hl hn hk _ hq _ ihe ih =>
    intro c' node' hc hnode
    obtain ⟨t', c₁', hn', hk', -, hc₁⟩ := hc.nextOf hn hk
    obtain ⟨e', c₂', he, hsame, hc₂⟩ := ihe c₁' hc₁
    obtain ⟨c₃', hq', hc₃⟩ := hc₂.require hq
    obtain ⟨r', d', hr, hsame', hd⟩ := ih c₃' (.join .subscript node' e') hc₃
      (by simp only [Expr.join, Expr.reduced, hnode, hsame])
    exact ⟨r', d', .suffixesSubscript hl hn' hk' he hq' hr, hsame', hd⟩

end Parse

end SearchScript
