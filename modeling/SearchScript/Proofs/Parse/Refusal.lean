import SearchScript.Proofs.Parse.Beginning
import SearchScript.Proofs.Parse.Nesting
import SearchScript.Proofs.Parse.Size

/-!
# Where the strict mode stops

An error of the strict mode lies at the first token that no program goes on with: what was read in
front of it is the beginning of some program.

## Key definitions

- `Code.read`: reads tokens as an expression or as a script

## Key results

- `Parse.refused`: what every function of the grammar has read when it fails
- `Code.completable_of_parse_eq_error`: the tokens in front of an error can be completed
-/

namespace SearchScript

namespace Parse

open Cursor Token

variable {fuel : Nat} {p : Phrase} {c d c₁ : Cursor} {e : ParseError} {t : Token}
  {kind : TokenKind}

/-! ## The functions of the grammar -/

/-- Whatever fails with this fuel fails behind the beginning of a phrase. -/
def Refused (fuel : Nat) : Prop :=
  ∀ (p : Phrase) (c : Cursor) (e : ParseError),
    p.Fits fuel c → p.read (some loopLimit) .strict fuel c = .error e → p.Refuses c e

/-- Whether a condition in parentheses and a statement can be read between two cursors. -/
def Headed (c d : Cursor) : Prop :=
  ∃ c₁ x c₂ c₃ s, c.require .strict .leftParen = .ok c₁ ∧ Reads .strict (.expr 0) c₁ x c₂ ∧
    c₂.require .strict .rightParen = .ok c₃ ∧ Reads .strict .statement c₃ s d

section

variable (ih : Refused fuel)
include ih

private theorem refuses_expr {depth : Nat} (hf : (Phrase.expr depth).Fits (fuel + 1) c)
    (h : Parse.expr (some loopLimit) .strict (fuel + 1) depth c = .error e) :
    (Phrase.expr depth).Opens c e := by
  simp only [Parse.expr] at h
  split at h
  -- a function: what fails is its tail
  · next t c₁ ha =>
    obtain ⟨hn, hk⟩ := accept?_eq_some_iff.1 ha
    obtain ⟨_, -, hb⟩ := ih (.functionTail _) _ _
      (hf.of_lt (weight_lt_of_next? hn) (Nat.zero_le _) trivial) h
    have hb := hb.next hn (.inl (by simp [hk]))
    refine ⟨default, trivial, (hb.inside.weaken fun _ _ => trivial).mono ?_⟩
    rintro c' d' ⟨c₁', hn', hread⟩
    obtain ⟨e, he⟩ := hread c'.position
    exact ⟨e, .exprFunction hn' hk he⟩
  · next hfun =>
    have hfun := accept?_eq_none_iff.1 hfun
    split at h
    -- a lambda: what fails is its tail
    · next t c₁ ha =>
      obtain ⟨hn, hk⟩ := accept?_eq_some_iff.1 ha
      obtain ⟨_, -, hb⟩ := ih (.lambdaTail _) _ _
        (hf.of_lt (weight_lt_of_next? hn) (Nat.zero_le _) trivial) h
      refine ⟨default, trivial, (hb.next hn (.inl (by simp [hk]))).inside.mono ?_⟩
      rintro c' d' ⟨c₁', hn', hread⟩
      obtain ⟨e, he⟩ := hread c'.position
      exact ⟨e, .exprLambda hn' hk he⟩
    · next hlam =>
      have hlam := accept?_eq_none_iff.1 hlam
      rcases Except.bind_eq_error_iff.1 h with h | ⟨⟨node?, c₁⟩, ho, h⟩
      -- the operand fails; once completed, it is an expression without operators
      · obtain ⟨e?, hgrown, hb⟩ := ih .operand _ _
          (hf.of_le (Nat.le_refl _) (by simp [Phrase.rank]) (Nat.zero_le _) trivial) h
        refine ⟨default, trivial, hb.keep.close [] (fun _ h => h) ?_⟩
        rintro c' d' new ⟨hk, hread⟩ hnew hd'
        have hfun' := kind?_ne_of_keep hk hfun (by decide)
        have hlam' := kind?_ne_of_keep hk hlam (by decide)
        cases e? with
        | none => cases hgrown
        | some _ =>
          obtain ⟨left, hleft⟩ := hread
          have hend : endsOperators d'.kind? = true := by
            rw [kind?_of_nil_append hd']
            exact hnew
          exact ⟨d', ⟨left, .exprOperators hfun' hlam' hleft
            (reads_operators_end (by decide) hend)⟩, hd'⟩
      · have hreads := reads_of_read _ .operand _ _ _ ho
        cases node? with
        -- what fails lies behind the operand
        | some left =>
          have hw := hreads.weight_lt_of_strict rfl
          obtain ⟨_, -, hb⟩ := ih (.operators ..) _ _ (hf.of_lt hw (Nat.zero_le _) trivial) h
          refine ⟨default, trivial, (hb.behind hreads trivial).inside.keep.mono ?_⟩
          rintro c' d' ⟨hk, c₁', ⟨left', hleft⟩, hread⟩
          have hfun' := kind?_ne_of_keep hk hfun (by simp [Phrase.opening])
          have hlam' := kind?_ne_of_keep hk hlam (by simp [Phrase.opening])
          obtain ⟨e', he'⟩ := hread c'.position left'
          exact ⟨e', .exprOperators hfun' hlam' hleft he'⟩
        | none =>
          cases hreads with
          | operandNone hparen hatom =>
          rcases ih (.operators ..) _ _
              (hf.of_le (Nat.le_refl _) (by simp [Phrase.rank]) (Nat.zero_le _) trivial) h with
            ⟨_, -, hb⟩ | hl
          · -- the error lies behind an operator in front of an operand
            refine ⟨default, trivial, (hb.keep.imp fun hfalse => hfalse.elim).mono ?_⟩
            rintro c' d' ⟨hk | ⟨⟨⟩, -⟩, hread⟩
            obtain ⟨e', he'⟩ := hread c'.position
            exact ⟨e', .exprOperators (hk ▸ hfun) (hk ▸ hlam)
              (.operandNone (hk ▸ hparen) (hk ▸ hatom)) he'⟩
          -- where no operand begins, a name completes the expression
          · have hnumber : c.kind? ≠ some .number := by
              intro hk
              cases hatom _ hk
            refine ⟨default, trivial, .now (plain .identifier) [] hl hnumber ?_⟩
            intro new hnew c' hc'
            obtain ⟨e', d', he', hd'⟩ := reads_name hc' hnew
            exact ⟨d', ⟨e', he'⟩, hd'⟩


private theorem refuses_operand (hf : Phrase.operand.Fits (fuel + 1) c)
    (h : Parse.operand (some loopLimit) .strict (fuel + 1) c = .error e) :
    Phrase.operand.Opens c e := by
  simp only [Parse.operand] at h
  split at h
  -- an expression in parentheses
  · next t c₁ ha =>
    obtain ⟨hn, hk⟩ := accept?_eq_some_iff.1 ha
    rcases Except.bind_eq_error_iff.1 h with h | ⟨⟨inner, c₂⟩, he, h⟩
    · obtain ⟨_, -, hb⟩ := ih (.expr 1) _ _
        (hf.of_lt (weight_lt_of_next? hn) (Nat.zero_le _) trivial) h
      refine ⟨some default, rfl, (hb.next hn (.inl (by simp [hk]))).inside.close [plain .rightParen]
        (fun _ _ => rfl) ?_⟩
      rintro c' d' new ⟨c₁', hn', e', he'⟩ - hd'
      exact ⟨_, ⟨e', .operandParens hn' hk he' (require_of_rest hd' rfl)⟩, rfl⟩
    -- the closing parenthesis is missing
    · have hreads := reads_of_read _ (.expr 1) _ _ _ he
      rcases Except.bind_eq_error_iff.1 h with h | ⟨c₃, -, ⟨⟩⟩
      have hb := (breaks_of_require h).beyond hreads trivial (hreads.weight_lt_of_strict rfl)
        fun new hk => by simp only [Phrase.stops, hk, endsOperators]
      have hb := hb.next hn (.inl (by simp [hk]))
      refine ⟨some default, rfl, (hb.inside.weaken fun _ _ => trivial).mono ?_⟩
      rintro c' d' ⟨c₁', hn', c₂', ⟨e', he'⟩, hr'⟩
      exact ⟨e', .operandParens hn' hk he' hr'⟩
  · rcases Except.bind_eq_error_iff.1 h with h | ⟨a?, -, h⟩
    · -- the only token that looks like an operand and is none is a string that cannot be decoded
      unfold atom? at h
      split at h
      · cases h
      · next t rest hr =>
        have hk : t.kind = .string ∧ e.span = t.span := by
          split at h
          case h_8 => split at h <;> cases h; exact ⟨‹_›, rfl⟩
          all_goals cases h
        have hnumber : c.kind? ≠ some .number := by
          rw [kind?_of_rest hr, hk.1]
          decide
        refine ⟨some default, rfl, .now (plain .identifier) [] ?_ hnumber ?_⟩
        · rw [hr]
          exact ⟨by rw [hk.2]; rfl, .inr ⟨t, rfl, by simp [hk.1], hk.2⟩⟩
        · intro new _ c' hc'
          exact ⟨_, ⟨_, .operandAtom (next?_of_rest hc') rfl⟩, rfl⟩
    · split at h <;> cases h

private theorem refuses_operators {depth start rounds : Nat} {left : Option Expr}
    (hf : (Phrase.operators depth start rounds left).Fits (fuel + 1) c)
    (h : Parse.operators (some loopLimit) .strict (fuel + 1) depth start rounds left c = .error e) :
    (Phrase.operators depth start rounds left).Refuses c e := by
  have hl : rounds < loopLimit := Nat.lt_of_le_of_lt (Nat.le_add_right _ _) hf.rounds_lt
  cases left with
  | none =>
    simp only [Parse.operators, tick_of_lt hl, Except.ok_bind] at h
    rcases Except.bind_eq_error_iff.1 h with h | ⟨⟨step, c₁⟩, hs, h⟩
    -- the prefix operator fails
    · rcases ih (.prefixOperator ..) _ _
          (hf.of_le (Nat.le_refl _) (by simp [Phrase.rank]) (Nat.zero_le _) trivial) h with
        ⟨step, hgrown, hb⟩ | hstall
      · have hl₁ : rounds + 1 < loopLimit :=
          Nat.lt_of_le_of_lt (Nat.add_le_add_left hb.weight_pos _) hf.rounds_lt
        refine .inl ⟨default, trivial, hb.close [] (fun _ h => h) ?_⟩
        rintro c' d' new hread hnew hd'
        cases step with
        | done => exact absurd rfl hgrown
        | more _ =>
          have hend : endsOperators d'.kind? = true := by rwa [kind?_of_nil_append hd']
          refine ⟨d', fun start => ?_, hd'⟩
          obtain ⟨e', he'⟩ := hread start
          exact ⟨e', .operatorsPrefix hl he' (reads_operators_end hl₁ hend)⟩
      · exact .inr hstall
    -- what fails lies behind the prefix operator
    · have hreads := reads_of_read _ (.prefixOperator depth start) _ _ _ hs
      cases step with
      | done =>
        cases hreads with
        | prefixDone =>
          cases h
          exact .inr (liesAt_empty rfl)
      | more e₁ =>
        have hw := hreads.weight.2 rfl
        obtain ⟨_, -, hb⟩ := ih (.operators ..) _ _ (hf.of_lt hw (Nat.le_refl _) trivial) h
        refine .inl ⟨default, trivial, (hb.behind hreads trivial).mono ?_⟩
        rintro c' d' ⟨c₁', hs', hread⟩ start
        obtain ⟨e', he'⟩ := hs' start
        obtain ⟨e'', he''⟩ := hread start e'
        exact ⟨e'', .operatorsPrefix hl he' he''⟩
  | some left =>
    -- the operators start behind a negative number that is cut
    have hcut : Rereads (fun new => endsOperators (firstKind? new) = true) c c.splitNegative
        fun c' d' => d' = c'.splitNegative :=
      Rereads.done.splitNegative fun new => number_ne_of_ends
    simp only [Parse.operators, tick_of_lt hl, Except.ok_bind] at h
    rcases Except.bind_eq_error_iff.1 h with h | ⟨⟨step, c₁⟩, hs, h⟩
    -- the next operator fails
    · obtain ⟨step, hgrown, hb⟩ := ih (.operator ..) _ _
        (hf.of_le (Nat.le_of_eq (weight_splitNegative c)) (by simp [Phrase.rank]) (Nat.zero_le _)
          trivial) h
      have hl₁ : rounds + 1 < loopLimit := by
        have hpos := hb.weight_pos
        rw [weight_splitNegative] at hpos
        exact Nat.lt_of_le_of_lt (Nat.add_le_add_left hpos _) hf.rounds_lt
      refine ⟨default, trivial, (hb.after hcut (stop_splitNegative c) (fun _ => False.elim)
        fun _ => False.elim).close [] (fun _ h => h) ?_⟩
      rintro c' d' new ⟨_, rfl, hread⟩ hnew hd'
      cases step with
      | done => exact absurd rfl hgrown
      | more _ =>
        have hend : endsOperators d'.kind? = true := by rwa [kind?_of_nil_append hd']
        refine ⟨d', fun start left => ?_, hd'⟩
        obtain ⟨e', he'⟩ := hread left
        exact ⟨e', .operatorsMore hl he' (reads_operators_end hl₁ hend)⟩
    -- what fails lies behind the next operator
    · have hreads := reads_of_read _ (.operator depth left) _ _ _ hs
      cases step with
      | done => cases h
      | more e₁ =>
        have hw := hreads.weight.2 rfl
        rw [weight_splitNegative] at hw
        obtain ⟨_, -, hb⟩ := ih (.operators ..) _ _ (hf.of_lt hw (Nat.le_refl _) trivial) h
        refine ⟨default, trivial, ((hb.behind hreads trivial).after hcut (stop_splitNegative c)
          (fun _ => False.elim) fun _ => False.elim).mono ?_⟩
        rintro c' d' ⟨_, rfl, c₁', hs', hread⟩ start left
        obtain ⟨e', he'⟩ := hs' left
        obtain ⟨e'', he''⟩ := hread start e'
        exact ⟨e'', .operatorsMore hl he' he''⟩

private theorem refuses_prefixOperator {depth start : Nat}
    (hf : (Phrase.prefixOperator depth start).Fits (fuel + 1) c)
    (h : Parse.prefixOperator (some loopLimit) .strict (fuel + 1) depth start c = .error e) :
    (Phrase.prefixOperator depth start).Refuses c e := by
  simp only [Parse.prefixOperator] at h
  split at h
  · cases h
  next t rest hr =>
  have hn := next?_of_rest hr
  split at h
  · cases h
  next hd =>
  split at h
  · next op ho =>
    rcases Except.bind_eq_error_iff.1 h with h | ⟨⟨value, c₂⟩, -, ⟨⟩⟩
    obtain ⟨_, -, hb⟩ := ih (.expr 7) _ _
      (hf.of_lt (weight_lt_of_next? hn) (Nat.zero_le _) trivial) h
    -- behind a minus no number is refused
    refine .inl ⟨.more default, Step.more_ne_done _, (hb.next hn (.inr id)).inside.mono ?_⟩
    rintro c' d' ⟨c₁', hn', e', he'⟩ start
    exact ⟨_, .prefixUnary hn' (Nat.lt_of_not_le hd) ho he'⟩
  · split at h
    · split at h
      · cases h
        exact .inr (liesAt_empty (by simp [ParseError.span, position, hr]))
      · cases h
    · cases h

private theorem refuses_operator {depth : Nat} {left : Expr}
    (hf : (Phrase.operator depth left).Fits (fuel + 1) c)
    (h : Parse.operator (some loopLimit) .strict (fuel + 1) depth left c = .error e) :
    (Phrase.operator depth left).Opens c e := by
  simp only [Parse.operator] at h
  split at h
  · cases h
  next t rest hr =>
  have hn := next?_of_rest hr
  have hw := weight_lt_of_next? hn
  split at h
  · cases h
  next level hlevel =>
  split at h
  · cases h
  next hd =>
  split at h
  -- a member access
  · next hk =>
    have hd : depth < 8 := by
      rw [hk] at hlevel
      cases hlevel
      exact Nat.lt_of_not_le hd
    rcases Except.bind_eq_error_iff.1 h with h | ⟨⟨member, c₂⟩, -, ⟨⟩⟩
    obtain ⟨_, -, hb⟩ := ih (.expr 8) _ _ (hf.of_lt hw (Nat.zero_le _) trivial) h
    refine ⟨.more default, Step.more_ne_done _, (hb.next hn (.inl (by simp [hk]))).inside.mono ?_⟩
    rintro c' d' ⟨c₁', hn', e', he'⟩ left
    exact ⟨_, .infixMember hn' hk hd he'⟩
  -- a call
  · next hk =>
    have hd : depth < 8 := by
      rw [hk] at hlevel
      cases hlevel
      exact Nat.lt_of_not_le hd
    rcases Except.bind_eq_error_iff.1 h with h | ⟨⟨args, c₂⟩, -, ⟨⟩⟩
    obtain ⟨_, -, hb⟩ := ih .arguments _ _ (hf.of_lt hw (Nat.zero_le _) trivial) h
    refine ⟨.more default, Step.more_ne_done _,
      ((hb.weaken fun _ _ => trivial).next hn (.inl (by simp [hk]))).inside.mono ?_⟩
    rintro c' d' ⟨c₁', hn', e', he'⟩ left
    exact ⟨_, .infixCall hn' hk hd he'⟩
  -- a subscript: the index fails, or the bracket behind it is missing
  · next hk =>
    have hd : depth < 8 := by
      rw [hk] at hlevel
      cases hlevel
      exact Nat.lt_of_not_le hd
    rcases Except.bind_eq_error_iff.1 h with h | ⟨⟨index, c₂⟩, he, h⟩
    · obtain ⟨_, -, hb⟩ := ih (.expr 1) _ _ (hf.of_lt hw (Nat.zero_le _) trivial) h
      refine ⟨.more default, Step.more_ne_done _, (hb.next hn (.inl (by simp [hk]))).inside.close
        [plain .rightBracket] (fun _ _ => rfl) ?_⟩
      rintro c' d' new ⟨c₁', hn', e', he'⟩ - hd'
      exact ⟨_, fun left => ⟨_, .infixSubscript hn' hk hd he' (require_of_rest hd' rfl)⟩, rfl⟩
    · have hreads := reads_of_read _ (.expr 1) _ _ _ he
      rcases Except.bind_eq_error_iff.1 h with h | ⟨c₃, -, ⟨⟩⟩
      have hb := (breaks_of_require h).beyond hreads trivial (hreads.weight_lt_of_strict rfl)
        fun new hk => by simp only [Phrase.stops, hk, endsOperators]
      refine ⟨.more default, Step.more_ne_done _,
        ((hb.next hn (.inl (by simp [hk]))).inside.weaken fun _ _ => trivial).mono ?_⟩
      rintro c' d' ⟨c₁', hn', c₂', ⟨e', he'⟩, hr'⟩ left
      exact ⟨_, .infixSubscript hn' hk hd he' hr'⟩
  -- a ternary: one of its two values fails, or the colon between them is missing
  · next hk =>
    have hd : depth < 3 := by
      rw [hk] at hlevel
      cases hlevel
      exact Nat.lt_of_not_le hd
    rcases Except.bind_eq_error_iff.1 h with h | ⟨⟨whenTrue, c₂⟩, he, h⟩
    · obtain ⟨_, -, hb⟩ := ih (.expr 3) _ _ (hf.of_lt hw (Nat.zero_le _) trivial) h
      refine ⟨.more default, Step.more_ne_done _, (hb.next hn (.inl (by simp [hk]))).inside.close
        [plain .colon, plain .identifier] (fun _ _ => rfl) ?_⟩
      rintro c' d' new ⟨c₁', hn', e', he'⟩ hnew hd'
      obtain ⟨e'', d'', he'', hd''⟩ := @reads_name (d'.pass (plain .colon) _) _ 3 rfl hnew
      exact ⟨d'', fun left => ⟨_, .infixTernary hn' hk hd he' (require_of_rest hd' rfl) he''⟩, hd''⟩
    · have hreads := reads_of_read _ (.expr 3) _ _ _ he
      rcases Except.bind_eq_error_iff.1 h with h | ⟨c₃, hq, h⟩
      · have hb := (breaks_of_require h).beyond hreads trivial (hreads.weight_lt_of_strict rfl)
          fun new hk => by simp only [Phrase.stops, hk, endsOperators]
        refine ⟨.more default, Step.more_ne_done _, (hb.next hn (.inl (by simp [hk]))).inside.close
          [plain .identifier] (fun _ _ => trivial) ?_⟩
        rintro c' d' new ⟨c₁', hn', c₂', ⟨e', he'⟩, hr'⟩ hnew hd'
        obtain ⟨e'', d'', he'', hd''⟩ := @reads_name d' _ 3 hd' hnew
        exact ⟨d'', fun left => ⟨_, .infixTernary hn' hk hd he' hr' he''⟩, hd''⟩
      · rcases Except.bind_eq_error_iff.1 h with h | ⟨⟨whenFalse, c₄⟩, -, ⟨⟩⟩
        have hw₃ := Nat.lt_of_lt_of_le (weight_lt_of_require_strict hq)
          (Nat.le_trans hreads.weight.1 (Nat.le_of_lt hw))
        obtain ⟨_, -, hb⟩ := ih (.expr 3) _ _ (hf.of_lt hw₃ (Nat.zero_le _) trivial) h
        refine ⟨.more default, Step.more_ne_done _,
          (((hb.require hq (by decide)).behind hreads trivial).next hn
          (.inl (by simp [hk]))).inside.mono ?_⟩
        rintro c' d' ⟨c₁', hn', c₂', ⟨e', he'⟩, c₃', hr', e'', he''⟩ left
        exact ⟨_, .infixTernary hn' hk hd he' hr' he''⟩
  -- another operator of two operands
  · next hk =>
    split at h
    · next op ho =>
      rcases Except.bind_eq_error_iff.1 h with h | ⟨⟨right, c₂⟩, -, ⟨⟩⟩
      obtain ⟨hdepth, -⟩ := infixDepth?_of_binary ho
      rw [hdepth] at hlevel
      cases hlevel
      obtain ⟨_, -, hb⟩ := ih (.expr _) _ _ (hf.of_lt hw (Nat.zero_le _) trivial) h
      refine ⟨.more default, Step.more_ne_done _, (hb.next hn (.inr id)).inside.mono ?_⟩
      rintro c' d' ⟨c₁', hn', e', he'⟩ left
      exact ⟨_, .infixBinary hn' ho (Nat.lt_of_not_le hd) he'⟩
    · cases h

private theorem refuses_arguments (hf : Phrase.arguments.Fits (fuel + 1) c)
    (h : Parse.arguments (some loopLimit) .strict (fuel + 1) c = .error e) :
    Phrase.arguments.Opens c e := by
  simp only [Parse.arguments] at h
  split at h
  · cases h
  next ha =>
  have hparen := accept?_eq_none_iff.1 ha
  rcases Except.bind_eq_error_iff.1 h with h | ⟨⟨args, c₁⟩, he, h⟩
  · obtain ⟨_, -, hb⟩ := ih (.expr 1) _ _
      (hf.of_le (Nat.le_refl _) (by simp [Phrase.rank]) (Nat.zero_le _) trivial) h
    refine ⟨default, trivial, (hb.imp fun _ => ⟨trivial, rfl⟩).keep.close [plain .rightParen]
      (fun _ _ => rfl) ?_⟩
    rintro c' d' new ⟨hk, e', he'⟩ - hd'
    have hk := kind?_ne_of_keep hk hparen (by decide)
    exact ⟨_, ⟨e', .argumentsSome hk he' (require_of_rest hd' rfl)⟩, rfl⟩
  · have hreads := reads_of_read _ (.expr 1) _ _ _ he
    rcases Except.bind_eq_error_iff.1 h with h | ⟨c₂, -, ⟨⟩⟩
    have hb := (breaks_of_require h).beyond hreads trivial (hreads.weight_lt_of_strict rfl)
      fun new hk => by simp only [Phrase.stops, hk, endsOperators]
    refine ⟨default, trivial, (hb.keep.inside.weaken fun _ _ => trivial).mono ?_⟩
    rintro c' d' ⟨hk | ⟨⟨⟩, -⟩, c₁', ⟨e', he'⟩, hr'⟩
    exact ⟨e', .argumentsSome (hk ▸ hparen) he' hr'⟩

private theorem refuses_functionTail {start : Nat}
    (hf : (Phrase.functionTail start).Fits (fuel + 1) c)
    (h : Parse.functionTail (some loopLimit) .strict (fuel + 1) start c = .error e) :
    (Phrase.functionTail start).Opens c e := by
  simp only [Parse.functionTail] at h
  rcases Except.bind_eq_error_iff.1 h with h | ⟨⟨paren?, c₁⟩, hm, h⟩
  -- the opening parenthesis is missing
  · refine ⟨default, trivial, .now (plain .leftParen)
      [plain .rightParen, plain .leftBrace, plain .rightBrace] (expect_eq_error h).2 trivial ?_⟩
    intro new _ c' hc'
    obtain ⟨s, d', hs, hd'⟩ := @reads_braces
      ((c'.pass (plain .leftParen) _).pass (plain .rightParen) _) new rfl
    exact ⟨d', fun start =>
      ⟨_, .functionBare (expect_of_rest hc' rfl) (next?_of_rest rfl) rfl hs⟩, hd'⟩
  obtain ⟨t, rfl, hk, -⟩ := rest_of_expect_strict hm
  have hw := weight_lt_of_expect hm
  cases ha : c₁.accept? .rightParen with
  | some pair =>
    obtain ⟨t', c₂⟩ := pair
    obtain ⟨hn, hk'⟩ := accept?_eq_some_iff.1 ha
    simp only [ha, pure_bind] at h
    -- without parameters, the block fails
    rcases Except.bind_eq_error_iff.1 h with h | ⟨⟨body, c₃⟩, -, ⟨⟩⟩
    obtain ⟨_, -, hb⟩ := ih .block _ _
      (hf.of_lt (Nat.lt_trans (weight_lt_of_next? hn) hw) (Nat.zero_le _) trivial) h
    have hb := (hb.next hn (.inl (by simp [hk']))).expect hm (by decide)
    refine ⟨default, trivial, hb.inside.mono ?_⟩
    rintro c' d' ⟨c₁', hm', c₂', hn', s, hs⟩ start
    exact ⟨_, .functionBare hm' hn' hk' hs⟩
  | none =>
    have hparen := accept?_eq_none_iff.1 ha
    simp only [ha] at h
    -- the parameters fail, or the block behind them
    rcases Except.bind_eq_error_iff.1 h with h | ⟨⟨names, c₂⟩, hp, h⟩
    · obtain ⟨_, -, hb⟩ := ih (.params .rightParen 0) _ _
        (hf.of_lt hw (Nat.zero_le _) (.inl rfl)) h
      refine ⟨default, trivial, ((hb.keep.expect hm (by decide)).inside.close
        [plain .leftBrace, plain .rightBrace] (fun _ _ => trivial) ?_)⟩
      rintro c' d' new ⟨c₁', hm', hk, names, hp'⟩ - hd'
      obtain ⟨s, d'', hs, hd''⟩ := reads_braces hd'
      have hparen' := kind?_ne_of_keep hk hparen (by decide)
      exact ⟨d'', fun start => ⟨_, .functionParams hm' hparen' hp' hs⟩, hd''⟩
    · have hreads := reads_of_read _ (.params .rightParen 0) _ _ _ hp
      rcases Except.bind_eq_error_iff.1 h with h | ⟨⟨body, c₃⟩, -, ⟨⟩⟩
      obtain ⟨_, -, hb⟩ := ih .block _ _
        (hf.of_lt (Nat.lt_of_le_of_lt hreads.weight.1 hw) (Nat.zero_le _) trivial) h
      have hb := hb.beyond hreads (.inl rfl) (hreads.weight_lt_of_strict rfl) fun _ _ => trivial
      refine ⟨default, trivial, (hb.keep.expect hm (by decide)).inside.mono ?_⟩
      rintro c' d' ⟨c₁', hm', hk | ⟨⟨⟩, -⟩, c₂', ⟨names, hp'⟩, s, hs⟩ start
      exact ⟨_, .functionParams hm' (hk ▸ hparen) hp' hs⟩

private theorem refuses_lambdaTail {start : Nat}
    (hf : (Phrase.lambdaTail start).Fits (fuel + 1) c)
    (h : Parse.lambdaTail (some loopLimit) .strict (fuel + 1) start c = .error e) :
    (Phrase.lambdaTail start).Opens c e := by
  simp only [Parse.lambdaTail] at h
  rcases Except.bind_eq_error_iff.1 h with h | ⟨⟨names, c₁⟩, hp, h⟩
  · obtain ⟨_, -, hb⟩ := ih (.params .colon 0) _ _
      (hf.of_le (Nat.le_refl _) (by simp [Phrase.rank]) (Nat.zero_le _) (.inr rfl)) h
    refine ⟨default, trivial, hb.close [plain .identifier] (fun _ _ => trivial) ?_⟩
    rintro c' d' new ⟨names, hp'⟩ hnew hd'
    obtain ⟨e', d'', he', hd''⟩ := @reads_name d' _ 0 hd' hnew
    exact ⟨d'', fun start => ⟨_, .lambda hp' he'⟩, hd''⟩
  · have hreads := reads_of_read _ (.params .colon 0) _ _ _ hp
    have hw := hreads.weight_lt_of_strict rfl
    rcases Except.bind_eq_error_iff.1 h with h | ⟨⟨body, c₂⟩, -, ⟨⟩⟩
    obtain ⟨_, -, hb⟩ := ih (.expr 0) _ _ (hf.of_lt hw (Nat.zero_le _) trivial) h
    refine ⟨default, trivial,
      (hb.beyond hreads (.inr rfl) hw fun _ _ => trivial).inside.mono ?_⟩
    rintro c' d' ⟨c₁', ⟨names, hp'⟩, e', he'⟩ start
    exact ⟨_, .lambda hp' he'⟩

private theorem refuses_params {closing : TokenKind} {rounds : Nat}
    (hf : (Phrase.params closing rounds).Fits (fuel + 1) c)
    (h : Parse.params (some loopLimit) .strict closing (fuel + 1) rounds c = .error e) :
    (Phrase.params closing rounds).Opens c e := by
  have hl : rounds < loopLimit := Nat.lt_of_le_of_lt (Nat.le_add_right _ _) hf.rounds_lt
  simp only [Parse.params, tick_of_lt hl, Except.ok_bind] at h
  rcases Except.bind_eq_error_iff.1 h with h | ⟨⟨name?, c₁⟩, hm, h⟩
  -- the name is missing
  · refine ⟨default, trivial, .now (plain .identifier) [plain closing] (expect_eq_error h).2
      trivial ?_⟩
    intro new _ c' hc'
    exact ⟨_, ⟨_, .paramsLast hl (expect_of_rest hc' rfl) (next?_of_rest rfl) rfl⟩, rfl⟩
  obtain ⟨name, rfl, -, -⟩ := rest_of_expect_strict hm
  have hw := weight_lt_of_expect hm
  simp only at h
  split at h
  · cases h
  next ha =>
  have hclosing := accept?_eq_none_iff.1 ha
  rcases Except.bind_eq_error_iff.1 h with h | ⟨⟨comma?, c₂⟩, hm₁, h⟩
  -- the comma is missing, so the parameters could end here
  · have hb : Breaks True closing (fun _ => True) c₁ e
        fun c' d' => ∃ t, c'.next? = some (t, d') ∧ t.kind = closing :=
      .now (plain closing) [] (expect_eq_error h).2 trivial
        fun _ _ _ hc' => ⟨_, ⟨_, next?_of_rest hc', rfl⟩, rfl⟩
    refine ⟨default, trivial, (hb.expect hm (by decide)).inside.mono ?_⟩
    rintro c' d' ⟨c₁', hm', t, hn, hk⟩
    exact ⟨_, .paramsLast hl hm' hn hk⟩
  -- the parameters behind the comma fail
  · obtain ⟨comma, rfl, -, -⟩ := rest_of_expect_strict hm₁
    rcases Except.bind_eq_error_iff.1 h with h | ⟨⟨names, c₃⟩, -, ⟨⟩⟩
    obtain ⟨_, -, hb⟩ := ih (.params closing (rounds + 1)) _ _
      (hf.of_lt (Nat.lt_trans (weight_lt_of_expect hm₁) hw) (Nat.le_refl _) hf.proper) h
    have hb := (hb.expect hm₁ (by decide)).keep.expect hm (by decide)
    refine ⟨default, trivial, hb.inside.mono ?_⟩
    rintro c' d' ⟨c₁', hm', hk | ⟨⟨⟩, -⟩, c₂', hm₁', names, hp'⟩
    exact ⟨_, .paramsMore hl hm' (hk ▸ hclosing) hm₁' hp'⟩

private theorem refuses_statements {rounds : Nat}
    (hf : (Phrase.statements rounds).Fits (fuel + 1) c)
    (h : Parse.statements (some loopLimit) .strict (fuel + 1) rounds c = .error e) :
    (Phrase.statements rounds).Opens c e := by
  have hl : rounds < loopLimit := Nat.lt_of_le_of_lt (Nat.le_add_right _ _) hf.rounds_lt
  simp only [Parse.statements, tick_of_lt hl, Except.ok_bind] at h
  split at h
  · cases h
  · cases h
  next kind hne hk =>
  -- the loop goes on where the next token is the same, or a name
  have hgoes : ∀ {bare : Prop} {c' : Cursor},
      c'.kind? = c.kind? ∨ bare ∧ c'.kind? = some .identifier →
        ∃ kind, c'.kind? = some kind ∧ kind ≠ .rightBrace := by
    rintro bare c' (h | ⟨-, h⟩)
    · exact ⟨kind, h.trans hk, hne⟩
    · exact ⟨_, h, by decide⟩
  rcases Except.bind_eq_error_iff.1 h with h | ⟨⟨first, c₁⟩, hs, h⟩
  -- the first statement fails, which could be the last one
  · obtain ⟨_, -, hb⟩ := ih .statement _ _
      (hf.of_le (Nat.le_refl _) (by simp [Phrase.rank]) (Nat.zero_le _) trivial) h
    refine ⟨default, trivial, hb.keep.close [] ?_ ?_⟩
    · rintro new (h | h) hk <;> cases h.symm.trans hk
    · rintro c' d' new ⟨hk', s, hs⟩ hnew hd'
      obtain ⟨kind', hk', hne'⟩ := hgoes hk'
      have hend : d'.kind? = none ∨ d'.kind? = some .rightBrace := by
        rwa [kind?_of_nil_append hd']
      exact ⟨d', ⟨_, .statementsMore hk' hne' hl hs (.statementsDone hend)⟩, hd'⟩
  -- the statements behind the first one fail
  · have hreads := reads_of_read _ .statement _ _ _ hs
    have hw := hreads.weight.2 rfl
    rcases Except.bind_eq_error_iff.1 h with h | ⟨⟨rest, c₂⟩, -, ⟨⟩⟩
    obtain ⟨_, -, hb⟩ := ih (.statements (rounds + 1)) _ _ (hf.of_lt hw (Nat.le_refl _) trivial) h
    have hb := hb.beyond hreads trivial hw fun new hk => by
      simp [Phrase.stops, Phrase.opening, hk]
    refine ⟨default, trivial, hb.inside.keep.mono ?_⟩
    rintro c' d' ⟨hk', c₁', ⟨s, hs⟩, ss, hss⟩
    obtain ⟨kind', hk', hne'⟩ := hgoes hk'
    exact ⟨_, .statementsMore hk' hne' hl hs hss⟩

omit ih in
theorem kind?_of_require (h : c.require .strict kind = .ok d) : c.kind? = some kind := by
  rcases require_eq_ok_iff.1 h with ⟨t, hn, rfl⟩ | ⟨-, ⟨⟩, -⟩
  rw [kind?_of_rest (rest_of_next? hn)]

/-- Reading a condition in parentheses and a statement. -/
private theorem refuses_headed (hf : Phrase.statement.Fits (fuel + 1) c) (hw : d.weight < c.weight)
    (h : d.require .strict .leftParen = .error e ∨ ∃ c₁, d.require .strict .leftParen = .ok c₁ ∧
      (Parse.expr (some loopLimit) .strict fuel 0 c₁ = .error e ∨
        ∃ x c₂, Parse.expr (some loopLimit) .strict fuel 0 c₁ = .ok (x, c₂) ∧
          (c₂.require .strict .rightParen = .error e ∨
            ∃ c₃, c₂.require .strict .rightParen = .ok c₃ ∧
              Parse.statement (some loopLimit) .strict fuel c₃ = .error e))) :
    Breaks True .leftParen Phrase.statement.stops d e Headed := by
  rcases h with h | ⟨c₁, hq, h⟩
  -- the opening parenthesis is missing
  · refine .now (plain .leftParen) [plain .identifier, plain .rightParen, plain .semicolon]
      (require_eq_error h).2 trivial fun new _ c' hc' => ?_
    obtain ⟨x, c₂, hx, hc₂⟩ := @reads_name (c'.pass (plain .leftParen) _)
      (plain .rightParen :: plain .semicolon :: new) 0 rfl rfl
    exact ⟨_, ⟨_, _, _, _, _, require_of_rest hc' rfl, hx, require_of_rest hc₂ rfl,
      .statementEmpty (next?_of_rest rfl) rfl⟩, rfl⟩
  have hw₁ := Nat.lt_trans (weight_lt_of_require_strict hq) hw
  rcases h with h | ⟨x, c₂, hx, h⟩
  -- the condition fails
  · obtain ⟨_, -, hb⟩ := ih (.expr 0) _ _ (hf.of_lt hw₁ (Nat.zero_le _) trivial) h
    refine ((hb.require hq (by decide)).inside.close [plain .rightParen, plain .semicolon]
      (fun _ _ => rfl) ?_)
    rintro c' d' new ⟨c₁', hq', x, hx'⟩ - hd'
    exact ⟨_, ⟨_, _, _, _, _, hq', hx', require_of_rest hd' rfl,
      .statementEmpty (next?_of_rest rfl) rfl⟩, rfl⟩
  have hreads := reads_of_read _ (.expr 0) _ _ _ hx
  -- the closing parenthesis is missing, or the statement behind it fails
  rcases h with h | ⟨c₃, hr, h⟩
  · have hb := (breaks_of_require h).beyond hreads trivial (hreads.weight_lt_of_strict rfl)
      fun new hk => by simp only [Phrase.stops, hk, endsOperators]
    refine (hb.require hq (by decide)).inside.close [plain .semicolon] (fun _ _ => trivial) ?_
    rintro c' d' new ⟨c₁', hq', c₂', ⟨x, hx'⟩, hr'⟩ - hd'
    exact ⟨_, ⟨_, _, _, _, _, hq', hx', hr', .statementEmpty (next?_of_rest hd') rfl⟩, rfl⟩
  · have hw₃ := Nat.lt_of_lt_of_le (weight_lt_of_require_strict hr)
      (Nat.le_trans hreads.weight.1 (Nat.le_of_lt hw₁))
    obtain ⟨_, -, hb⟩ := ih .statement _ _ (hf.of_lt hw₃ (Nat.zero_le _) trivial) h
    have hb := ((hb.require hr (by decide)).behind hreads trivial).require hq (by decide)
    refine hb.inside.mono ?_
    rintro c' d' ⟨c₁', hq', c₂', ⟨x, hx'⟩, c₃', hr', s, hs⟩
    exact ⟨_, _, _, _, _, hq', hx', hr', hs⟩

private theorem refuses_statement (hf : Phrase.statement.Fits (fuel + 1) c)
    (h : Parse.statement (some loopLimit) .strict (fuel + 1) c = .error e) :
    Phrase.statement.Opens c e := by
  -- a declaration, an assignment or a call
  have simple : (∀ kind, c.kind? = some kind → startsStatement kind = false) →
      Parse.simpleStatement (some loopLimit) .strict fuel c = .error e →
        Phrase.statement.Opens c e := by
    intro hk h
    obtain ⟨_, -, hb⟩ := ih .simpleStatement _ _
      (hf.of_le (Nat.le_refl _) (by simp [Phrase.rank]) (Nat.le_refl _) trivial) h
    refine ⟨default, trivial, (hb.keep.weaken fun _ _ => trivial).mono ?_⟩
    rintro c' d' ⟨hk', s, hs⟩
    refine ⟨s, .statementSimple ?_ hs⟩
    rcases hk' with hk' | ⟨-, hk'⟩ <;> rw [hk']
    · exact hk
    · rintro _ ⟨⟩
      rfl
  simp only [Parse.statement] at h
  split at h
  · next hr => exact simple (by simp [kind?_of_rest_nil hr]) h
  next t rest hr =>
  have hn := next?_of_rest hr
  have hw := weight_lt_of_next? hn
  have hkind := kind?_of_rest hr
  split at h
  -- a block
  · next hk =>
    have hbrace : c.kind? = some .leftBrace := by rw [hkind, hk]
    obtain ⟨_, -, hb⟩ := ih .block _ _
      (hf.of_le (Nat.le_refl _) (by simp [Phrase.rank, hbrace]) (Nat.le_refl _) trivial) h
    have hb : Breaks False .leftBrace _ c e _ := hb.imp fun hne => absurd hbrace hne
    refine ⟨default, trivial, (hb.keep.inside.weaken fun _ _ => trivial).mono ?_⟩
    rintro c' d' ⟨hk' | ⟨⟨⟩, -⟩, s, hs⟩
    exact ⟨s, .statementBlock (hk'.trans hbrace) hs⟩
  -- a value that is returned: it fails, or the semicolon behind it is missing
  · next hk =>
    split at h
    · cases h
    next ha =>
    have hsemi := accept?_eq_none_iff.1 ha
    rcases Except.bind_eq_error_iff.1 h with h | ⟨⟨value, c₂⟩, he, h⟩
    · obtain ⟨_, -, hb⟩ := ih (.expr 0) _ _ (hf.of_lt hw (Nat.zero_le _) trivial) h
      refine ⟨default, trivial, (hb.keep.next hn (.inl (by simp [hk]))).inside.close
        [plain .semicolon] (fun _ _ => rfl) ?_⟩
      rintro c' d' new ⟨c₁', hn', hk', e', he'⟩ - hd'
      exact ⟨_, ⟨_, .statementReturnValue hn' hk (kind?_ne_of_keep hk' hsemi (by decide)) he'
        (require_of_rest hd' rfl)⟩, rfl⟩
    · have hreads := reads_of_read _ (.expr 0) _ _ _ he
      rcases Except.bind_eq_error_iff.1 h with h | ⟨c₃, -, ⟨⟩⟩
      have hb := (breaks_of_require h).beyond hreads trivial (hreads.weight_lt_of_strict rfl)
        fun new hk => by simp only [Phrase.stops, hk, endsOperators]
      refine ⟨default, trivial,
        ((hb.keep.next hn (.inl (by simp [hk]))).inside.weaken fun _ _ => trivial).mono ?_⟩
      rintro c' d' ⟨c₁', hn', hk' | ⟨⟨⟩, -⟩, c₂', ⟨e', he'⟩, hr'⟩
      exact ⟨_, .statementReturnValue hn' hk (hk' ▸ hsemi) he' hr'⟩
  -- a break without a semicolon
  · next hk =>
    rcases Except.bind_eq_error_iff.1 h with h | ⟨c₂, -, ⟨⟩⟩
    refine ⟨default, trivial, (((breaks_of_require h).next hn (.inl (by simp [hk]))).inside.weaken
      fun _ _ => trivial).mono ?_⟩
    rintro c' d' ⟨c₁', hn', hr'⟩
    exact ⟨_, .statementBreak hn' hk hr'⟩
  -- a continue without a semicolon
  · next hk =>
    rcases Except.bind_eq_error_iff.1 h with h | ⟨c₂, -, ⟨⟩⟩
    refine ⟨default, trivial, (((breaks_of_require h).next hn (.inl (by simp [hk]))).inside.weaken
      fun _ _ => trivial).mono ?_⟩
    rintro c' d' ⟨c₁', hn', hr'⟩
    exact ⟨_, .statementContinue hn' hk hr'⟩
  · next hk =>
    -- the condition and the first statement, as in a loop
    have headed : Breaks True .leftParen Phrase.statement.stops (c.pass t rest) e Headed →
        Phrase.statement.Opens c e := by
      intro hb
      refine ⟨default, trivial, (hb.next hn (.inl (by simp [hk]))).inside.close []
        (fun _ h => h) ?_⟩
      rintro c' d' new ⟨c₁', hn', c₂', x, c₃', c₄', s, hq', hx', hr', hs⟩ hnew hd'
      have helse : d'.kind? ≠ some .elseWord := by
        rwa [kind?_of_nil_append hd']
      exact ⟨d', ⟨_, .statementIf hn' hk hq' hx' hr' hs helse⟩, hd'⟩
    rcases Except.bind_eq_error_iff.1 h with h | ⟨c₂, hq, h⟩
    · exact headed (refuses_headed ih hf hw (.inl h))
    rcases Except.bind_eq_error_iff.1 h with h | ⟨⟨x, c₃⟩, hx, h⟩
    · exact headed (refuses_headed ih hf hw (.inr ⟨c₂, hq, .inl h⟩))
    rcases Except.bind_eq_error_iff.1 h with h | ⟨c₄, hr, h⟩
    · exact headed (refuses_headed ih hf hw (.inr ⟨c₂, hq, .inr ⟨x, c₃, hx, .inl h⟩⟩))
    rcases Except.bind_eq_error_iff.1 h with h | ⟨⟨s, c₅⟩, hs, h⟩
    · exact headed (refuses_headed ih hf hw (.inr ⟨c₂, hq, .inr ⟨x, c₃, hx, .inr ⟨c₄, hr, h⟩⟩⟩))
    simp only at h
    split at h
    · next t' c₆ ha =>
      obtain ⟨hn₁, hk₁⟩ := accept?_eq_some_iff.1 ha
      -- the statement behind the else fails
      rcases Except.bind_eq_error_iff.1 h with h | ⟨⟨s', c₇⟩, -, ⟨⟩⟩
      have hxreads := reads_of_read _ (.expr 0) _ _ _ hx
      have hsreads := reads_of_read _ .statement _ _ _ hs
      have hw₆ : c₆.weight < c.weight := by
        have h₁ := Nat.lt_trans (weight_lt_of_require_strict hq) hw
        have h₂ : c₃.weight ≤ c₂.weight := hxreads.weight.1
        have h₃ : c₄.weight < c₃.weight := weight_lt_of_require_strict hr
        have h₄ : c₅.weight ≤ c₄.weight := hsreads.weight.1
        have h₅ := weight_lt_of_next? hn₁
        omega
      obtain ⟨_, -, hb⟩ := ih .statement _ _ (hf.of_lt hw₆ (Nat.zero_le _) trivial) h
      have hb := (hb.next hn₁ (.inl (by simp [hk₁]))).behind hsreads trivial
      have hb := ((hb.require hr (by decide)).behind hxreads trivial).require hq (by decide)
      refine ⟨default, trivial, (hb.next hn (.inl (by simp [hk]))).inside.mono ?_⟩
      rintro c' d' ⟨c₁', hn', c₂', hq', c₃', ⟨x, hx'⟩, c₄', hr', c₅', ⟨s, hs'⟩, c₆', hn₁', s', hs₁⟩
      exact ⟨_, .statementIfElse hn' hk hq' hx' hr' hs' hn₁' hk₁ hs₁⟩
    · cases h
  -- a loop with a header of three parts
  · next hk =>
    obtain ⟨_, -, hb⟩ := ih (.forTail _) _ _ (hf.of_lt hw (Nat.zero_le _) trivial) h
    refine ⟨default, trivial, (hb.next hn (.inl (by simp [hk]))).inside.mono ?_⟩
    rintro c' d' ⟨c₁', hn', hread⟩
    obtain ⟨s, hs⟩ := hread c'.position
    exact ⟨s, .statementFor hn' hk hs⟩
  -- a loop with a condition
  · next hk =>
    simp only [Except.bind_eq_error_iff, Prod.exists, reduceCtorEq, and_false, exists_false,
      or_false] at h
    refine ⟨default, trivial,
      ((refuses_headed ih hf hw h).next hn (.inl (by simp [hk]))).inside.mono ?_⟩
    rintro c' d' ⟨c₁', hn', c₂', x, c₃', c₄', s, hq', hx', hr', hs⟩
    exact ⟨_, .statementWhile hn' hk hq' hx' hr' hs⟩
  · cases h
  -- no other token begins a statement of a kind of its own
  · refine simple ?_ h
    rintro kind hk
    rw [hkind] at hk
    cases hk
    cases hkt : t.kind <;> first | rfl | contradiction

private theorem refuses_simpleStatement (hf : Phrase.simpleStatement.Fits (fuel + 1) c)
    (h : Parse.simpleStatement (some loopLimit) .strict (fuel + 1) c = .error e) :
    Phrase.simpleStatement.Opens c e := by
  simp only [Parse.simpleStatement] at h
  rcases Except.bind_eq_error_iff.1 h with h | ⟨⟨s, c₁⟩, hs, h⟩
  · obtain ⟨_, -, hb⟩ := ih .declaration _ _
      (hf.of_le (Nat.le_refl _) (by simp [Phrase.rank]) (Nat.le_refl _) trivial) h
    refine ⟨default, trivial, hb.close [plain .semicolon] (fun _ _ => .inr rfl) ?_⟩
    rintro c' d' new ⟨s, hs⟩ - hd'
    exact ⟨_, ⟨s, .simple hs (require_of_rest hd' rfl)⟩, rfl⟩
  · have hreads := reads_of_read _ .declaration _ _ _ hs
    rcases Except.bind_eq_error_iff.1 h with h | ⟨c₂, -, ⟨⟩⟩
    have hb := (breaks_of_require h).beyond hreads trivial (hreads.weight.2 rfl) fun _ => .inr
    refine ⟨default, trivial, hb.inside.mono ?_⟩
    rintro c' d' ⟨c₁', ⟨s, hs⟩, hr'⟩
    exact ⟨s, .simple hs hr'⟩

private theorem refuses_initializer (hf : Phrase.initializer.Fits (fuel + 1) c)
    (h : Parse.initializer (some loopLimit) .strict (fuel + 1) c = .error e) :
    Phrase.initializer.Opens c e := by
  simp only [Parse.initializer] at h
  split at h
  · cases h
  next ha =>
  have hsemi := accept?_eq_none_iff.1 ha
  rcases Except.bind_eq_error_iff.1 h with h | ⟨⟨s, c₁⟩, hs, h⟩
  · obtain ⟨_, -, hb⟩ := ih .declaration _ _
      (hf.of_le (Nat.le_refl _) (by simp [Phrase.rank]) (Nat.le_refl _) trivial) h
    refine ⟨default, trivial, hb.keep.close [plain .semicolon] (fun _ _ => .inr rfl) ?_⟩
    rintro c' d' new ⟨hk, s, hs⟩ - hd'
    exact ⟨_, ⟨_, .initializerSome (kind?_ne_of_keep hk hsemi (by decide)) hs
      (require_of_rest hd' rfl)⟩, rfl⟩
  · have hreads := reads_of_read _ .declaration _ _ _ hs
    rcases Except.bind_eq_error_iff.1 h with h | ⟨c₂, -, ⟨⟩⟩
    have hb := (breaks_of_require h).beyond hreads trivial (hreads.weight.2 rfl) fun _ => .inr
    refine ⟨default, trivial, hb.keep.inside.mono ?_⟩
    rintro c' d' ⟨hk | ⟨⟨⟩, -⟩, c₁', ⟨s, hs⟩, hr'⟩
    exact ⟨_, .initializerSome (hk ▸ hsemi) hs hr'⟩

private theorem refuses_condition (hf : Phrase.condition.Fits (fuel + 1) c)
    (h : Parse.condition (some loopLimit) .strict (fuel + 1) c = .error e) :
    Phrase.condition.Opens c e := by
  simp only [Parse.condition] at h
  split at h
  · cases h
  next ha =>
  have hsemi := accept?_eq_none_iff.1 ha
  rcases Except.bind_eq_error_iff.1 h with h | ⟨⟨x, c₁⟩, hx, h⟩
  · obtain ⟨_, -, hb⟩ := ih (.expr 0) _ _
      (hf.of_le (Nat.le_refl _) (by simp [Phrase.rank]) (Nat.le_refl _) trivial) h
    refine ⟨default, trivial, (hb.imp fun _ => ⟨trivial, rfl⟩).keep.close [plain .semicolon]
      (fun _ _ => rfl) ?_⟩
    rintro c' d' new ⟨hk, x, hx⟩ - hd'
    exact ⟨_, ⟨_, .conditionSome (kind?_ne_of_keep hk hsemi (by decide)) hx
      (require_of_rest hd' rfl)⟩, rfl⟩
  · have hreads := reads_of_read _ (.expr 0) _ _ _ hx
    rcases Except.bind_eq_error_iff.1 h with h | ⟨c₂, -, ⟨⟩⟩
    have hb := (breaks_of_require h).beyond hreads trivial (hreads.weight_lt_of_strict rfl)
      fun new hk => by simp only [Phrase.stops, hk, endsOperators]
    refine ⟨default, trivial, hb.keep.inside.mono ?_⟩
    rintro c' d' ⟨hk | ⟨⟨⟩, -⟩, c₁', ⟨x, hx⟩, hr'⟩
    exact ⟨_, .conditionSome (hk ▸ hsemi) hx hr'⟩

private theorem refuses_iterator (hf : Phrase.iterator.Fits (fuel + 1) c)
    (h : Parse.iterator (some loopLimit) .strict (fuel + 1) c = .error e) :
    Phrase.iterator.Opens c e := by
  simp only [Parse.iterator] at h
  split at h
  · cases h
  next ha =>
  have hparen := accept?_eq_none_iff.1 ha
  rcases Except.bind_eq_error_iff.1 h with h | ⟨⟨s, c₁⟩, hs, h⟩
  · obtain ⟨_, -, hb⟩ := ih .assignment _ _
      (hf.of_le (Nat.le_refl _) (by simp [Phrase.rank]) (Nat.le_refl _) trivial) h
    refine ⟨default, trivial, hb.keep.close [plain .rightParen] (fun _ _ => rfl) ?_⟩
    rintro c' d' new ⟨hk, s, hs⟩ - hd'
    exact ⟨_, ⟨_, .iteratorSome (kind?_ne_of_keep hk hparen (by decide)) hs
      (require_of_rest hd' rfl)⟩, rfl⟩
  · have hreads := reads_of_read _ .assignment _ _ _ hs
    rcases Except.bind_eq_error_iff.1 h with h | ⟨c₂, -, ⟨⟩⟩
    have hb := (breaks_of_require h).beyond hreads trivial (hreads.weight.2 rfl)
      fun new hk => by simp only [Phrase.stops, hk, endsOperators]
    refine ⟨default, trivial, hb.keep.inside.mono ?_⟩
    rintro c' d' ⟨hk | ⟨⟨⟩, -⟩, c₁', ⟨s, hs⟩, hr'⟩
    exact ⟨_, .iteratorSome (hk ▸ hparen) hs hr'⟩

private theorem refuses_forTail {start : Nat} (hf : (Phrase.forTail start).Fits (fuel + 1) c)
    (h : Parse.forTail (some loopLimit) .strict (fuel + 1) start c = .error e) :
    (Phrase.forTail start).Opens c e := by
  simp only [Parse.forTail] at h
  rcases Except.bind_eq_error_iff.1 h with h | ⟨c₁, hr, h⟩
  -- the opening parenthesis is missing
  · refine ⟨default, trivial, .now (plain .leftParen) [plain .semicolon, plain .semicolon,
      plain .rightParen, plain .semicolon] (require_eq_error h).2 trivial ?_⟩
    intro new _ c' hc'
    exact ⟨_, fun start => ⟨_, .forLoop (require_of_rest hc' rfl)
      (.initializerNone (next?_of_rest rfl) rfl) (.conditionNone (next?_of_rest rfl) rfl)
      (.iteratorNone (next?_of_rest rfl) rfl) (.statementEmpty (next?_of_rest rfl) rfl)⟩, rfl⟩
  have hw₁ := weight_lt_of_require_strict hr
  rcases Except.bind_eq_error_iff.1 h with h | ⟨⟨initial, c₂⟩, hi, h⟩
  -- the initializer fails
  · obtain ⟨_, -, hb⟩ := ih .initializer _ _ (hf.of_lt hw₁ (Nat.zero_le _) trivial) h
    refine ⟨default, trivial, (hb.require hr (by decide)).inside.close
      [plain .semicolon, plain .rightParen, plain .semicolon] (fun _ _ => trivial) ?_⟩
    rintro c' d' new ⟨c₁', hr', i, hi'⟩ - hd'
    exact ⟨_, fun start => ⟨_, .forLoop hr' hi' (.conditionNone (next?_of_rest hd') rfl)
      (.iteratorNone (next?_of_rest rfl) rfl) (.statementEmpty (next?_of_rest rfl) rfl)⟩, rfl⟩
  have hireads := reads_of_read _ .initializer _ _ _ hi
  have hw₂ := Nat.lt_of_le_of_lt hireads.weight.1 hw₁
  rcases Except.bind_eq_error_iff.1 h with h | ⟨⟨x, c₃⟩, hx, h⟩
  -- the condition fails
  · obtain ⟨_, -, hb⟩ := ih .condition _ _ (hf.of_lt hw₂ (Nat.zero_le _) trivial) h
    have hb := hb.beyond hireads trivial (hireads.weight_lt_of_strict rfl) fun _ _ => trivial
    refine ⟨default, trivial, (hb.require hr (by decide)).inside.close
      [plain .rightParen, plain .semicolon] (fun _ _ => trivial) ?_⟩
    rintro c' d' new ⟨c₁', hr', c₂', ⟨i, hi'⟩, x, hx'⟩ - hd'
    exact ⟨_, fun start => ⟨_, .forLoop hr' hi' hx' (.iteratorNone (next?_of_rest hd') rfl)
      (.statementEmpty (next?_of_rest rfl) rfl)⟩, rfl⟩
  have hxreads := reads_of_read _ .condition _ _ _ hx
  have hw₃ := Nat.lt_of_le_of_lt hxreads.weight.1 hw₂
  rcases Except.bind_eq_error_iff.1 h with h | ⟨⟨step, c₄⟩, hs, h⟩
  -- the iterator fails
  · obtain ⟨_, -, hb⟩ := ih .iterator _ _ (hf.of_lt hw₃ (Nat.zero_le _) trivial) h
    have hb := hb.beyond hxreads trivial (hxreads.weight_lt_of_strict rfl) fun _ _ => trivial
    have hb := hb.behind hireads trivial
    refine ⟨default, trivial, (hb.require hr (by decide)).inside.close [plain .semicolon]
      (fun _ _ => trivial) ?_⟩
    rintro c' d' new ⟨c₁', hr', c₂', ⟨i, hi'⟩, c₃', ⟨x, hx'⟩, s, hs'⟩ - hd'
    exact ⟨_, fun start =>
      ⟨_, .forLoop hr' hi' hx' hs' (.statementEmpty (next?_of_rest hd') rfl)⟩, rfl⟩
  have hsreads := reads_of_read _ .iterator _ _ _ hs
  have hw₄ := Nat.lt_of_le_of_lt hsreads.weight.1 hw₃
  -- the body fails
  rcases Except.bind_eq_error_iff.1 h with h | ⟨⟨body, c₅⟩, -, ⟨⟩⟩
  obtain ⟨_, -, hb⟩ := ih .statement _ _ (hf.of_lt hw₄ (Nat.zero_le _) trivial) h
  have hb := hb.beyond hsreads trivial (hsreads.weight_lt_of_strict rfl) fun _ _ => trivial
  have hb := (hb.behind hxreads trivial).behind hireads trivial
  refine ⟨default, trivial, (hb.require hr (by decide)).inside.mono ?_⟩
  rintro c' d' ⟨c₁', hr', c₂', ⟨i, hi'⟩, c₃', ⟨x, hx'⟩, c₄', ⟨s, hs'⟩, b, hb'⟩ start
  exact ⟨_, .forLoop hr' hi' hx' hs' hb'⟩

private theorem refuses_block (hf : Phrase.block.Fits (fuel + 1) c)
    (h : Parse.block (some loopLimit) .strict (fuel + 1) c = .error e) :
    Phrase.block.Opens c e := by
  simp only [Parse.block] at h
  rcases Except.bind_eq_error_iff.1 h with h | ⟨c₁, hq, h⟩
  · obtain ⟨hk, hl⟩ := require_eq_error h
    refine ⟨default, trivial, .now (plain .leftBrace) [plain .rightBrace] hl hk ?_⟩
    intro new _ c' hc'
    obtain ⟨s, d', hs, hd'⟩ := reads_braces hc'
    exact ⟨d', ⟨s, hs⟩, hd'⟩
  have hw₁ := weight_lt_of_require_strict hq
  rcases Except.bind_eq_error_iff.1 h with h | ⟨⟨body, c₂⟩, hs, h⟩
  · obtain ⟨_, -, hb⟩ := ih (.statements 0) _ _ (hf.of_lt hw₁ (Nat.zero_le _) trivial) h
    refine ⟨default, trivial, (hb.require hq (by decide)).inside.close [plain .rightBrace]
      (fun _ _ => .inr rfl) ?_⟩
    rintro c' d' new ⟨c₁', hq', ss, hs'⟩ - hd'
    exact ⟨_, ⟨_, .block hq' hs' (require_of_rest hd' rfl)⟩, rfl⟩
  · have hreads := reads_of_read _ (.statements 0) _ _ _ hs
    rcases Except.bind_eq_error_iff.1 h with h | ⟨c₃, -, ⟨⟩⟩
    -- the block may be empty so far
    have hb : Breaks True .rightBrace _ c₁ e _ := (breaks_of_require h).after
      (hreads.rereads trivial) hreads.stop (fun _ _ => ⟨trivial, rfl⟩) fun _ _ => .inr
    refine ⟨default, trivial, (hb.require hq (by decide)).inside.mono ?_⟩
    rintro c' d' ⟨c₁', hq', c₂', ⟨ss, hs'⟩, hr'⟩
    exact ⟨_, .block hq' hs' hr'⟩

private theorem refuses_declaration (hf : Phrase.declaration.Fits (fuel + 1) c)
    (h : Parse.declaration (some loopLimit) .strict (fuel + 1) c = .error e) :
    Phrase.declaration.Opens c e := by
  have hstops : ∀ new, Phrase.declaration.stops new → endsOperators (firstKind? new) = true := by
    rintro new (h | h) <;> rw [h] <;> rfl
  simp only [Parse.declaration] at h
  split at h
  · next ha =>
    have hlet := accept?_eq_none_iff.1 ha
    -- an assignment or a call, if there is no declaration
    obtain ⟨_, -, hb⟩ := ih .assignment _ _
      (hf.of_le (Nat.le_refl _) (by simp [Phrase.rank]) (Nat.le_refl _) trivial) h
    refine ⟨default, trivial, (hb.keep.weaken hstops).mono ?_⟩
    rintro c' d' ⟨hk, s, hs⟩
    exact ⟨s, .declarationAssignment (kind?_ne_of_keep hk hlet (by decide)) hs⟩
  next t c₁ ha =>
  obtain ⟨hn, hk⟩ := accept?_eq_some_iff.1 ha
  rcases Except.bind_eq_error_iff.1 h with h | ⟨⟨name?, c₂⟩, hm, h⟩
  -- the name is missing, which could also be declared without a value
  · have hb : Breaks True .identifier Phrase.declaration.stops c₁ e fun c' d' =>
        ∃ name?, c'.expect .strict .identifier = .ok (name?, d') ∧
          (d'.kind? = none ∨ d'.kind? = some .semicolon) :=
      .now (plain .identifier) [] (expect_eq_error h).2 trivial
        fun _ hnew _ hc' => ⟨_, ⟨_, expect_of_rest hc' rfl, hnew⟩, rfl⟩
    refine ⟨default, trivial, (hb.next hn (.inl (by simp [hk]))).inside.mono ?_⟩
    rintro c' d' ⟨c₁', hn', name?, hm', hend⟩
    exact ⟨_, .declarationBare hn' hk hm' hend⟩
  simp only at h
  split at h
  · cases h
  -- a declaration with a value has an equals sign behind the name
  have hvalue : ∀ {c' d' : Cursor}, c'.require .strict .assign = .ok d' →
      ¬(c'.kind? = none ∨ c'.kind? = some .semicolon) := by
    intro c' d' hr
    rw [kind?_of_require hr]
    rintro (h | h) <;> cases h
  rcases Except.bind_eq_error_iff.1 h with h | ⟨c₃, hr, h⟩
  -- the equals sign is missing
  · have hb := ((breaks_of_require h).expect hm (by decide)).next hn (.inl (by simp [hk]))
    refine ⟨default, trivial, hb.inside.close [plain .identifier] (fun _ _ => trivial) ?_⟩
    rintro c' d' new ⟨c₁', hn', c₂', hm', hr'⟩ hnew hd'
    obtain ⟨e', d'', he', hd''⟩ := @reads_name d' _ 0 hd' (hstops _ hnew)
    exact ⟨d'', ⟨_, .declarationValue hn' hk hm' (hvalue hr') hr' he'⟩, hd''⟩
  -- the value fails
  · rcases Except.bind_eq_error_iff.1 h with h | ⟨⟨value, c₄⟩, -, ⟨⟩⟩
    have hw₃ : c₃.weight < c.weight := Nat.lt_trans (weight_lt_of_require_strict hr)
      (Nat.lt_trans (weight_lt_of_expect_strict hm) (weight_lt_of_next? hn))
    obtain ⟨_, -, hb⟩ := ih (.expr 0) _ _ (hf.of_lt hw₃ (Nat.zero_le _) trivial) h
    have hb := ((hb.require hr (by decide)).expect hm (by decide)).next hn (.inl (by simp [hk]))
    refine ⟨default, trivial, (hb.inside.weaken hstops).mono ?_⟩
    rintro c' d' ⟨c₁', hn', c₂', hm', c₃', hr', e', he'⟩
    exact ⟨_, .declarationValue hn' hk hm' (hvalue hr') hr' he'⟩

private theorem refuses_assignment (hf : Phrase.assignment.Fits (fuel + 1) c)
    (h : Parse.assignment (some loopLimit) .strict (fuel + 1) c = .error e) :
    Phrase.assignment.Opens c e := by
  simp only [Parse.assignment] at h
  split at h
  · next ha =>
    cases h
    refine ⟨default, trivial, .now (plain .identifier) [plain .leftParen, plain .rightParen]
      (liesAt_empty rfl) trivial ?_⟩
    intro new hnew c' hc'
    exact ⟨_, ⟨_, .assignmentCall (next?_of_rest hc') rfl (.suffixesCall (by decide)
      (next?_of_rest rfl) rfl (.argumentsNone (next?_of_rest rfl) rfl)
      (.suffixesDone (by decide) (suffixless_of_ends hnew)))⟩, rfl⟩
  next name c₁ ha =>
  obtain ⟨hn, hk⟩ := accept?_eq_some_iff.1 ha
  have hw := weight_lt_of_next? hn
  rcases Except.bind_eq_error_iff.1 h with h | ⟨⟨⟨target, flag⟩, c₂⟩, hs, h⟩
  · obtain ⟨⟨_, flag⟩, -, hb⟩ := ih (.suffixes ..) _ _ (hf.of_lt hw (Nat.zero_le _) trivial) h
    have hb := hb.next hn (.inl (by simp [hk]))
    cases flag with
    | true =>
      refine ⟨default, trivial, hb.inside.mono ?_⟩
      rintro c' d' ⟨c₁', hn', hread⟩
      obtain ⟨e', he'⟩ := hread _
      exact ⟨_, .assignmentCall hn' hk he'⟩
    | false =>
      refine ⟨default, trivial, hb.inside.close [plain .assign, plain .identifier]
        (fun _ _ => rfl) ?_⟩
      rintro c' d' new ⟨c₁', hn', hread⟩ hnew hd'
      obtain ⟨e', he'⟩ := hread _
      obtain ⟨e'', d'', he'', hd''⟩ := @reads_name (d'.pass (plain .assign) _) _ 0 rfl hnew
      exact ⟨d'', ⟨_, .assignmentValue hn' hk he' (next?_of_rest hd') rfl he''⟩, hd''⟩
  have hreads := reads_of_read _ (.suffixes ..) _ _ _ hs
  cases flag with
  | true => cases h
  | false =>
    simp only [Bool.false_eq_true, if_false] at h
    -- where the operator is missing, an equals sign and a name complete the assignment
    have hmissing : e.LiesAt c₂.stop c₂.rest → Phrase.assignment.Opens c e := by
      intro hl
      have hb : Breaks True .assign Phrase.assignment.stops c₂ e fun c' d' =>
          ∃ t c₁' e', c'.next? = some (t, c₁') ∧ t.kind = .assign ∧
            Reads .strict (.expr 0) c₁' e' d' := by
        refine .now (plain .assign) [plain .identifier] hl trivial fun new hnew c' hc' => ?_
        obtain ⟨e', d', he', hd'⟩ := @reads_name (c'.pass (plain .assign) _) _ 0 rfl hnew
        exact ⟨d', ⟨_, _, e', next?_of_rest hc', rfl, he'⟩, hd'⟩
      have hb : Breaks True .assign _ c₁ e _ := hb.after (hreads.rereads trivial) hreads.stop
        (fun _ _ => ⟨trivial, rfl⟩) fun new _ hk => by simp only [Phrase.stops, hk, endsOperators]
      refine ⟨default, trivial, (hb.next hn (.inl (by simp [hk]))).inside.mono ?_⟩
      rintro c' d' ⟨c₁', hn', c₂', hread, t, c₃', e', hn₂', hk', he'⟩
      obtain ⟨target', ht'⟩ := hread _
      exact ⟨_, .assignmentValue hn' hk ht' hn₂' (by rw [hk']; rfl) he'⟩
    split at h
    · next t rest hr =>
      split at h
      · next op ho =>
        have hn₂ := next?_of_rest hr
        rcases Except.bind_eq_error_iff.1 h with h | ⟨⟨value, c₄⟩, -, ⟨⟩⟩
        have hw₃ := Nat.lt_trans (weight_lt_of_next? hn₂) (Nat.lt_of_le_of_lt hreads.weight.1 hw)
        obtain ⟨_, -, hb⟩ := ih (.expr 0) _ _ (hf.of_lt hw₃ (Nat.zero_le _) trivial) h
        have hb := (hb.next hn₂ (.inr fun hbare => hbare)).behind hreads trivial
        refine ⟨default, trivial, (hb.next hn (.inl (by simp [hk]))).inside.mono ?_⟩
        rintro c' d' ⟨c₁', hn', c₂', hread, c₃', hn₂', e', he'⟩
        obtain ⟨target', ht'⟩ := hread _
        exact ⟨_, .assignmentValue hn' hk ht' hn₂' ho he'⟩
      · cases h
        exact hmissing (liesAt_empty rfl)
    · cases h
      exact hmissing (liesAt_empty rfl)

private theorem refuses_suffixes {rounds : Nat} {node : Expr} {isCall : Bool}
    (hf : (Phrase.suffixes rounds node isCall).Fits (fuel + 1) c)
    (h : Parse.suffixes (some loopLimit) .strict (fuel + 1) rounds node isCall c = .error e) :
    (Phrase.suffixes rounds node isCall).Opens c e := by
  have hl : rounds < loopLimit := Nat.lt_of_le_of_lt (Nat.le_add_right _ _) hf.rounds_lt
  simp only [Parse.suffixes, tick_of_lt hl, Except.ok_bind] at h
  split at h
  · cases h
  next t rest hr =>
  have hn := next?_of_rest hr
  have hw := weight_lt_of_next? hn
  have hl₁ : rounds + 1 < loopLimit := by
    have := hf.rounds_lt
    simp only [Phrase.rounds] at this
    omega
  -- the suffixes may end behind the one that is completed
  have hdone : ∀ {node : Expr} {isCall : Bool} {d' : Cursor} {new : List Token},
      endsOperators (firstKind? new) = true → d'.rest = [] ++ new →
        Reads .strict (.suffixes (rounds + 1) node isCall) d' (node, isCall) d' := by
    intro node isCall d' new hnew hd'
    exact .suffixesDone hl₁ (suffixless_of_ends (by rwa [kind?_of_nil_append hd']))
  split at h
  · next hk =>
    rcases Except.bind_eq_error_iff.1 h with h | ⟨⟨member, c₂⟩, he, h⟩
    · obtain ⟨_, -, hb⟩ := ih (.expr 8) _ _ (hf.of_lt hw (Nat.zero_le _) trivial) h
      refine ⟨(default, false), trivial, (hb.next hn (.inl (by simp [hk]))).inside.close []
        (fun _ h => h) ?_⟩
      rintro c' d' new ⟨c₁', hn', e', he'⟩ hnew hd'
      exact ⟨d', fun node => ⟨_, .suffixesMember hl hn' hk he' (hdone hnew hd')⟩, hd'⟩
    · have hreads := reads_of_read _ (.expr 8) _ _ _ he
      have hw₂ := Nat.lt_of_le_of_lt hreads.weight.1 hw
      obtain ⟨r, -, hb⟩ := ih (.suffixes ..) _ _ (hf.of_lt hw₂ (Nat.le_refl _) trivial) h
      refine ⟨r, trivial, ((hb.behind hreads trivial).next hn (.inl (by simp [hk]))).inside.mono ?_⟩
      rintro c' d' ⟨c₁', hn', c₂', ⟨e', he'⟩, hread⟩ node
      obtain ⟨e'', he''⟩ := hread _
      exact ⟨e'', .suffixesMember hl hn' hk he' he''⟩
  · next hk =>
    rcases Except.bind_eq_error_iff.1 h with h | ⟨⟨args, c₂⟩, he, h⟩
    · obtain ⟨_, -, hb⟩ := ih .arguments _ _ (hf.of_lt hw (Nat.zero_le _) trivial) h
      refine ⟨(default, true), trivial, (hb.next hn (.inl (by simp [hk]))).inside.close []
        (fun _ _ => trivial) ?_⟩
      rintro c' d' new ⟨c₁', hn', e', he'⟩ hnew hd'
      exact ⟨d', fun node => ⟨_, .suffixesCall hl hn' hk he' (hdone hnew hd')⟩, hd'⟩
    · have hreads := reads_of_read _ .arguments _ _ _ he
      have hw₂ := Nat.lt_of_le_of_lt hreads.weight.1 hw
      obtain ⟨r, -, hb⟩ := ih (.suffixes ..) _ _ (hf.of_lt hw₂ (Nat.le_refl _) trivial) h
      refine ⟨r, trivial, ((hb.behind hreads trivial).next hn (.inl (by simp [hk]))).inside.mono ?_⟩
      rintro c' d' ⟨c₁', hn', c₂', ⟨e', he'⟩, hread⟩ node
      obtain ⟨e'', he''⟩ := hread _
      exact ⟨e'', .suffixesCall hl hn' hk he' he''⟩
  · next hk =>
    rcases Except.bind_eq_error_iff.1 h with h | ⟨⟨index, c₂⟩, he, h⟩
    · obtain ⟨_, -, hb⟩ := ih (.expr 1) _ _ (hf.of_lt hw (Nat.zero_le _) trivial) h
      refine ⟨(default, false), trivial, (hb.next hn (.inl (by simp [hk]))).inside.close
        [plain .rightBracket] (fun _ _ => rfl) ?_⟩
      rintro c' d' new ⟨c₁', hn', e', he'⟩ hnew hd'
      exact ⟨_, fun node => ⟨_, .suffixesSubscript hl hn' hk he' (require_of_rest hd' rfl)
        (hdone hnew rfl)⟩, rfl⟩
    have hreads := reads_of_read _ (.expr 1) _ _ _ he
    rcases Except.bind_eq_error_iff.1 h with h | ⟨c₃, hq, h⟩
    · have hb := (breaks_of_require h).beyond hreads trivial (hreads.weight_lt_of_strict rfl)
        fun new hk => by simp only [Phrase.stops, hk, endsOperators]
      refine ⟨(default, false), trivial, (hb.next hn (.inl (by simp [hk]))).inside.close []
        (fun _ _ => trivial) ?_⟩
      rintro c' d' new ⟨c₁', hn', c₂', ⟨e', he'⟩, hr'⟩ hnew hd'
      exact ⟨d', fun node => ⟨_, .suffixesSubscript hl hn' hk he' hr' (hdone hnew hd')⟩, hd'⟩
    · have hw₃ := Nat.lt_trans (weight_lt_of_require_strict hq)
        (Nat.lt_of_le_of_lt hreads.weight.1 hw)
      obtain ⟨r, -, hb⟩ := ih (.suffixes ..) _ _ (hf.of_lt hw₃ (Nat.le_refl _) trivial) h
      have hb := (hb.require hq (by decide)).behind hreads trivial
      refine ⟨r, trivial, (hb.next hn (.inl (by simp [hk]))).inside.mono ?_⟩
      rintro c' d' ⟨c₁', hn', c₂', ⟨e', he'⟩, c₃', hq', hread⟩ node
      obtain ⟨e'', he''⟩ := hread _
      exact ⟨e'', .suffixesSubscript hl hn' hk he' hq' he''⟩
  · cases h

end

/-- Whatever a function of the grammar has read when it fails is the beginning of what it reads. -/
theorem refused (fuel : Nat) : Refused fuel := by
  induction fuel with
  | zero =>
    intro p c e hf
    have := hf.fuel_le
    have := p.one_le_rank c
    simp only [Phrase.fuel] at *
    omega
  | succ fuel ih =>
    intro p c e hf h
    cases p with
    | expr => exact refuses_expr ih hf h
    | operand => exact refuses_operand ih hf h
    | operators => exact refuses_operators ih hf h
    | prefixOperator => exact refuses_prefixOperator ih hf h
    | operator => exact refuses_operator ih hf h
    | arguments => exact refuses_arguments ih hf h
    | functionTail => exact refuses_functionTail ih hf h
    | lambdaTail => exact refuses_lambdaTail ih hf h
    | params => exact refuses_params ih hf h
    | statements => exact refuses_statements ih hf h
    | statement => exact refuses_statement ih hf h
    | simpleStatement => exact refuses_simpleStatement ih hf h
    | forTail => exact refuses_forTail ih hf h
    | initializer => exact refuses_initializer ih hf h
    | condition => exact refuses_condition ih hf h
    | iterator => exact refuses_iterator ih hf h
    | block => exact refuses_block ih hf h
    | declaration => exact refuses_declaration ih hf h
    | assignment => exact refuses_assignment ih hf h
    | suffixes => exact refuses_suffixes ih hf h

end Parse

/-! ## Whole texts -/

namespace Token

variable {source : String} {start stop : Nat} {t : Token} {before behind tokens : List Token}

/-- The tokens behind a place stand in the text as well. -/
theorem Placed.drop (h : Placed source stop start (before ++ behind)) :
    ∃ mid, Placed source stop mid behind ∧ start ≤ mid ∧ ∀ t ∈ before, t.span.stop ≤ mid := by
  induction before generalizing start with
  | nil => exact ⟨start, h, Nat.le_refl _, List.forall_mem_nil _⟩
  | cons t rest ih =>
    obtain ⟨hstart, hspells, hrest⟩ := h
    obtain ⟨mid, hbehind, hmid, hbefore⟩ := ih hrest
    have hle := Nat.le_trans hstart (Nat.le_trans hspells.inText.ordered hmid)
    exact ⟨mid, hbehind, hle, List.forall_mem_cons.2 ⟨hmid, hbefore⟩⟩

theorem Placed.le_startOf (h : Placed source stop start tokens) :
    start ≤ startOf stop tokens := by
  cases tokens with
  | nil => exact h
  | cons t rest => exact h.1

/-- No token starts in front of the first one. -/
theorem Placed.startOf_le (h : Placed source stop start tokens) (ht : t ∈ tokens) :
    startOf stop tokens ≤ t.span.start := by
  induction tokens generalizing start with
  | nil => cases ht
  | cons u rest ih =>
    obtain ⟨-, hspells, hrest⟩ := h
    rcases List.mem_cons.1 ht with rfl | ht
    · exact Nat.le_refl _
    · exact Nat.le_trans hspells.inText.ordered (Nat.le_trans hrest.le_startOf (ih hrest ht))

/-- The tokens of a text in front of a place are those that end there at the latest. -/
theorem filter_of_scan (hscan : scan source = .ok (before ++ behind))
    (h : Placed source stop 0 (before ++ behind)) :
    (before ++ behind).filter (·.span.stop ≤ startOf stop behind) = before := by
  obtain ⟨mid, hbehind, -, hbefore⟩ := h.drop
  have htake : before.filter (·.span.stop ≤ startOf stop behind) = before :=
    List.filter_eq_self.2 fun t ht =>
      decide_eq_true (Nat.le_trans (hbefore t ht) hbehind.le_startOf)
  have hdrop : behind.filter (·.span.stop ≤ startOf stop behind) = [] := by
    refine List.filter_eq_nil_iff.2 fun t ht hle => ?_
    obtain ⟨-, -, -, -, -, hlt⟩ := of_mem_scan hscan (List.mem_append_right _ ht)
    have := hbehind.startOf_le ht
    have := of_decide_eq_true hle
    omega
  rw [List.filter_append, htake, hdrop, List.append_nil]

end Token

/-- An error where tokens of a text start lies in the text. -/
theorem ParseError.LiesAt.inText {e : ParseError} {source : String} {start stop : Nat}
    {tokens : List Token} (h : e.LiesAt stop tokens)
    (hplaced : Token.Placed source stop start tokens) (hstop : IsBoundary source stop) :
    e.span.InText source := by
  obtain ⟨hstart, hspan⟩ := h
  cases tokens with
  | nil =>
    rcases hspan with hspan | ⟨t, ⟨⟩, -⟩
    rw [hspan, hstart]
    exact .empty hstop
  | cons t rest =>
    have ht := hplaced.2.1.inText
    rcases hspan with hspan | ⟨u, hu, -, hspan⟩
    · rw [hspan, hstart]
      exact .empty ht.start
    · cases hu
      rw [hspan]
      exact ht

namespace Code

open Cursor Token

/-- Reads tokens as an expression or as a script. -/
def read (mode : ParseMode) (isScript : Bool) (tokens : List Token) : Except ParseError Code := do
  let c := Cursor.ofTokens tokens
  if isScript then
    let (body, d) ← Parse.statements (some loopLimit) mode c.budget 0 c
    Parse.finish d
    .ok (.statement (.block ⟨c.position, d.position⟩ body))
  else
    let (e, d) ← Parse.expr (some loopLimit) mode c.budget 0 c
    Parse.finish d
    .ok (.expression e)

variable {mode : ParseMode} {isScript : Bool} {source : String} {tokens : List Token}
  {e : ParseError} {c d : Cursor}

theorem start_eq_ok (hscan : Token.scan source = .ok tokens) (hne : tokens ≠ []) :
    Parse.start mode source = .ok (.ofTokens tokens) := by
  unfold Parse.start
  rw [hscan]
  cases tokens with
  | nil => exact absurd rfl hne
  | cons t rest => rfl

/-- A text is read token by token. -/
theorem parse_eq_read (hscan : Token.scan source = .ok tokens) (hne : tokens ≠ []) :
    parse mode isScript source = read mode isScript tokens := by
  have hstart := @start_eq_ok mode _ _ hscan hne
  cases isScript with
  | true =>
    simp only [parse, read, Statement.parseScript, hstart, Except.ok_bind, if_true]
    cases Parse.statements (some loopLimit) mode (Cursor.ofTokens tokens).budget 0
      (.ofTokens tokens) with
    | error e => rfl
    | ok r =>
      obtain ⟨body, d⟩ := r
      simp only [Except.ok_bind]
      cases Parse.finish d <;> rfl
  | false =>
    simp only [parse, read, Expr.parse, hstart, Except.ok_bind, Bool.false_eq_true, if_false]
    cases Parse.expr (some loopLimit) mode (Cursor.ofTokens tokens).budget 0 (.ofTokens tokens) with
    | error e => rfl
    | ok r =>
      obtain ⟨x, d⟩ := r
      simp only [Except.ok_bind]
      cases Parse.finish d <;> rfl

/-- What a text is read as. -/
def phrase (isScript : Bool) : Parse.Phrase := if isScript then .statements 0 else .expr 0

/-- Tokens are read if the rules read all of them. -/
theorem exists_read_of_again {r : (phrase isScript).Result}
    (h : (phrase isScript).Again (.ofTokens tokens) d r) (hd : d.rest = []) :
    ∃ code, read .strict isScript tokens = .ok code := by
  have hfinish := Parse.finish_eq_ok_iff.2 hd
  cases isScript with
  | true =>
    obtain ⟨body, hbody⟩ : ∃ body, Parse.Reads .strict (.statements 0) _ body d := h
    have hread := hbody.read _ Parse.fuel_le_budget
    refine ⟨.statement (.block ⟨(ofTokens tokens).position, d.position⟩ body), ?_⟩
    simp only [Parse.Phrase.read] at hread
    simp only [read, if_true, hread, Except.ok_bind, hfinish]
  | false =>
    obtain ⟨x, hx⟩ : ∃ x, Parse.Reads .strict (.expr 0) _ x d := h
    have hread := hx.read _ Parse.fuel_le_budget
    refine ⟨.expression x, ?_⟩
    simp only [Parse.Phrase.read] at hread
    simp only [read, Bool.false_eq_true, if_false, hread, Except.ok_bind, hfinish]

/-- Tokens are not read if the grammar refuses them or something is left behind what it read. -/
theorem read_eq_error (h : read .strict isScript tokens = .error e) :
    (phrase isScript).read (some loopLimit) .strict (Cursor.ofTokens tokens).budget
        (.ofTokens tokens) = .error e ∨
      ∃ r d t rest, Parse.Reads .strict (phrase isScript) (.ofTokens tokens) r d ∧
        d.rest = t :: rest ∧ e.span = t.span := by
  -- what was read may be followed by a token that belongs to nothing
  have htrailing : ∀ {d}, Parse.finish d = .error e →
      ∃ t rest, d.rest = t :: rest ∧ e.span = t.span := by
    intro d h
    unfold Parse.finish at h
    split at h <;> cases h
    next t rest hr => exact ⟨t, rest, hr, rfl⟩
  cases isScript with
  | true =>
    simp only [read, if_true] at h
    rcases Except.bind_eq_error_iff.1 h with h | ⟨⟨body, d⟩, hbody, h⟩
    · exact .inl h
    · rcases Except.bind_eq_error_iff.1 h with h | ⟨_, -, ⟨⟩⟩
      obtain ⟨t, rest, hr, he⟩ := htrailing h
      exact .inr ⟨body, d, t, rest, Parse.reads_of_read _ (.statements 0) _ _ _ hbody, hr, he⟩
  | false =>
    simp only [read, Bool.false_eq_true, if_false] at h
    rcases Except.bind_eq_error_iff.1 h with h | ⟨⟨x, d⟩, hx, h⟩
    · exact .inl h
    · rcases Except.bind_eq_error_iff.1 h with h | ⟨_, -, ⟨⟩⟩
      obtain ⟨t, rest, hr, he⟩ := htrailing h
      exact .inr ⟨x, d, t, rest, Parse.reads_of_read _ (.expr 0) _ _ _ hx, hr, he⟩

theorem phrase_stops_nil (isScript : Bool) : (phrase isScript).stops [] := by
  cases isScript
  · exact rfl
  · exact .inl rfl

/-- Whether tokens are cut in two where an error lies, so that the first ones can be completed. -/
def Completable (isScript : Bool) (tokens : List Token) (e : ParseError) : Prop :=
  ∃ before behind more code, tokens = before ++ behind ∧
    e.span.start = startOf (Cursor.ofTokens tokens).stop behind ∧ before ++ more ≠ [] ∧
    read .strict isScript (before ++ more) = .ok code

/-- There is a program of either form. -/
theorem exists_read (isScript : Bool) :
    ∃ more code, more ≠ [] ∧ read .strict isScript more = .ok code := by
  cases isScript with
  | true =>
    obtain ⟨code, hcode⟩ := @exists_read_of_again true [plain .semicolon] _ []
      ⟨_, .statementsMore rfl nofun (by decide) (.statementEmpty rfl rfl)
        (.statementsDone (.inl rfl))⟩ rfl
    exact ⟨[plain .semicolon], code, nofun, hcode⟩
  | false =>
    obtain ⟨x, d, hx, hd⟩ := @Parse.reads_name (ofTokens [plain .identifier]) [] 0 rfl rfl
    obtain ⟨code, hcode⟩ := @exists_read_of_again false _ _ x ⟨x, hx⟩ hd
    exact ⟨[plain .identifier], code, nofun, hcode⟩

/-- An error of the grammar lies behind tokens that can be completed. -/
theorem completable_of_refused (hw : (ofTokens tokens).weight < loopLimit)
    (h : (phrase isScript).read (some loopLimit) .strict (ofTokens tokens).budget
      (.ofTokens tokens) = .error e)
    (hplaced : (ofTokens tokens).Placed source) :
    Completable isScript tokens e ∧ e.span.InText source := by
  have hf : (phrase isScript).Fits (ofTokens tokens).budget (ofTokens tokens) := by
    cases isScript <;>
      exact ⟨Parse.fuel_le_budget, by simpa [phrase, Parse.Phrase.rounds] using hw, trivial⟩
  have hopens : (phrase isScript).Opens (ofTokens tokens) e := by
    have := Parse.refused _ _ _ _ hf h
    cases isScript <;> exact this
  obtain ⟨r, -, before, behind, more, hrest, -, hl, hfirst, hread⟩ := hopens
  obtain ⟨d, hagain, hd⟩ := hread [] (phrase_stops_nil _) (ofTokens (before ++ more))
    (by rw [List.append_nil]; rfl)
  obtain ⟨code, hcode⟩ := exists_read_of_again hagain hd
  refine ⟨⟨before, behind, more, code, hrest, hl.1, fun hnil => ?_, hcode⟩, ?_⟩
  · obtain ⟨rfl, rfl⟩ := List.append_eq_nil_iff.1 hnil
    cases (hfirst rfl).2
  · have hrest : (ofTokens tokens).rest = before ++ behind := hrest
    obtain ⟨mid, hbehind, -⟩ := (hrest ▸ hplaced.rest).drop
    exact hl.inText hbehind hplaced.stop

/-- What is left behind a whole program lies behind tokens that can be completed. -/
theorem completable_of_trailing {r : (phrase isScript).Result} {t : Token} {rest : List Token}
    (h : Parse.Reads .strict (phrase isScript) (.ofTokens tokens) r d) (hd : d.rest = t :: rest)
    (he : e.span = t.span) (hplaced : (ofTokens tokens).Placed source) :
    Completable isScript tokens e ∧ e.span.InText source := by
  have hp : (phrase isScript).IsProper := by cases isScript <;> exact trivial
  obtain ⟨before, behind, hc, -, hbecomes, -, hread⟩ :=
    h.rereads hp [] (t :: rest) hd isSeam_nil
  refine ⟨?_, ?_⟩
  · have hstart : e.span.start = startOf (ofTokens tokens).stop behind := by
      rw [he]
      rcases hbecomes with rfl | ⟨-, -, -, -, hstart⟩
      · rfl
      · exact (hstart _).symm
    by_cases hbefore : before = []
    · -- nothing was read, so any program will do
      obtain ⟨more, code, hne, hcode⟩ := exists_read isScript
      subst hbefore
      exact ⟨[], behind, more, code, hc, hstart, hne, hcode⟩
    · obtain ⟨d', hagain, hd'⟩ := hread [] (fun _ => phrase_stops_nil _) (ofTokens (before ++ []))
        rfl
      obtain ⟨code, hcode⟩ := exists_read_of_again hagain hd'
      exact ⟨before, behind, [], code, hc, hstart, by simpa using hbefore, hcode⟩
  · rw [he]
    exact ((h.placed hplaced).1.token (next?_of_rest hd)).1.inText

/-- An error of the strict mode lies in the text at the first token that no program goes on with:
the tokens in front of it are the beginning of a program of the same form. -/
theorem completable_of_parse_eq_error (hscan : Token.scan source = .ok tokens)
    (hlen : tokens.length < loopLimit / 2) (h : parse .strict isScript source = .error e) :
    e.span.InText source ∧ ∃ more code,
      tokens.filter (·.span.stop ≤ e.span.start) ++ more ≠ [] ∧
        read .strict isScript (tokens.filter (·.span.stop ≤ e.span.start) ++ more) = .ok code := by
  by_cases hne : tokens = []
  · subst hne
    have hstart : Parse.start .strict source = .error (.scan (endError source)) := by
      unfold Parse.start
      rw [hscan]
    have he : e = .scan (endError source) := by
      cases isScript <;>
        simp only [parse, Expr.parse, Statement.parseScript, hstart, Except.error_bind] at h <;>
        cases h <;> rfl
    subst he
    have hboundary := IsBoundary.of_append source ""
    rw [String.append_empty] at hboundary
    obtain ⟨more, code, hmore, hcode⟩ := exists_read isScript
    exact ⟨.empty hboundary, more, code, hmore, hcode⟩
  · have hstart : Parse.start .strict source = .ok (.ofTokens tokens) := start_eq_ok hscan hne
    have hplaced := placed_start hstart
    have hw := Parse.weight_start hscan hstart
    rw [parse_eq_read hscan hne] at h
    obtain ⟨⟨before, behind, more, code, rfl, hl, hmore, hcode⟩, hspan⟩ :
        Completable isScript tokens e ∧ e.span.InText source := by
      rcases read_eq_error h with h | ⟨r, d, t, rest, hr, hd, he⟩
      · exact completable_of_refused (by omega) h hplaced
      · exact completable_of_trailing hr hd he hplaced
    refine ⟨hspan, more, code, ?_⟩
    rw [hl, filter_of_scan hscan hplaced.rest]
    exact ⟨hmore, hcode⟩

/-- A script with a string that is no operand, behind a negative number that is a subtraction. -/
theorem completable_of_parse_eq_error_of_subtraction :
    ∃ tokens e, Token.scan "f(a -1 \"é\");" = .ok tokens ∧ tokens.length < loopLimit / 2 ∧
      parse .strict true "f(a -1 \"é\");" = .error e ∧ e.span.InText "f(a -1 \"é\");" ∧
        ∃ more code, tokens.filter (·.span.stop ≤ e.span.start) ++ more ≠ [] ∧
          read .strict true (tokens.filter (·.span.stop ≤ e.span.start) ++ more) = .ok code := by
  have hscan : ((Token.scan "f(a -1 \"é\");").map (·.length)).toOption = some 7 := by
    decide
  have hparse : (parse .strict true "f(a -1 \"é\");").isOk = false := by
    decide +kernel
  cases htokens : Token.scan "f(a -1 \"é\");" with
  | error e =>
    rw [htokens] at hscan
    cases hscan
  | ok tokens =>
    cases hcode : parse .strict true "f(a -1 \"é\");" with
    | ok code =>
      rw [hcode] at hparse
      cases hparse
    | error e =>
      have hlen : tokens.length = 7 := by
        rw [htokens] at hscan
        exact Option.some.inj hscan
      have hlt : tokens.length < loopLimit / 2 := by
        rw [hlen]
        decide
      exact ⟨tokens, e, rfl, hlt, rfl, completable_of_parse_eq_error htokens hlt hcode⟩

end Code

end SearchScript
