import SearchScript.Proofs.Parse.Seam

/-!
# Beginnings of phrases

What was read in front of an error is the beginning of a phrase if some tokens complete it. A
function of the grammar that fails has called others, one of which failed; the tokens that complete
what was read are put together along the calls, from the place of the error outwards.

An error may lie at the cursor at which a function was called. Then the function has read nothing,
and what completes the phrase is the whole of it: the functions that were called before must be able
to end in front of its first token, so that token is part of what is said of the error.

## Key definitions

- `Breaks`: an error lies behind tokens that can be completed
- `Phrase.Opens`: the tokens in front of an error are the beginning of a phrase

## Key results

- `Breaks.next`, `Breaks.require`, `Breaks.expect`: an error behind a token
- `Breaks.behind`, `Breaks.beyond`: an error behind a phrase
- `Breaks.close`: what is begun is completed with further tokens
-/

namespace SearchScript

/-- Whether an error lies where some tokens start, with no width or at the first of them. -/
def ParseError.LiesAt (e : ParseError) (stop : Nat) (tokens : List Token) : Prop :=
  e.span.start = Token.startOf stop tokens ∧
    (e.span = .empty e.span.start ∨
      ∃ t, tokens.head? = some t ∧ t.kind ≠ .minus ∧ e.span = t.span)

theorem ParseError.LiesAt.of_becomes {e : ParseError} {stop : Nat} {as bs : List Token}
    (h : e.LiesAt stop bs) (hb : Token.Becomes as bs) : e.LiesAt stop as := by
  rcases hb with rfl | ⟨minus, rest, rfl, hk, hstart⟩
  · exact h
  · refine ⟨h.1.trans (hstart stop).symm, .inl ?_⟩
    -- an error as wide as a token does not lie at a minus
    rcases h.2 with h | ⟨t, ht, hne, -⟩
    · exact h
    · cases ht
      exact absurd hk hne

/-- A token of a kind, spelt like the kind. -/
def Token.plain (kind : TokenKind) : Token := ⟨kind, .empty 0, kind.describe⟩

namespace Parse

open Cursor Token

/-! ## Errors behind tokens that can be completed -/

/-- Whether an error lies behind tokens that can be completed: what is between the cursor and the
error is read, as `again` says, when further tokens and then any tokens that `stops` allows stand in
the place of those at the error. Where the error lies at the cursor itself, `bare` holds and the
further tokens start with the kind `opening`. -/
def Breaks (bare : Prop) (opening : TokenKind) (stops : List Token → Prop) (c : Cursor)
    (e : ParseError) (again : Cursor → Cursor → Prop) : Prop :=
  ∃ before behind more, c.rest = before ++ behind ∧ IsSeam before behind ∧ e.LiesAt c.stop behind ∧
    (before = [] → bare ∧ firstKind? more = some opening) ∧
    ∀ new, stops new → ∀ c', c'.rest = before ++ (more ++ new) → ∃ d', again c' d' ∧ d'.rest = new

namespace Breaks

variable {bare bare' : Prop} {opening opening' : TokenKind}
  {stops stops' mid : List Token → Prop} {c c₁ : Cursor} {t : Token} {kind : TokenKind}
  {e : ParseError} {again again' : Cursor → Cursor → Prop}

theorem mono (h : Breaks bare opening stops c e again)
    (hag : ∀ c' d', again c' d' → again' c' d') : Breaks bare opening stops c e again' := by
  obtain ⟨before, behind, more, hc, hseam, hl, hfirst, hread⟩ := h
  refine ⟨before, behind, more, hc, hseam, hl, hfirst, fun new hnew c' hc' => ?_⟩
  obtain ⟨d', hag', hd'⟩ := hread new hnew c' hc'
  exact ⟨d', hag c' d' hag', hd'⟩

/-- The error lies at the cursor. -/
theorem now (t : Token) (more : List Token) (hl : e.LiesAt c.stop c.rest) (hbare : bare)
    (hread : ∀ new, stops new → ∀ c', c'.rest = t :: (more ++ new) →
      ∃ d', again c' d' ∧ d'.rest = new) : Breaks bare t.kind stops c e again :=
  ⟨[], c.rest, t :: more, rfl, isSeam_nil, hl, fun _ => ⟨hbare, rfl⟩, hread⟩

/-- The error lies behind a token. A minus must not be followed by a number at the error. -/
theorem next (hn : c.next? = some (t, c₁)) (h : Breaks bare opening stops c₁ e again)
    (ht : t.kind ≠ .minus ∨ (bare → c₁.kind? ≠ some .number)) :
    Breaks False .identifier stops c e
      fun c' d' => ∃ c₁', c'.next? = some (t, c₁') ∧ again c₁' d' := by
  obtain ⟨before, behind, more, hc₁, hseam, hl, hfirst, hread⟩ := h
  have hstop : c₁.stop = c.stop := by
    obtain ⟨rest, -, rfl⟩ := next?_eq_some_iff.1 hn
    rfl
  refine ⟨t :: before, behind, more, ?_, ?_, hstop ▸ hl, nofun, fun new hnew c' hc' => ?_⟩
  · rw [rest_of_next? hn, hc₁, List.cons_append]
  · cases before with
    | nil =>
      rcases ht with ht | ht
      · exact hseam.cons (.inl ht)
      · have hk := ht (hfirst rfl).1
        rintro m n ⟨⟩ hb - hnk
        rw [kind?_of_nil_append hc₁, firstKind?, hb] at hk
        exact hk (congrArg some hnk)
    | cons u before => exact hseam.cons (.inr (List.cons_ne_nil _ _))
  · obtain ⟨d', hag, hd'⟩ := hread new hnew (c'.pass t (before ++ (more ++ new))) rfl
    exact ⟨d', ⟨_, next?_of_rest hc', hag⟩, hd'⟩

/-- The error lies behind a required token. -/
theorem require (hr : c.require .strict kind = .ok c₁) (hk : kind ≠ .minus)
    (h : Breaks bare opening stops c₁ e again) :
    Breaks False .identifier stops c e
      fun c' d' => ∃ c₁', c'.require .strict kind = .ok c₁' ∧ again c₁' d' := by
  rcases require_eq_ok_iff.1 hr with ⟨t, hn, ht⟩ | ⟨-, ⟨⟩, -⟩
  refine (h.next hn (.inl (ht ▸ hk))).mono ?_
  rintro c' d' ⟨c₁', hn', hag⟩
  exact ⟨c₁', require_eq_ok_iff.2 (.inl ⟨t, hn', ht⟩), hag⟩

/-- The error lies behind a required token with its text. -/
theorem expect {t? : Option Token} (he : c.expect .strict kind = .ok (t?, c₁)) (hk : kind ≠ .minus)
    (h : Breaks bare opening stops c₁ e again) :
    Breaks False .identifier stops c e
      fun c' d' => ∃ c₁', c'.expect .strict kind = .ok (t?, c₁') ∧ again c₁' d' := by
  rcases expect_eq_ok_iff.1 he with ⟨t, rfl, hn, ht⟩ | ⟨-, -, ⟨⟩, -⟩
  refine (h.next hn (.inl (ht ▸ hk))).mono ?_
  rintro c' d' ⟨c₁', hn', hag⟩
  exact ⟨c₁', expect_eq_ok_iff.2 (.inl ⟨t, rfl, hn', ht⟩), hag⟩

/-- The error lies behind what was read. Where that may be nothing, the error is bare as before. -/
theorem after {read : Cursor → Cursor → Prop} (h : Rereads mid c c₁ read) (hstop : c₁.stop = c.stop)
    (hb : Breaks bare opening stops c₁ e again)
    (hfirst' : c.weight ≤ c₁.weight → bare → bare' ∧ opening' = opening)
    (hmid : ∀ new, bare → firstKind? new = some opening → mid new) :
    Breaks bare' opening' stops c e fun c' d' => ∃ c₁', read c' c₁' ∧ again c₁' d' := by
  obtain ⟨before₁, behind₁, more, hc₁, hseam₁, hl, hfirst, hread⟩ := hb
  obtain ⟨before, behind, hc, hseam, hbecomes, hnil, hreread⟩ := h before₁ behind₁ hc₁ hseam₁
  -- where nothing is left in front of the break, the next phrase starts with what is new
  have hmore : before₁ = [] → ∀ new, firstKind? (more ++ new) = some opening := by
    intro hnil₁ new
    have hk := (hfirst hnil₁).2
    cases more with
    | nil => cases hk
    | cons t more => exact hk
  refine ⟨before, behind, more, hc, hseam, ?_, fun hnil' => ?_, fun new hnew c' hc' => ?_⟩
  · exact hstop ▸ hl.of_becomes hbecomes
  · obtain ⟨hnil₁, hle⟩ := hnil hnil'
    obtain ⟨hbare, hk⟩ := hfirst hnil₁
    obtain ⟨hbare', rfl⟩ := hfirst' hle hbare
    exact ⟨hbare', hk⟩
  · obtain ⟨c₁', hr, hc₁'⟩ := hreread (more ++ new)
      (fun hnil₁ => hmid _ (hfirst hnil₁).1 (hmore hnil₁ new)) c' hc'
    obtain ⟨d', hag, hd'⟩ := hread new hnew c₁' hc₁'
    exact ⟨d', ⟨c₁', hr, hag⟩, hd'⟩

/-- What is begun is completed with further tokens. -/
theorem close (h : Breaks bare opening stops c e again) (last : List Token)
    (hlast : ∀ new, stops' new → stops (last ++ new))
    (hread : ∀ c' d' new, again c' d' → stops' new → d'.rest = last ++ new →
      ∃ d'', again' c' d'' ∧ d''.rest = new) : Breaks bare opening stops' c e again' := by
  obtain ⟨before, behind, more, hc, hseam, hl, hfirst, hag⟩ := h
  refine ⟨before, behind, more ++ last, hc, hseam, hl, fun hnil => ⟨(hfirst hnil).1, ?_⟩,
    fun new hnew c' hc' => ?_⟩
  · have hk := (hfirst hnil).2
    cases more with
    | nil => cases hk
    | cons t more => exact hk
  · obtain ⟨d', hag', hd'⟩ := hag (last ++ new) (hlast new hnew) c'
      (by rw [hc', List.append_assoc])
    exact hread c' d' new hag' hnew hd'

/-- The next token is the same as before or one of those that complete what was begun. -/
theorem keep (h : Breaks bare opening stops c e again) :
    Breaks bare opening stops c e fun c' d' =>
      (c'.kind? = c.kind? ∨ bare ∧ c'.kind? = some opening) ∧ again c' d' := by
  obtain ⟨before, behind, more, hc, hseam, hl, hfirst, hread⟩ := h
  refine ⟨before, behind, more, hc, hseam, hl, hfirst, fun new hnew c' hc' => ?_⟩
  obtain ⟨d', hag, hd'⟩ := hread new hnew c' hc'
  refine ⟨d', ⟨?_, hag⟩, hd'⟩
  by_cases hnil : before = []
  · subst hnil
    obtain ⟨hbare, hk⟩ := hfirst rfl
    cases more with
    | nil => cases hk
    | cons t more => exact .inr ⟨hbare, (kind?_of_nil_append hc').trans hk⟩
  · exact .inl ((kind?_of_append hc' hnil).trans (kind?_of_append hc hnil).symm)

/-- An error that does not lie at the cursor may be said to lie there in any way. -/
theorem inside (h : Breaks False opening stops c e again) :
    Breaks bare' opening' stops c e again := by
  obtain ⟨before, behind, more, hc, hseam, hl, hfirst, hread⟩ := h
  exact ⟨before, behind, more, hc, hseam, hl, fun hnil => (hfirst hnil).1.elim, hread⟩

/-- Where an error does not lie at the cursor, a token is left. -/
theorem weight_pos (h : Breaks False opening stops c e again) : 0 < c.weight := by
  obtain ⟨before, behind, more, hc, hseam, hl, hfirst, hread⟩ := h
  cases before with
  | nil => exact (hfirst rfl).1.elim
  | cons t before =>
    have := one_le_tokenWeight t
    simp only [Cursor.weight, hc, List.cons_append, List.map_cons, List.sum_cons]
    omega

/-- Whatever was said of a cursor at which the error lies can be said in a weaker form. -/
theorem imp (h : Breaks bare opening stops c e again) (hbare : bare → bare' ∧ opening' = opening) :
    Breaks bare' opening' stops c e again := by
  obtain ⟨before, behind, more, hc, hseam, hl, hfirst, hread⟩ := h
  refine ⟨before, behind, more, hc, hseam, hl, fun hnil => ?_, hread⟩
  obtain ⟨hb, hk⟩ := hfirst hnil
  obtain ⟨hb', rfl⟩ := hbare hb
  exact ⟨hb', hk⟩

/-- Fewer tokens may be allowed to follow. -/
theorem weaken (h : Breaks bare opening stops c e again) (hstops : ∀ new, stops' new → stops new) :
    Breaks bare opening stops' c e again := by
  obtain ⟨before, behind, more, hc, hseam, hl, hfirst, hread⟩ := h
  exact ⟨before, behind, more, hc, hseam, hl, hfirst, fun new hnew => hread new (hstops new hnew)⟩

end Breaks

/-! ## Beginnings of phrases -/

/-- What holds where an error lies at the cursor: the next token is not what the phrase starts with.
Some phrases have always taken a token when they fail. -/
def Phrase.bare (c : Cursor) : Phrase → Prop
  | expr _ | operand => c.kind? ≠ some .number
  | block => c.kind? ≠ some .leftBrace
  | operators _ _ _ _ | prefixOperator _ _ | operator _ _ | suffixes _ _ _ => False
  | _ => True

/-- What a phrase can start with. -/
def Phrase.opening : Phrase → TokenKind
  | block => .leftBrace
  | functionTail _ | forTail _ => .leftParen
  | _ => .identifier

/-- Whether something was read where nothing might be. -/
def Phrase.grown : (p : Phrase) → p.Result → Prop
  | operand, e? => e?.isSome = true
  | prefixOperator _ _, step | operator _ _, step => step ≠ .done
  | _, _ => True

/-- A round that read an operator has grown. -/
theorem Step.more_ne_done (left : Expr) : Step.more left ≠ .done := by
  simp

/-- Whether an error lies behind the beginning of a phrase. -/
def Phrase.Opens (p : Phrase) (c : Cursor) (e : ParseError) : Prop :=
  ∃ r : p.Result, p.grown r ∧
    Breaks (p.bare c) p.opening p.stops c e fun c' d' => p.Again c' d' r

/-- Whether an error lies behind the beginning of a phrase, or where an operator in front of an
operand was looked for. -/
def Phrase.Refuses (c : Cursor) (e : ParseError) : Phrase → Prop
  | operators depth start rounds none =>
    (operators depth start rounds none).Opens c e ∨ e.LiesAt c.stop c.rest
  | prefixOperator depth start => (prefixOperator depth start).Opens c e ∨ e.LiesAt c.stop c.rest
  | p => p.Opens c e

/-- How often a loop of the parser has gone round. -/
def Phrase.rounds : Phrase → Nat
  | operators _ _ rounds _ | params _ rounds | statements rounds | suffixes rounds _ _ => rounds
  | _ => 0

/-- Whether no bound ends the reading of a phrase. -/
structure Phrase.Fits (fuel : Nat) (p : Phrase) (c : Cursor) : Prop where
  fuel_le : p.fuel c ≤ fuel
  rounds_lt : p.rounds + c.weight < loopLimit
  proper : p.IsProper

variable {fuel : Nat} {p q : Phrase} {c d c₁ : Cursor} {e : ParseError} {t : Token}
  {kind : TokenKind}

/-- Once a token is taken, any phrase fits. -/
theorem Phrase.Fits.of_lt (h : p.Fits (fuel + 1) c) (hw : d.weight < c.weight)
    (hr : q.rounds ≤ p.rounds + 1) (hq : q.IsProper) : q.Fits fuel d where
  fuel_le := fuel_of_lt hw h.fuel_le
  rounds_lt := by
    have := h.rounds_lt
    omega
  proper := hq

/-- A phrase of lower rank fits at the same place. -/
theorem Phrase.Fits.of_le (h : p.Fits (fuel + 1) c) (hw : d.weight ≤ c.weight)
    (hrank : q.rank d < p.rank c) (hr : q.rounds ≤ p.rounds) (hq : q.IsProper) : q.Fits fuel d where
  fuel_le := fuel_of_le hw h.fuel_le hrank
  rounds_lt := by
    have := h.rounds_lt
    omega
  proper := hq

/-! ## Errors at the cursor -/

theorem position_eq_startOf (c : Cursor) : c.position = startOf c.stop c.rest := by
  cases hr : c.rest <;> simp only [position, startOf, hr]

theorem liesAt_empty (h : e.span = .empty c.position) : e.LiesAt c.stop c.rest :=
  ⟨by rw [h, ← position_eq_startOf]; rfl, .inl (by rw [h]; rfl)⟩

theorem expect_eq_error (h : c.expect .strict kind = .error e) :
    c.kind? ≠ some kind ∧ e.LiesAt c.stop c.rest := by
  unfold expect at h
  split at h
  · cases h
  · cases h
  · next ha _ hr =>
    cases h
    exact ⟨accept?_eq_none_iff.1 ha, liesAt_empty (by simp [ParseError.span, position, hr])⟩
  · next ha _ hr =>
    cases h
    exact ⟨accept?_eq_none_iff.1 ha, liesAt_empty rfl⟩

theorem require_eq_error (h : c.require .strict kind = .error e) :
    c.kind? ≠ some kind ∧ e.LiesAt c.stop c.rest := by
  unfold Cursor.require at h
  split at h
  · cases h
  · next he =>
    cases h
    exact expect_eq_error he

theorem stop_of_next? (h : c.next? = some (t, d)) : d.stop = c.stop := by
  obtain ⟨rest, -, rfl⟩ := next?_eq_some_iff.1 h
  rfl

theorem stop_of_require (h : c.require .strict kind = .ok d) : d.stop = c.stop := by
  rcases require_eq_ok_iff.1 h with ⟨t, hn, -⟩ | ⟨-, ⟨⟩, -⟩
  exact stop_of_next? hn

theorem stop_of_expect {t? : Option Token} (h : c.expect .strict kind = .ok (t?, d)) :
    d.stop = c.stop := by
  rcases expect_eq_ok_iff.1 h with ⟨t, -, hn, -⟩ | ⟨-, -, ⟨⟩, -⟩
  exact stop_of_next? hn

theorem stop_splitNegative (c : Cursor) : c.splitNegative.stop = c.stop := by
  unfold Cursor.splitNegative
  split
  · split <;> rfl
  · rfl

/-- Reading does not change where the text ends. -/
theorem Reads.stop {r : p.Result} (h : Reads .strict p c r d) : d.stop = c.stop := by
  induction h with
  | _ =>
    grind [→ stop_of_next?, → stop_of_require, → stop_of_expect, stop_splitNegative,
      → eq_of_missing, → eq_of_unassigned]

/-! ## Completing -/

section

variable {c' : Cursor} {new : List Token}

theorem require_of_rest (h : c'.rest = t :: new) (hk : t.kind = kind) :
    c'.require .strict kind = .ok (c'.pass t new) :=
  require_eq_ok_iff.2 (.inl ⟨t, next?_of_rest h, hk⟩)

theorem expect_of_rest (h : c'.rest = t :: new) (hk : t.kind = kind) :
    c'.expect .strict kind = .ok (some t, c'.pass t new) :=
  expect_eq_ok_iff.2 (.inl ⟨t, rfl, next?_of_rest h, hk⟩)

/-- The loop of the operators ends in front of tokens that end operators. -/
theorem reads_operators_end {depth start rounds : Nat} {left : Expr} (hr : rounds < loopLimit)
    (h : endsOperators c'.kind? = true) :
    Reads .strict (.operators depth start rounds (some left)) c' left c' := by
  refine .operatorsDone hr ?_
  rw [splitNegative_of_kind? (number_ne_of_ends h)]
  exact .infixDone (noInfix_of_ends h depth)

/-- A name can stand where an expression is missing. -/
theorem reads_name {depth : Nat} (h : c'.rest = plain .identifier :: new)
    (hnew : endsOperators (firstKind? new) = true) :
    ∃ e d, Reads .strict (.expr depth) c' e d ∧ d.rest = new := by
  have hkind := kind?_of_rest h
  have hend : (c'.pass (plain .identifier) new).kind? = firstKind? new := rfl
  refine ⟨_, _, .exprOperators (by rw [hkind]; nofun) (by rw [hkind]; nofun)
    (.operandAtom (next?_of_rest h) rfl) (reads_operators_end (by decide) ?_), rfl⟩
  rw [hend]
  exact hnew

/-- An empty block can stand where a block is missing. -/
theorem reads_braces (h : c'.rest = plain .leftBrace :: plain .rightBrace :: new) :
    ∃ s d, Reads .strict .block c' s d ∧ d.rest = new := by
  refine ⟨_, _, .block (require_of_rest h rfl) (.statementsDone (.inr rfl))
    (require_of_rest rfl rfl), rfl⟩

end

/-- A required token is missing at the cursor. -/
theorem breaks_of_require (h : c.require .strict kind = .error e) :
    Breaks True kind (fun _ => True) c e fun c' d' => c'.require .strict kind = .ok d' :=
  .now (plain kind) [] (require_eq_error h).2 trivial
    fun _ _ _ hc' => ⟨_, require_of_rest hc' rfl, rfl⟩

/-- The error lies behind a phrase and a token. -/
theorem Breaks.behind {opening : TokenKind} {stops : List Token → Prop}
    {again : Cursor → Cursor → Prop} {r : p.Result} (hb : Breaks False opening stops c₁ e again)
    (hr : Reads .strict p c r c₁) (hp : p.IsProper) :
    Breaks False .identifier stops c e fun c' d' => ∃ c₁', p.Again c' c₁' r ∧ again c₁' d' :=
  hb.after (hr.rereads hp) hr.stop (fun _ => False.elim) fun _ => False.elim

/-- The error lies at the cursor or further behind a phrase that took a token. -/
theorem Breaks.beyond {bare : Prop} {opening : TokenKind} {stops : List Token → Prop}
    {again : Cursor → Cursor → Prop} {r : p.Result} (hb : Breaks bare opening stops c₁ e again)
    (hr : Reads .strict p c r c₁) (hp : p.IsProper) (hw : c₁.weight < c.weight)
    (hstops : ∀ new, firstKind? new = some opening → p.stops new) :
    Breaks False .identifier stops c e fun c' d' => ∃ c₁', p.Again c' c₁' r ∧ again c₁' d' :=
  hb.after (hr.rereads hp) hr.stop (fun hle => absurd hw (Nat.not_lt.2 hle))
    fun new _ => hstops new

/-- A token that neither was at the cursor nor completes what was begun does not stand there. -/
theorem kind?_ne_of_keep {c' : Cursor} {bare : Prop} {opening : TokenKind}
    (h : c'.kind? = c.kind? ∨ bare ∧ c'.kind? = some opening) (hc : c.kind? ≠ some kind)
    (ho : opening ≠ kind) : c'.kind? ≠ some kind := by
  rcases h with h | ⟨-, h⟩ <;> rw [h]
  · exact hc
  · exact fun hk => ho (Option.some.inj hk)

end Parse

end SearchScript
