import SearchScript.Proofs.Parse.Cut

/-!
# Exchanging the tokens behind a seam

What the strict rules read does not depend on the tokens behind it, as long as those end it: up to a
seam in the tokens a phrase is read again, whatever other tokens follow the seam, if at least one
token in front of the seam is left or the first one behind it lets the phrase end.

The proof goes through every rule twice: backwards, to find the seam among the tokens of the cursor
that the rule starts from, and forwards, to read the phrase again from there. Only where a negative
number was cut in two are the tokens that are left not the end of those that were there before.

## Key definitions

- `Rereads stops c d again`: the tokens from `c` to `d` can be read again, as `again` says, in front
  of any tokens that `stops` allows
- `Phrase.stops`: which tokens let a phrase end

## Key results

- `Reads.rereads`: what is strictly read can be read again
-/

namespace SearchScript

namespace Token

/-- Where tokens start, or the end of the text where there are none. -/
def startOf (stop : Nat) : List Token → Nat
  | t :: _ => t.span.start
  | [] => stop

/-- The kind of the first of some tokens. -/
def firstKind? (tokens : List Token) : Option TokenKind := tokens.head?.map (·.kind)

/-- Whether a seam does not fall between a minus and a number. -/
def IsSeam (before behind : List Token) : Prop :=
  ∀ m n, before.getLast? = some m → behind.head? = some n → m.kind = .minus → n.kind ≠ .number

/-- Whether tokens are the same as others, or the others are what becomes of them when a negative
number in front is cut. -/
def Becomes (tokens others : List Token) : Prop :=
  tokens = others ∨ ∃ minus rest, others = minus :: rest ∧ minus.kind = .minus ∧
    ∀ stop, startOf stop tokens = startOf stop others

variable {t : Token} {before behind as bs cs : List Token}

theorem isSeam_nil : IsSeam [] behind := by
  rintro m n ⟨⟩

theorem IsSeam.cons (h : IsSeam before behind) (ht : t.kind ≠ .minus ∨ before ≠ []) :
    IsSeam (t :: before) behind := by
  intro m n hm hn hk
  cases before with
  | nil =>
    cases hm
    rcases ht with ht | ht
    · exact absurd hk ht
    · exact absurd rfl ht
  | cons u before =>
    rw [List.getLast?_cons_cons] at hm
    exact h m n hm hn hk

/-- The token in front of the last ones does not matter unless it is a minus. -/
theorem IsSeam.replace {m n : Token} (h : IsSeam (m :: n :: before) behind)
    (ht : t.kind ≠ .minus) : IsSeam (t :: before) behind := by
  cases before with
  | nil =>
    rintro m' n' ⟨⟩ - hk
    exact absurd hk ht
  | cons u before =>
    intro m' n' hm'
    rw [List.getLast?_cons_cons] at hm'
    exact h m' n' (by rw [List.getLast?_cons_cons, List.getLast?_cons_cons, hm'])

theorem Becomes.trans (h : Becomes as bs) (h' : Becomes bs cs) : Becomes as cs := by
  rcases h' with rfl | ⟨minus, rest, rfl, hk, hstart⟩
  · exact h
  · rcases h with rfl | ⟨-, -, -, -, hstart'⟩
    · exact .inr ⟨minus, rest, rfl, hk, hstart⟩
    · exact .inr ⟨minus, rest, rfl, hk, fun stop => (hstart' stop).trans (hstart stop)⟩

end Token

namespace Cursor

variable {c d : Cursor} {before behind new : List Token}

theorem kind?_of_append (h : c.rest = before ++ behind) (hne : before ≠ []) :
    c.kind? = Token.firstKind? before := by
  cases before with
  | nil => exact absurd rfl hne
  | cons t before => simp [kind?, Token.firstKind?, h]

theorem kind?_of_nil_append (h : c.rest = [] ++ behind) : c.kind? = Token.firstKind? behind := by
  simp [kind?, Token.firstKind?, h]

/-- Whether a token in front is cut in two depends on the token alone. -/
theorem splitNegative_cases (t : Token) :
    (∀ c : Cursor, ∀ rest, c.rest = t :: rest → c.splitNegative = c) ∨
      ∃ minus number, t.kind = .number ∧ minus.kind = .minus ∧ number.kind = .number ∧
        minus.span.start = t.span.start ∧
        ∀ c : Cursor, ∀ rest, c.rest = t :: rest →
          c.splitNegative.rest = minus :: number :: rest := by
  cases hs : splitToken? t with
  | none =>
    refine .inl fun c rest hr => ?_
    unfold splitNegative
    simp only [hr, hs]
  | some pair =>
    obtain ⟨minus, number⟩ := pair
    obtain ⟨hk, hm, hn, hstart⟩ : t.kind = .number ∧ minus.kind = .minus ∧
        number.kind = .number ∧ minus.span.start = t.span.start := by
      unfold splitToken? at hs
      split at hs <;> cases hs
      next hk _ => exact ⟨hk, rfl, rfl, rfl⟩
    refine .inr ⟨minus, number, hk, hm, hn, hstart, fun c rest hr => ?_⟩
    unfold splitNegative
    simp only [hr, hs]

end Cursor

namespace Parse

open Cursor Token

/-- Whether the tokens from a cursor to another one can be read again, in the way that `again` says,
in front of any tokens that `stops` allows: for every seam behind the second cursor there is one
behind the first, in front of which this is so. A seam where no token is left in front of it is one
where `stops` matters. -/
def Rereads (stops : List Token → Prop) (c d : Cursor) (again : Cursor → Cursor → Prop) : Prop :=
  ∀ before behind, d.rest = before ++ behind → IsSeam before behind →
    ∃ before' behind', c.rest = before' ++ behind' ∧ IsSeam before' behind' ∧
      Becomes behind' behind ∧ (before' = [] → before = [] ∧ c.weight ≤ d.weight) ∧
      ∀ new, (before = [] → stops new) → ∀ c', c'.rest = before' ++ new →
        ∃ d', again c' d' ∧ d'.rest = before ++ new

namespace Rereads

variable {stops stops' : List Token → Prop} {c c₁ d : Cursor} {t : Token} {kind : TokenKind}
  {again again' : Cursor → Cursor → Prop}

theorem mono (h : Rereads stops c d again) (hag : ∀ c' d', again c' d' → again' c' d') :
    Rereads stops c d again' := by
  intro before behind hd hseam
  obtain ⟨before', behind', hc, hseam', hb, hnil, hread⟩ := h before behind hd hseam
  refine ⟨before', behind', hc, hseam', hb, hnil, fun new hnew c' hc' => ?_⟩
  obtain ⟨d', hag', hd'⟩ := hread new hnew c' hc'
  exact ⟨d', hag c' d' hag', hd'⟩

/-- Fewer tokens may be allowed to follow. -/
theorem weaken (h : Rereads stops c d again) (hstops : ∀ new, stops' new → stops new) :
    Rereads stops' c d again := by
  intro before behind hd hseam
  obtain ⟨before', behind', hc, hseam', hb, hnil, hread⟩ := h before behind hd hseam
  exact ⟨before', behind', hc, hseam', hb, hnil,
    fun new hnew c' hc' => hread new (fun h => hstops new (hnew h)) c' hc'⟩

/-- Nothing is read where the kind of the next token says so. -/
theorem stay {P : Option TokenKind → Prop} (hc : P c.kind?)
    (hstops : ∀ new, stops new → P (firstKind? new)) :
    Rereads stops c c fun c' d' => d' = c' ∧ P c'.kind? := by
  intro before behind hd hseam
  refine ⟨before, behind, hd, hseam, .inl rfl, fun h => ⟨h, Nat.le_refl _⟩, ?_⟩
  intro new hnew c' hc'
  refine ⟨c', ⟨rfl, ?_⟩, hc'⟩
  by_cases hne : before = []
  · subst hne
    rw [kind?_of_nil_append hc']
    exact hstops new (hnew rfl)
  · rw [kind?_of_append hc' hne, ← kind?_of_append hd hne]
    exact hc

/-- Nothing is left to be read. -/
theorem done : Rereads stops c c fun c' d' => d' = c' :=
  (stay (P := fun _ => True) trivial fun _ _ => trivial).mono fun _ _ h => h.1

/-- A token is taken and the rest is read again. A minus in front of a number must not be all. -/
theorem next (hn : c.next? = some (t, c₁)) (ht : t.kind ≠ .minus ∨ d.weight < c₁.weight)
    (h : Rereads stops c₁ d again) :
    Rereads stops c d fun c' d' => ∃ c₁', c'.next? = some (t, c₁') ∧ again c₁' d' := by
  intro before behind hd hseam
  obtain ⟨before', behind', hc₁, hseam', hb, hnil, hread⟩ := h before behind hd hseam
  refine ⟨t :: before', behind', ?_, hseam'.cons ?_, hb, nofun, fun new hnew c' hc' => ?_⟩
  · rw [rest_of_next? hn, hc₁, List.cons_append]
  · refine ht.imp_right fun hlt hnil' => ?_
    have := (hnil hnil').2
    omega
  · obtain ⟨d', hag, hd'⟩ := hread new hnew (c'.pass t (before' ++ new)) rfl
    exact ⟨d', ⟨_, next?_of_rest hc', hag⟩, hd'⟩

/-- A required token is taken and the rest is read again. -/
theorem require (hr : c.require .strict kind = .ok c₁) (hk : kind ≠ .minus)
    (h : Rereads stops c₁ d again) :
    Rereads stops c d fun c' d' => ∃ c₁', c'.require .strict kind = .ok c₁' ∧ again c₁' d' := by
  rcases require_eq_ok_iff.1 hr with ⟨t, hn, ht⟩ | ⟨-, ⟨⟩, -⟩
  refine (h.next hn (.inl (ht ▸ hk))).mono ?_
  rintro c' d' ⟨c₁', hn', hag⟩
  exact ⟨c₁', require_eq_ok_iff.2 (.inl ⟨t, hn', ht⟩), hag⟩

/-- A required token with its text is taken and the rest is read again. -/
theorem expect {t? : Option Token} (he : c.expect .strict kind = .ok (t?, c₁)) (hk : kind ≠ .minus)
    (h : Rereads stops c₁ d again) :
    Rereads stops c d
      fun c' d' => ∃ c₁', c'.expect .strict kind = .ok (t?, c₁') ∧ again c₁' d' := by
  rcases expect_eq_ok_iff.1 he with ⟨t, rfl, hn, ht⟩ | ⟨-, -, ⟨⟩, -⟩
  refine (h.next hn (.inl (ht ▸ hk))).mono ?_
  rintro c' d' ⟨c₁', hn', hag⟩
  exact ⟨c₁', expect_eq_ok_iff.2 (.inl ⟨t, rfl, hn', ht⟩), hag⟩

/-- Two stretches are read again, one after the other. The first one ends where the second one
starts: that matters where the second one is empty. -/
theorem trans (h : Rereads stops' c c₁ again) (h' : Rereads stops c₁ d again')
    (hstops : d.weight < c₁.weight ∨ ∀ new, stops new → stops' new) :
    Rereads stops c d fun c' d' => ∃ c₁', again c' c₁' ∧ again' c₁' d' := by
  intro before behind hd hseam
  obtain ⟨before₁, behind₁, hc₁, hseam₁, hb₁, hnil₁, hread₁⟩ := h' before behind hd hseam
  obtain ⟨before', behind', hc, hseam', hb', hnil', hread'⟩ := h before₁ behind₁ hc₁ hseam₁
  refine ⟨before', behind', hc, hseam', hb'.trans hb₁, fun hnil => ?_, fun new hnew c' hc' => ?_⟩
  · obtain ⟨hnil, hle⟩ := hnil' hnil
    obtain ⟨hnil, hle₁⟩ := hnil₁ hnil
    exact ⟨hnil, Nat.le_trans hle hle₁⟩
  · have hnew₁ : before₁ = [] → stops' new := fun hnil => by
      obtain ⟨hnil, hle⟩ := hnil₁ hnil
      rcases hstops with hlt | hstops
      · omega
      · exact hstops new (hnew hnil)
    obtain ⟨c₁', hag, hc₁'⟩ := hread' new hnew₁ c' hc'
    obtain ⟨d', hag', hd'⟩ := hread₁ new hnew c₁' hc₁'
    exact ⟨d', ⟨c₁', hag, hag'⟩, hd'⟩

/-- Where a token is taken, the next one is the same as before. -/
theorem keep (h : Rereads stops c d again) (hlt : d.weight < c.weight) :
    Rereads stops c d fun c' d' => c'.kind? = c.kind? ∧ again c' d' := by
  intro before behind hd hseam
  obtain ⟨before', behind', hc, hseam', hb, hnil, hread⟩ := h before behind hd hseam
  have hne : before' ≠ [] := fun hnil' => by
    have := (hnil hnil').2
    omega
  refine ⟨before', behind', hc, hseam', hb, hnil, fun new hnew c' hc' => ?_⟩
  obtain ⟨d', hag, hd'⟩ := hread new hnew c' hc'
  exact ⟨d', ⟨(kind?_of_append hc' hne).trans (kind?_of_append hc hne).symm, hag⟩, hd'⟩

/-- A negative number that was cut is cut again. The seam is not inside of it. -/
theorem splitNegative (h : Rereads stops c.splitNegative d again)
    (hstops : ∀ new, stops new → firstKind? new ≠ some .number) :
    Rereads stops c d fun c' d' => again c'.splitNegative d' := by
  intro before behind hd hseam
  obtain ⟨before', behind', hc, hseam', hb, hnil, hread⟩ := h before behind hd hseam
  rw [weight_splitNegative] at hnil
  -- where no token stands in front of the seam, what follows it is no number
  have hfirst : before' = [] → ∀ new, (before = [] → stops new) → ∀ c' : Cursor,
      c'.rest = [] ++ new → c'.splitNegative = c' := fun h new hnew c' hc' =>
    splitNegative_of_kind? (by rw [kind?_of_nil_append hc']; exact hstops new (hnew (hnil h).1))
  cases hr : c.rest with
  | nil =>
    rw [splitNegative_of_kind? (by simp [kind?_of_rest_nil hr]), hr] at hc
    obtain ⟨rfl, rfl⟩ := List.append_eq_nil_iff.1 hc.symm
    refine ⟨[], [], rfl, isSeam_nil, hb, hnil, fun new hnew c' hc' => ?_⟩
    exact hread new hnew _ (by rw [hfirst rfl new hnew c' hc', hc'])
  | cons t rest =>
    rcases splitNegative_cases t with hcut | ⟨minus, number, hk, hm, hn, hstart, hcut⟩
    · rw [hcut c rest hr, hr] at hc
      refine ⟨before', behind', hc, hseam', hb, hnil, fun new hnew c' hc' => ?_⟩
      refine hread new hnew _ ?_
      cases before' with
      | nil => rw [hfirst rfl new hnew c' hc', hc']
      | cons u before' =>
        cases hc
        rw [hcut c' _ hc', hc']
    · rw [hcut c rest hr] at hc
      match before', hc with
      | [], hc =>
        -- the seam is in front of the number, which is whole again there
        rw [List.nil_append] at hc
        have hbecomes : Becomes (t :: rest) behind' :=
          .inr ⟨minus, number :: rest, hc.symm, hm, fun stop => by rw [← hc]; exact hstart.symm⟩
        refine ⟨[], t :: rest, rfl, isSeam_nil, hbecomes.trans hb, hnil, fun new hnew c' hc' => ?_⟩
        exact hread new hnew _ (by rw [hfirst rfl new hnew c' hc', hc'])
      | [m], hc =>
        cases hc
        exact absurd hn (hseam' minus number rfl rfl hm)
      | m :: n :: before', hc =>
        cases hc
        refine ⟨t :: before', behind', rfl, ?_, hb, nofun, fun new hnew c' hc' => ?_⟩
        · exact hseam'.replace (hk ▸ nofun)
        · exact hread new hnew _ (by rw [hcut c' _ hc']; rfl)

end Rereads

/-! ## Reading phrases again -/

/-- Whether no operator, suffix or operand starts with a token, and no `else`. -/
def endsOperators : Option TokenKind → Bool
  | none | some .rightParen | some .rightBracket | some .rightBrace | some .colon
  | some .semicolon | some .assign => true
  | _ => false

/-- Which tokens let a phrase end. A phrase whose last token is a token of its own, like a block,
ends in front of any. -/
def Phrase.stops : Phrase → List Token → Prop
  | expr _, new | operators _ _ _ _, new | prefixOperator _ _, new | operator _ _, new
  | lambdaTail _, new | assignment, new | suffixes _ _ _, new | operand, new =>
    endsOperators (firstKind? new) = true
  | statement, new | forTail _, new => firstKind? new ≠ some .elseWord
  | statements _, new => firstKind? new = none ∨ firstKind? new = some .rightBrace
  | declaration, new => firstKind? new = none ∨ firstKind? new = some .semicolon
  | arguments, _ | functionTail _, _ | params _ _, _ | simpleStatement, _ | initializer, _
  | condition, _ | iterator, _ | block, _ => True

/-- Whether a phrase is read between two cursors with a result of the same kind as before, wherever
it was begun and whatever operand it continues. -/
def Phrase.Again (c d : Cursor) : (p : Phrase) → p.Result → Prop
  | operators depth _ rounds none, _ =>
    ∀ start, ∃ e, Reads .strict (.operators depth start rounds none) c e d
  | operators depth _ rounds (some _), _ =>
    ∀ start left, ∃ e, Reads .strict (.operators depth start rounds (some left)) c e d
  | operand, none => Reads .strict .operand c none d
  | operand, some _ => ∃ e, Reads .strict .operand c (some e) d
  | prefixOperator depth _, .done => ∀ start, Reads .strict (.prefixOperator depth start) c .done d
  | prefixOperator depth _, .more _ =>
    ∀ start, ∃ e, Reads .strict (.prefixOperator depth start) c (.more e) d
  | operator depth _, .done => ∀ left, Reads .strict (.operator depth left) c .done d
  | operator depth _, .more _ => ∀ left, ∃ e, Reads .strict (.operator depth left) c (.more e) d
  | functionTail _, _ => ∀ start, ∃ e, Reads .strict (.functionTail start) c e d
  | lambdaTail _, _ => ∀ start, ∃ e, Reads .strict (.lambdaTail start) c e d
  | forTail _, _ => ∀ start, ∃ s, Reads .strict (.forTail start) c s d
  | suffixes rounds _ isCall, (_, flag) =>
    ∀ node, ∃ e, Reads .strict (.suffixes rounds node isCall) c (e, flag) d
  | expr depth, _ => ∃ e, Reads .strict (.expr depth) c e d
  | arguments, _ => ∃ e, Reads .strict .arguments c e d
  | params closing rounds, _ => ∃ names, Reads .strict (.params closing rounds) c names d
  | statements rounds, _ => ∃ ss, Reads .strict (.statements rounds) c ss d
  | statement, _ => ∃ s, Reads .strict .statement c s d
  | simpleStatement, _ => ∃ s, Reads .strict .simpleStatement c s d
  | initializer, _ => ∃ s?, Reads .strict .initializer c s? d
  | condition, _ => ∃ e?, Reads .strict .condition c e? d
  | iterator, _ => ∃ s?, Reads .strict .iterator c s? d
  | block, _ => ∃ s, Reads .strict .block c s d
  | declaration, _ => ∃ s, Reads .strict .declaration c s d
  | assignment, _ => ∃ s, Reads .strict .assignment c s d

variable {p : Phrase} {c d : Cursor} {kind? : Option TokenKind}

theorem noPrefix_of_ends (h : endsOperators kind? = true) (depth : Nat) :
    noPrefix depth kind? = true := by
  unfold endsOperators at h
  split at h <;> first
    | contradiction
    | simp [noPrefix, UnaryOp.ofToken?, TokenKind.infixDepth?, BinaryOp.ofToken?]

theorem noInfix_of_ends (h : endsOperators kind? = true) (depth : Nat) :
    noInfix depth kind? = true := by
  unfold endsOperators at h
  split at h <;> first | contradiction | simp [noInfix, TokenKind.infixDepth?, BinaryOp.ofToken?]

theorem number_ne_of_ends (h : endsOperators kind? = true) : kind? ≠ some .number := by
  rintro rfl
  cases h

/-- No operand starts with a token that ends operators. -/
theorem operandless_of_ends (h : endsOperators kind? = true) :
    kind? ≠ some .leftParen ∧ ∀ kind, kind? = some kind → startsAtom kind = false := by
  unfold endsOperators at h
  split at h <;> first | contradiction | simp [startsAtom]

theorem suffixless_of_ends (h : endsOperators kind? = true) :
    ∀ kind, kind? = some kind → startsSuffix kind = false := by
  unfold endsOperators at h
  split at h <;> first | contradiction | simp [startsSuffix]

/-- What is strictly read can be read again. -/
theorem Reads.rereads {r : p.Result} (h : Reads .strict p c r d) (hp : p.IsProper) :
    Rereads p.stops c d fun c' d' => p.Again c' d' r := by
  induction h with
  | exprFunction hn hk _ ih =>
    refine (((ih trivial).weaken fun _ _ => trivial).next hn (.inl (hk ▸ nofun))).mono ?_
    rintro c' d' ⟨c₁', hn', hread⟩
    obtain ⟨e, he⟩ := hread c'.position
    exact ⟨e, .exprFunction hn' hk he⟩
  | exprLambda hn hk _ ih =>
    refine ((ih trivial).next hn (.inl (hk ▸ nofun))).mono ?_
    rintro c' d' ⟨c₁', hn', hread⟩
    obtain ⟨e, he⟩ := hread c'.position
    exact ⟨e, .exprLambda hn' hk he⟩
  | @exprOperators depth _ node? _ _ _ hf hl ho hs iho ihs =>
    have hwhole : Reads .strict (.expr depth) _ _ _ := .exprOperators hf hl ho hs
    have hlt := hwhole.weight_lt_of_strict rfl
    refine (((iho trivial).trans (ihs trivial) (.inr fun _ h => h)).keep hlt).mono ?_
    rintro c' d' ⟨hkind, c₁', ho', hs'⟩
    rw [← hkind] at hf hl
    cases node? with
    | none =>
      obtain ⟨e, he⟩ := hs' c'.position
      exact ⟨e, .exprOperators hf hl ho' he⟩
    | some left =>
      obtain ⟨left', hleft⟩ := ho'
      obtain ⟨e, he⟩ := hs' c'.position left'
      exact ⟨e, .exprOperators hf hl hleft he⟩
  | operandParens hn hk he hr ih =>
    have hlt := weight_lt_of_require_strict hr
    refine (((ih trivial).trans (.require hr nofun .done) (.inl hlt)).next hn
      (.inl (hk ▸ nofun))).mono ?_
    rintro c' d' ⟨c₁', hn', c₂', ⟨e, he'⟩, c₃', hr', rfl⟩
    exact ⟨e, .operandParens hn' hk he' hr'⟩
  | @operandAtom _ t _ e hn ha =>
    have hk : t.kind ≠ .minus := fun hk => by
      have := startsAtom_of_atomOf? ha
      rw [hk] at this
      cases this
    refine (Rereads.done.next hn (.inl hk)).mono ?_
    rintro c' d' ⟨c₁', hn', rfl⟩
    exact ⟨e, .operandAtom hn' ha⟩
  | operandNone hparen ha =>
    refine (Rereads.stay (P := fun k => k ≠ some .leftParen ∧
      ∀ kind, k = some kind → startsAtom kind = false) ⟨hparen, ha⟩ ?_).mono ?_
    · exact fun new => operandless_of_ends
    · rintro c' _ ⟨rfl, hparen', ha'⟩
      exact .operandNone hparen' ha'
  | operatorsPrefix hl hs _ ihs ih =>
    refine ((ihs trivial).trans (ih trivial) (.inr fun _ h => h)).mono ?_
    rintro c' d' ⟨c₁', hs', hread⟩ start
    obtain ⟨e, he⟩ := hs' start
    obtain ⟨e', he'⟩ := hread start e
    exact ⟨e', .operatorsPrefix hl he he'⟩
  | operatorsMissing _ _ hm => cases hm
  | operatorsMore hl hs _ ihs ih =>
    refine (((ihs trivial).trans (ih trivial) (.inr fun _ h => h)).splitNegative ?_).mono ?_
    · exact fun new => number_ne_of_ends
    · rintro c' d' ⟨c₁', hs', hread⟩ start left
      obtain ⟨e, he⟩ := hs' left
      obtain ⟨e', he'⟩ := hread start e
      exact ⟨e', .operatorsMore hl he he'⟩
  | operatorsDone hl hs ihs =>
    refine ((ihs trivial).splitNegative ?_).mono ?_
    · exact fun new => number_ne_of_ends
    · exact fun c' d' hs' start left => ⟨left, .operatorsDone hl (hs' left)⟩
  | @prefixDone depth _ _ hk =>
    refine (Rereads.stay (P := fun k => noPrefix depth k = true) hk
      fun new hnew => noPrefix_of_ends hnew depth).mono ?_
    rintro c' _ ⟨rfl, hk'⟩ start
    exact .prefixDone hk'
  | prefixUnary hn hd ho he ih =>
    refine ((ih trivial).next hn (.inr (he.weight_lt_of_strict rfl))).mono ?_
    rintro c' d' ⟨c₁', hn', e, he'⟩ start
    exact ⟨_, .prefixUnary hn' hd ho he'⟩
  | @infixDone depth _ _ hk =>
    refine (Rereads.stay (P := fun k => noInfix depth k = true) hk
      fun new hnew => noInfix_of_ends hnew depth).mono ?_
    rintro c' _ ⟨rfl, hk'⟩ left
    exact .infixDone hk'
  | infixMember hn hk hd he ih =>
    refine ((ih trivial).next hn (.inl (hk ▸ nofun))).mono ?_
    rintro c' d' ⟨c₁', hn', e, he'⟩ left
    exact ⟨_, .infixMember hn' hk hd he'⟩
  | infixCall hn hk hd he ih =>
    refine (((ih trivial).weaken fun _ _ => trivial).next hn (.inl (hk ▸ nofun))).mono ?_
    rintro c' d' ⟨c₁', hn', e, he'⟩ left
    exact ⟨_, .infixCall hn' hk hd he'⟩
  | infixSubscript hn hk hd he hr ih =>
    have hlt := weight_lt_of_require_strict hr
    refine (((ih trivial).trans (.require hr nofun .done) (.inl hlt)).next hn
      (.inl (hk ▸ nofun))).mono ?_
    rintro c' d' ⟨c₁', hn', c₂', ⟨e, he'⟩, c₃', hr', rfl⟩ left
    exact ⟨_, .infixSubscript hn' hk hd he' hr'⟩
  | infixTernary hn hk hd he hr he₁ ihe ih =>
    have hlt := Nat.lt_of_le_of_lt he₁.weight.1 (weight_lt_of_require_strict hr)
    refine (((ihe trivial).trans ((ih trivial).require hr nofun) (.inl hlt)).next hn
      (.inl (hk ▸ nofun))).mono ?_
    rintro c' d' ⟨c₁', hn', c₂', ⟨e, he'⟩, c₃', hr', e', he₁'⟩ left
    exact ⟨_, .infixTernary hn' hk hd he' hr' he₁'⟩
  | infixBinary hn ho hd he ih =>
    refine ((ih trivial).next hn (.inr (he.weight_lt_of_strict rfl))).mono ?_
    rintro c' d' ⟨c₁', hn', e, he'⟩ left
    exact ⟨_, .infixBinary hn' ho hd he'⟩
  | argumentsNone hn hk =>
    refine (Rereads.done.next hn (.inl (hk ▸ nofun))).mono ?_
    rintro c' d' ⟨c₁', hn', rfl⟩
    exact ⟨_, .argumentsNone hn' hk⟩
  | argumentsSome hk he hr ih =>
    have hlt := weight_lt_of_require_strict hr
    refine (((ih trivial).trans (.require hr nofun .done) (.inl hlt)).keep
      (Nat.lt_of_lt_of_le hlt he.weight.1)).mono ?_
    rintro c' d' ⟨hkind, c₁', ⟨e, he'⟩, c₂', hr', rfl⟩
    exact ⟨e, .argumentsSome (hkind ▸ hk) he' hr'⟩
  | functionMissing hm => obtain ⟨-, ⟨⟩, -⟩ := rest_of_expect_strict hm
  | functionBare hm hn hk _ ih =>
    refine (((ih trivial).next hn (.inl (hk ▸ nofun))).expect hm nofun).mono ?_
    rintro c' d' ⟨c₁', hm', c₂', hn', s, hs'⟩ start
    exact ⟨_, .functionBare hm' hn' hk hs'⟩
  | functionParams hm hk hs hb ihs ih =>
    have hlt := Nat.lt_of_le_of_lt hb.weight.1 (hs.weight_lt_of_strict rfl)
    refine ((((ihs (.inl rfl)).trans (ih trivial) (.inr fun _ _ => trivial)).keep hlt).expect hm
      nofun).mono ?_
    rintro c' d' ⟨c₁', hm', hkind, c₂', ⟨names, hs'⟩, s, hb'⟩ start
    exact ⟨_, .functionParams hm' (hkind ▸ hk) hs' hb'⟩
  | lambda hs he ihs ih =>
    refine ((ihs (.inr rfl)).trans (ih trivial) (.inr fun _ _ => trivial)).mono ?_
    rintro c' d' ⟨c₁', ⟨names, hs'⟩, e, he'⟩ start
    exact ⟨_, .lambda hs' he'⟩
  | paramsNone _ hm => obtain ⟨-, ⟨⟩, -⟩ := rest_of_expect_strict hm
  | @paramsLast closing _ _ _ _ _ _ hl hm hn hk =>
    have hne : closing ≠ .minus := by rcases hp with rfl | rfl <;> nofun
    refine ((Rereads.done.next hn (.inl (hk ▸ hne))).expect hm nofun).mono ?_
    rintro c' d' ⟨c₁', hm', c₂', hn', rfl⟩
    exact ⟨_, .paramsLast hl hm' hn' hk⟩
  | paramsCut _ _ _ hq => obtain ⟨-, ⟨⟩, -⟩ := rest_of_expect_strict hq
  | paramsMore hl hm hk hq hs ih =>
    have hlt := Nat.lt_of_le_of_lt hs.weight.1 (weight_lt_of_expect hq)
    refine ((((ih hp).expect hq nofun).keep hlt).expect hm nofun).mono ?_
    rintro c' d' ⟨c₁', hm', hkind, c₂', hq', names, hs'⟩
    exact ⟨_, .paramsMore hl hm' (hkind ▸ hk) hq' hs'⟩
  | statementsDone hk =>
    refine (Rereads.stay (P := fun k => k = none ∨ k = some .rightBrace) hk fun _ h => h).mono ?_
    rintro c' _ ⟨rfl, hk'⟩
    exact ⟨_, .statementsDone hk'⟩
  | statementsMore hk hne hl hs hss ihs ih =>
    have hlt := Nat.lt_of_le_of_lt hss.weight.1 (hs.weight.2 rfl)
    refine (((ihs trivial).trans (ih trivial) (.inr ?_)).keep hlt).mono ?_
    · rintro new (h | h) <;> simp [Phrase.stops, h]
    · rintro c' d' ⟨hkind, c₁', ⟨s, hs'⟩, ss, hss'⟩
      exact ⟨_, .statementsMore (hkind ▸ hk) hne hl hs' hss'⟩
  | statementBlock hk hb ih =>
    have hlt := (Reads.statementBlock hk hb).weight.2 rfl
    refine (((ih trivial).weaken fun _ _ => trivial).keep hlt).mono ?_
    rintro c' d' ⟨hkind, s, hb'⟩
    exact ⟨s, .statementBlock (hkind ▸ hk) hb'⟩
  | statementReturn hn hk hn' hk' =>
    refine ((Rereads.done.next hn' (.inl (hk' ▸ nofun))).next hn (.inl (hk ▸ nofun))).mono ?_
    rintro c' d' ⟨c₁', hn₁, c₂', hn₂, rfl⟩
    exact ⟨_, .statementReturn hn₁ hk hn₂ hk'⟩
  | statementReturnValue hn hk hne he hr ih =>
    have hlt := weight_lt_of_require_strict hr
    refine ((((ih trivial).trans (.require hr nofun .done) (.inl hlt)).keep
      (Nat.lt_of_lt_of_le hlt he.weight.1)).next hn (.inl (hk ▸ nofun))).mono ?_
    rintro c' d' ⟨c₁', hn', hkind, c₂', ⟨e, he'⟩, c₃', hr', rfl⟩
    exact ⟨_, .statementReturnValue hn' hk (hkind ▸ hne) he' hr'⟩
  | statementBreak hn hk hr =>
    refine ((Rereads.done.require hr nofun).next hn (.inl (hk ▸ nofun))).mono ?_
    rintro c' d' ⟨c₁', hn', c₂', hr', rfl⟩
    exact ⟨_, .statementBreak hn' hk hr'⟩
  | statementContinue hn hk hr =>
    refine ((Rereads.done.require hr nofun).next hn (.inl (hk ▸ nofun))).mono ?_
    rintro c' d' ⟨c₁', hn', c₂', hr', rfl⟩
    exact ⟨_, .statementContinue hn' hk hr'⟩
  | statementIf hn hk hq he hr hs hne ihe ihs =>
    -- the `else` that is missing is the only token that must not follow
    have hend := (ihs trivial).trans (Rereads.stay (P := fun k => k ≠ some .elseWord) hne
      fun _ h => h) (.inr fun _ h => h)
    have hlt := Nat.lt_of_le_of_lt hs.weight.1 (weight_lt_of_require_strict hr)
    refine ((((ihe trivial).trans (hend.require hr nofun) (.inl hlt)).require hq nofun).next hn
      (.inl (hk ▸ nofun))).mono ?_
    rintro c' d' ⟨c₁', hn', c₂', hq', c₃', ⟨e, he'⟩, c₄', hr', c₅', ⟨s, hs'⟩, rfl, hne'⟩
    exact ⟨_, .statementIf hn' hk hq' he' hr' hs' hne'⟩
  | statementIfElse hn hk hq he hr hs hn₁ hk₁ hs₁ ihe ihs ihs₁ =>
    have hlt₁ := Nat.lt_of_le_of_lt hs₁.weight.1 (weight_lt_of_next? hn₁)
    have hend := (ihs trivial).trans ((ihs₁ trivial).next hn₁ (.inl (hk₁ ▸ nofun))) (.inl hlt₁)
    have hlt := Nat.lt_of_lt_of_le hlt₁
      (Nat.le_trans hs.weight.1 (Nat.le_of_lt (weight_lt_of_require_strict hr)))
    refine ((((ihe trivial).trans (hend.require hr nofun) (.inl hlt)).require hq nofun).next hn
      (.inl (hk ▸ nofun))).mono ?_
    rintro c' d' ⟨c₁', hn', c₂', hq', c₃', ⟨e, he'⟩, c₄', hr', c₅', ⟨s, hs'⟩, c₆', hn₁', s₁, hs₁'⟩
    exact ⟨_, .statementIfElse hn' hk hq' he' hr' hs' hn₁' hk₁ hs₁'⟩
  | statementFor hn hk _ ih =>
    refine ((ih trivial).next hn (.inl (hk ▸ nofun))).mono ?_
    rintro c' d' ⟨c₁', hn', hread⟩
    obtain ⟨s, hs'⟩ := hread c'.position
    exact ⟨s, .statementFor hn' hk hs'⟩
  | statementWhile hn hk hq he hr hs ihe ihs =>
    have hlt := Nat.lt_of_le_of_lt hs.weight.1 (weight_lt_of_require_strict hr)
    refine ((((ihe trivial).trans ((ihs trivial).require hr nofun) (.inl hlt)).require hq
      nofun).next hn (.inl (hk ▸ nofun))).mono ?_
    rintro c' d' ⟨c₁', hn', c₂', hq', c₃', ⟨e, he'⟩, c₄', hr', s, hs'⟩
    exact ⟨_, .statementWhile hn' hk hq' he' hr' hs'⟩
  | statementEmpty hn hk =>
    refine (Rereads.done.next hn (.inl (hk ▸ nofun))).mono ?_
    rintro c' d' ⟨c₁', hn', rfl⟩
    exact ⟨_, .statementEmpty hn' hk⟩
  | statementSimple hk hs ih =>
    refine (((ih trivial).weaken fun _ _ => trivial).keep (hs.weight.2 rfl)).mono ?_
    rintro c' d' ⟨hkind, s, hs'⟩
    exact ⟨s, .statementSimple (hkind ▸ hk) hs'⟩
  | simple _ hr ih =>
    refine ((ih trivial).trans (.require hr nofun .done)
      (.inl (weight_lt_of_require_strict hr))).mono ?_
    rintro c' d' ⟨c₁', ⟨s, hs'⟩, c₂', hr', rfl⟩
    exact ⟨s, .simple hs' hr'⟩
  | forLoop hr _ _ _ _ ihi ihe ihs ih =>
    have hend := (ihi trivial).trans ((ihe trivial).trans ((ihs trivial).trans (ih trivial)
      (.inr fun _ _ => trivial)) (.inr fun _ _ => trivial)) (.inr fun _ _ => trivial)
    refine (hend.require hr nofun).mono ?_
    rintro c' d' ⟨c₁', hr', c₂', ⟨i, hi'⟩, c₃', ⟨e, he'⟩, c₄', ⟨s, hs'⟩, b, hb'⟩ start
    exact ⟨_, .forLoop hr' hi' he' hs' hb'⟩
  | initializerNone hn hk =>
    refine (Rereads.done.next hn (.inl (hk ▸ nofun))).mono ?_
    rintro c' d' ⟨c₁', hn', rfl⟩
    exact ⟨_, .initializerNone hn' hk⟩
  | initializerSome hk hs hr ih =>
    have hlt := weight_lt_of_require_strict hr
    refine (((ih trivial).trans (.require hr nofun .done) (.inl hlt)).keep
      (Nat.lt_of_lt_of_le hlt hs.weight.1)).mono ?_
    rintro c' d' ⟨hkind, c₁', ⟨s, hs'⟩, c₂', hr', rfl⟩
    exact ⟨_, .initializerSome (hkind ▸ hk) hs' hr'⟩
  | conditionNone hn hk =>
    refine (Rereads.done.next hn (.inl (hk ▸ nofun))).mono ?_
    rintro c' d' ⟨c₁', hn', rfl⟩
    exact ⟨_, .conditionNone hn' hk⟩
  | conditionSome hk he hr ih =>
    have hlt := weight_lt_of_require_strict hr
    refine (((ih trivial).trans (.require hr nofun .done) (.inl hlt)).keep
      (Nat.lt_of_lt_of_le hlt he.weight.1)).mono ?_
    rintro c' d' ⟨hkind, c₁', ⟨e, he'⟩, c₂', hr', rfl⟩
    exact ⟨_, .conditionSome (hkind ▸ hk) he' hr'⟩
  | iteratorNone hn hk =>
    refine (Rereads.done.next hn (.inl (hk ▸ nofun))).mono ?_
    rintro c' d' ⟨c₁', hn', rfl⟩
    exact ⟨_, .iteratorNone hn' hk⟩
  | iteratorSome hk hs hr ih =>
    have hlt := weight_lt_of_require_strict hr
    refine (((ih trivial).trans (.require hr nofun .done) (.inl hlt)).keep
      (Nat.lt_of_lt_of_le hlt hs.weight.1)).mono ?_
    rintro c' d' ⟨hkind, c₁', ⟨s, hs'⟩, c₂', hr', rfl⟩
    exact ⟨_, .iteratorSome (hkind ▸ hk) hs' hr'⟩
  | block hq _ hr ih =>
    refine (((ih trivial).trans (.require hr nofun .done)
      (.inl (weight_lt_of_require_strict hr))).require hq nofun).mono ?_
    rintro c' d' ⟨c₁', hq', c₂', ⟨ss, hs'⟩, c₃', hr', rfl⟩
    exact ⟨_, .block hq' hs' hr'⟩
  | declarationAssignment hk hs ih =>
    refine (((ih trivial).weaken ?_).keep (hs.weight.2 rfl)).mono ?_
    · rintro new (h | h) <;> simp only [Phrase.stops, h, endsOperators]
    · rintro c' d' ⟨hkind, s, hs'⟩
      exact ⟨s, .declarationAssignment (hkind ▸ hk) hs'⟩
  | declarationBare hn hk hm hend =>
    have hstay := Rereads.stay (P := fun k => k = none ∨ k = some .semicolon) hend fun _ h => h
    refine ((hstay.expect hm nofun).next hn (.inl (hk ▸ nofun))).mono ?_
    rintro c' d' ⟨c₁', hn', c₂', hm', rfl, hend'⟩
    exact ⟨_, .declarationBare hn' hk hm' hend'⟩
  | declarationValue hn hk hm hend hr he ih =>
    have hlt := Nat.lt_of_le_of_lt he.weight.1 (weight_lt_of_require_strict hr)
    refine ((((((ih trivial).require hr nofun).keep hlt).expect hm nofun).next hn
      (.inl (hk ▸ nofun))).weaken ?_).mono ?_
    · rintro new (h | h) <;> simp only [Phrase.stops, h, endsOperators]
    · rintro c' d' ⟨c₁', hn', c₂', hm', hkind, c₃', hr', e, he'⟩
      exact ⟨_, .declarationValue hn' hk hm' (hkind ▸ hend) hr' he'⟩
  | assignmentCall hn hk _ ih =>
    refine ((ih trivial).next hn (.inl (hk ▸ nofun))).mono ?_
    rintro c' d' ⟨c₁', hn', hread⟩
    obtain ⟨e, hs'⟩ := hread _
    exact ⟨_, .assignmentCall hn' hk hs'⟩
  | assignmentValue hn hk _ hn₁ ho he ihs ih =>
    have hlt := Nat.lt_of_le_of_lt he.weight.1 (weight_lt_of_next? hn₁)
    refine (((ihs trivial).trans ((ih trivial).next hn₁ (.inr (he.weight_lt_of_strict rfl)))
      (.inl hlt)).next hn (.inl (hk ▸ nofun))).mono ?_
    rintro c' d' ⟨c₁', hn', c₂', hread, c₃', hn₁', e, he'⟩
    obtain ⟨target, hs'⟩ := hread _
    exact ⟨_, .assignmentValue hn' hk hs' hn₁' ho he'⟩
  | assignmentMissing _ _ _ _ hm => cases hm
  | suffixesDone hl hk =>
    refine (Rereads.stay (P := fun k => ∀ kind, k = some kind → startsSuffix kind = false) hk
      fun new => suffixless_of_ends).mono ?_
    rintro c' _ ⟨rfl, hk'⟩ node
    exact ⟨_, .suffixesDone hl hk'⟩
  | suffixesMember hl hn hk _ _ ihe ih =>
    refine (((ihe trivial).trans (ih trivial) (.inr fun _ h => h)).next hn
      (.inl (hk ▸ nofun))).mono ?_
    rintro c' d' ⟨c₁', hn', c₂', ⟨e, he'⟩, hread⟩ node
    obtain ⟨e', hs'⟩ := hread _
    exact ⟨e', .suffixesMember hl hn' hk he' hs'⟩
  | suffixesCall hl hn hk _ _ ihe ih =>
    refine (((ihe trivial).trans (ih trivial) (.inr fun _ _ => trivial)).next hn
      (.inl (hk ▸ nofun))).mono ?_
    rintro c' d' ⟨c₁', hn', c₂', ⟨e, he'⟩, hread⟩ node
    obtain ⟨e', hs'⟩ := hread _
    exact ⟨e', .suffixesCall hl hn' hk he' hs'⟩
  | suffixesSubscript hl hn hk _ hr hss ihe ih =>
    have hlt := Nat.lt_of_le_of_lt hss.weight.1 (weight_lt_of_require_strict hr)
    refine (((ihe trivial).trans ((ih trivial).require hr nofun) (.inl hlt)).next hn
      (.inl (hk ▸ nofun))).mono ?_
    rintro c' d' ⟨c₁', hn', c₂', ⟨e, he'⟩, c₃', hr', hread⟩ node
    obtain ⟨e', hs'⟩ := hread _
    exact ⟨e', .suffixesSubscript hl hn' hk he' hr' hs'⟩

end Parse

end SearchScript
