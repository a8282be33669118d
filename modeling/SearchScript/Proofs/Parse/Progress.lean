import SearchScript.Proofs.Parse.Beginning
import SearchScript.Proofs.Parse.Headway
import SearchScript.Run.Program

/-!
# The loops of the parser make progress

A round of a loop that goes on has taken a token. So no loop goes round more often than there are
tokens, and the limit on its rounds is never the reason to stop where there are fewer tokens than
it allows rounds. Nor is it needed: without it the functions of the grammar come to an end by
themselves, on any tokens and in both modes.

Two readings of the same phrase are followed side by side, one of them without a limit and with
another bound on the depth of calls. What the first one reads has come as far as the phrase demands;
and unless one of the bounds is too small, both do the same.

## Key definitions

- `Phrase.round`: one round of a loop
- `Phrase.Short`: a bound may be too small to read a phrase
- `Settles`: what two readings have in common

## Key results

- `settled`: the functions of the grammar settle
- `loops_make_progress`: every round of a loop that goes on takes a token, every reading comes to an
  end without a limit, and the limit never stops a text with fewer tokens
-/

namespace SearchScript.Parse

open Cursor

variable {limit : Option Nat} {mode : ParseMode} {fuel fuel' : Nat} {p q : Phrase} {c d e : Cursor}

/-! ## Rounds of a loop -/

/-- How a round of a loop ends: the loop ends, or it goes on and something is done with what the
rest of it reads. -/
inductive Turn (p : Phrase) where
  | ends (r : p.Result)
  | again (q : Phrase) (finish : q.Result → p.Result)

/-- One round of a loop. Other phrases are read in one round. -/
def Phrase.round (limit : Option Nat) (mode : ParseMode) (fuel : Nat) :
    (p : Phrase) → Cursor → Except ParseError (Turn p × Cursor)
  | operators depth start rounds none, c => do
    let rounds ← tick limit rounds c
    let (step, c) ← Parse.prefixOperator limit mode fuel depth start c
    match step with
    | .more e => .ok (.again (operators depth start rounds (some e)) id, c)
    | .done => do
      let (e, c) ← missing mode c
      .ok (.ends e, c)
  | operators depth start rounds (some left), c => do
    let rounds ← tick limit rounds c
    let (step, c) ← Parse.operator limit mode fuel depth left c.splitNegative
    match step with
    | .more e => .ok (.again (operators depth start rounds (some e)) id, c)
    | .done => .ok (.ends left, c)
  | params closing rounds, c => do
    let rounds ← tick limit rounds c
    let (name?, c) ← c.expect mode .identifier
    match name? with
    | none => .ok (.ends [], c)
    | some name =>
      match c.accept? closing with
      | some (_, c) => .ok (.ends [name.text], c)
      | none => do
        let (comma?, c) ← c.expect mode .comma
        match comma? with
        | none => .ok (.ends [name.text], c)
        | some _ => .ok (.again (params closing rounds) (name.text :: ·), c)
  | statements rounds, c =>
    match c.kind? with
    | none => .ok (.ends [], c)
    | some .rightBrace => .ok (.ends [], c)
    | some _ => do
      let rounds ← tick limit rounds c
      let (first, c) ← Parse.statement limit mode fuel c
      .ok (.again (statements rounds) (first :: ·), c)
  | suffixes rounds node isCall, c => do
    let rounds ← tick limit rounds c
    match c.rest with
    | [] => .ok (.ends (node, isCall), c)
    | token :: rest =>
      let next := c.pass token rest
      match token.kind with
      | .period =>
        let (member, c) ← Parse.expr limit mode fuel 8 next
        .ok (.again (suffixes rounds (.join .member node member) false) id, c)
      | .leftParen =>
        let (args, c) ← Parse.arguments limit mode fuel next
        .ok (.again (suffixes rounds (.join .call node args) true) id, c)
      | .leftBracket =>
        let (index, c) ← Parse.expr limit mode fuel 1 next
        let c ← c.require mode .rightBracket
        .ok (.again (suffixes rounds (.join .subscript node index) false) id, c)
      | _ => .ok (.ends (node, isCall), c)
  | p, c => do
    let (r, c) ← p.read limit mode (fuel + 1) c
    .ok (.ends r, c)

/-- What happens behind a round. -/
def Turn.resume (limit : Option Nat) (mode : ParseMode) (fuel : Nat) :
    Turn p × Cursor → Except ParseError (p.Result × Cursor)
  | (.ends r, c) => .ok (r, c)
  | (.again q finish, c) => do
    let (r, c) ← q.read limit mode fuel c
    .ok (finish r, c)

/-- A phrase is read round by round. -/
theorem read_eq_round (p : Phrase) (c : Cursor) :
    p.read limit mode (fuel + 1) c =
      (p.round limit mode fuel c >>= Turn.resume limit mode fuel) := by
  cases p with
  | operators depth start rounds left =>
    cases left with
    | none =>
      simp only [Phrase.read, Phrase.round, Parse.operators, bind_assoc]
      refine bind_congr fun rounds => bind_congr ?_
      rintro ⟨step, c⟩
      cases step with
      | more e => exact (bind_pure _).symm
      | done =>
        simp only [bind_assoc, Except.ok_bind, Turn.resume]
        exact (bind_pure _).symm
    | some left =>
      simp only [Phrase.read, Phrase.round, Parse.operators, bind_assoc]
      refine bind_congr fun rounds => bind_congr ?_
      rintro ⟨step, c⟩
      cases step with
      | more e => exact (bind_pure _).symm
      | done => rfl
  | params closing rounds =>
    simp only [Phrase.read, Phrase.round, Parse.params, bind_assoc]
    refine bind_congr fun rounds => bind_congr ?_
    rintro ⟨name?, c⟩
    cases name? with
    | none => rfl
    | some name =>
      cases ha : c.accept? closing with
      | some next => rfl
      | none =>
        simp only [bind_assoc]
        refine bind_congr ?_
        rintro ⟨comma?, c⟩
        cases comma? <;> rfl
  | statements rounds =>
    simp only [Phrase.read, Phrase.round, Parse.statements]
    split
    · next hk => simp only [hk, Except.ok_bind, Turn.resume]
    · next hk => simp only [hk, Except.ok_bind, Turn.resume]
    · next kind hne hk =>
      simp only [hk, bind_assoc]
      rfl
  | suffixes rounds node isCall =>
    simp only [Phrase.read, Phrase.round, Parse.suffixes, bind_assoc]
    refine bind_congr fun rounds => ?_
    cases hr : c.rest with
    | nil => rfl
    | cons token rest =>
      dsimp only
      split
      · next hk =>
        simp only [hk, bind_assoc]
        exact bind_congr fun _ => (bind_pure _).symm
      · next hk =>
        simp only [hk, bind_assoc]
        exact bind_congr fun _ => (bind_pure _).symm
      · next hk =>
        simp only [hk, bind_assoc]
        exact bind_congr fun _ => bind_congr fun _ => (bind_pure _).symm
      · simp only [Except.ok_bind, Turn.resume]
  | _ =>
    simp only [Phrase.round, bind_assoc, Except.ok_bind, Turn.resume]
    exact (bind_pure _).symm

/-! ## Two readings side by side -/

/-- What two readings have in common: a result of the first one meets what is demanded; and unless
something is too short, both give the same, which is not that a loop went on for too long. -/
structure Settles {α : Type} (Q : α → Prop) (short : Prop) (x y : Except ParseError α) : Prop where
  meets : ∀ {a}, x = .ok a → Q a
  agrees : ¬short → x = y
  unlimited : ¬short → ∀ offset, x ≠ .error (.loopLimit offset)

namespace Settles

variable {α β : Type} {Q : α → Prop} {Q' : β → Prop} {short short' : Prop}
  {x y : Except ParseError α} {f g : α → Except ParseError β} {a : α}

theorem ok (h : Q a) : Settles Q short (.ok a) (.ok a) where
  meets ha := by cases ha; exact h
  agrees _ := rfl
  unlimited _ _ := nofun

theorem error {err : ParseError} (h : ∀ offset, err ≠ .loopLimit offset) :
    Settles Q short (.error err) (.error err) where
  meets := nofun
  agrees _ := rfl
  unlimited _ offset := fun he => h offset (Except.error.inj he)

theorem bind (hx : Settles Q short x y) (hf : ∀ a, Q a → Settles Q' short (f a) (g a)) :
    Settles Q' short (x >>= f) (y >>= g) where
  meets hb := by
    obtain ⟨a, ha, hb⟩ := Except.bind_eq_ok_iff.1 hb
    exact (hf a (hx.meets ha)).meets hb
  agrees hs := by
    rw [← hx.agrees hs]
    cases hx' : x with
    | error err => rfl
    | ok a => exact (hf a (hx.meets hx')).agrees hs
  unlimited hs offset he := by
    rcases Except.bind_eq_error_iff.1 he with he | ⟨a, ha, he⟩
    · exact hx.unlimited hs offset he
    · exact (hf a (hx.meets ha)).unlimited hs offset he

theorem mono {R : α → Prop} (h : Settles Q short x y) (hQ : ∀ a, Q a → R a)
    (hs : short → short') : Settles R short' x y where
  meets ha := hQ _ (h.meets ha)
  agrees hn := h.agrees fun hshort => hn (hs hshort)
  unlimited hn := h.unlimited fun hshort => hn (hs hshort)

end Settles

theorem settles_expect {short : Prop} {kind : TokenKind} (hk : kind ≠ .minus) :
    Settles (fun x : Option Token × Cursor => c.Reaches x.2 ∧ (x.1.isSome = true → c.Advances x.2))
      short (c.expect mode kind) (c.expect mode kind) where
  meets h := of_expect h hk
  agrees _ := rfl
  unlimited _ offset := by
    unfold Cursor.expect
    split <;> simp

theorem settles_require {short : Prop} {kind : TokenKind} (hk : kind ≠ .minus) :
    Settles (fun d => c.Reaches d ∧ (c.kind? = some kind → c.Advances d))
      short (c.require mode kind) (c.require mode kind) where
  meets h := of_require h hk
  agrees _ := rfl
  unlimited _ offset := by
    unfold Cursor.require
    split
    · nofun
    · next he =>
      rintro ⟨⟩
      exact (settles_expect hk).unlimited not_false offset he

theorem settles_atom? {short : Prop} :
    Settles (fun a? : Option (Expr × Cursor) => match a? with
        | some (_, d) => c.Advances d
        | none => c.kind? ≠ some .number)
      short (atom? c) (atom? c) where
  meets {a?} h := by
    cases a? with
    | none => exact fun hk => nomatch atom?_eq_none_iff.1 h _ hk
    | some a =>
      obtain ⟨t, hn, ht⟩ := atom?_eq_some_iff.1 h
      refine advances_of_next? hn fun hk => ?_
      have := startsAtom_of_atomOf? ht
      rw [hk] at this
      cases this
  agrees _ := rfl
  unlimited _ offset := by
    intro h
    simp only [atom?] at h
    split at h
    · cases h
    · split at h
      case h_8 => split at h <;> cases h
      all_goals cases h

/-! ## Phrases -/

/-- What is demanded of a reading: it never goes back, and it has taken a token where the phrase
advances. -/
def Phrase.Leaves (p : Phrase) (c : Cursor) (x : p.Result × Cursor) : Prop :=
  c.Reaches x.2 ∧ (p.advances c x.1 = true → c.Advances x.2)

theorem leaves_of_advances {r : p.Result} (h : c.Advances d) : p.Leaves c (r, d) :=
  ⟨h.toReaches, fun _ => h⟩

/-- Of a phrase that need not advance nothing more is demanded. -/
theorem leaves_of_reaches {r : p.Result} (hr : p.advances c r = false) (h : c.Reaches d) :
    p.Leaves c (r, d) :=
  ⟨h, fun ht => absurd ht (by simp [hr])⟩

/-- Whether a bound may be too small to read a phrase: one of those on the depth of calls, or the
limit on the rounds of a loop, of which there may be as many more as there are tokens. -/
def Phrase.Short (limit : Option Nat) (fuel fuel' : Nat) (p : Phrase) (c : Cursor) : Prop :=
  fuel < p.fuel c ∨ fuel' < p.fuel c ∨ ∃ most ∈ limit, most ≤ p.rounds + c.count

/-- Whether a phrase is read alike with and without a limit. -/
def Phrase.Settled (limit : Option Nat) (mode : ParseMode) (fuel fuel' : Nat) (p : Phrase)
    (c : Cursor) : Prop :=
  Settles (p.Leaves c) (p.Short limit fuel fuel' c) (p.read limit mode fuel c)
    (p.read none mode fuel' c)

/-- A bound that is too small for a phrase is too small for one that takes more. -/
theorem short_of_short (hfuel : ∀ n, p.fuel c ≤ n + 1 → q.fuel d ≤ n)
    (hcount : q.rounds + d.count ≤ p.rounds + c.count) (hs : q.Short limit fuel fuel' d) :
    p.Short limit (fuel + 1) (fuel' + 1) c := by
  rcases hs with hs | hs | ⟨most, hm, hle⟩
  · exact .inl (Nat.lt_of_not_le fun hf => Nat.not_le.2 hs (hfuel _ hf))
  · exact .inr (.inl (Nat.lt_of_not_le fun hf => Nat.not_le.2 hs (hfuel _ hf)))
  · exact .inr (.inr ⟨most, hm, Nat.le_trans hle hcount⟩)

/-- A bound that is too small for a phrase behind a token is too small for the whole. -/
theorem short_of_consumes (h : c.Consumes d) (hr : q.rounds ≤ p.rounds) :
    q.Short limit fuel fuel' d → p.Short limit (fuel + 1) (fuel' + 1) c :=
  short_of_short (fun _ => fuel_of_lt h.weight_lt) (Nat.add_le_add hr h.count_le)

/-- A bound that is too small for a phrase of lower rank at the same place is too small for the
whole. -/
theorem short_of_reaches (h : c.Reaches d) (hrank : q.rank d < p.rank c)
    (hr : q.rounds ≤ p.rounds) :
    q.Short limit fuel fuel' d → p.Short limit (fuel + 1) (fuel' + 1) c :=
  short_of_short (fun _ hf => fuel_of_le h.weight_le hf hrank) (Nat.add_le_add hr h.count_le)

/-- A bound that is too small for the next round of a loop is too small for the loop. -/
theorem short_of_advances (h : c.Advances d) (hr : q.rounds = p.rounds + 1) :
    q.Short limit fuel fuel' d → p.Short limit (fuel + 1) (fuel' + 1) c := by
  have hcount := h.count_lt
  exact short_of_short (fun _ => fuel_of_lt h.weight_lt) (by omega)

/-- A phrase is called for, and its result is used. -/
theorem Settles.call {β : Type} {Q : β → Prop} {short : Prop}
    {f g : q.Result × Cursor → Except ParseError β} (h : q.Settled limit mode fuel fuel' d)
    (hs : q.Short limit fuel fuel' d → short)
    (hf : ∀ r e, q.Leaves d (r, e) → Settles Q short (f (r, e)) (g (r, e))) :
    Settles Q short (q.read limit mode fuel d >>= f) (q.read none mode fuel' d >>= g) :=
  (h.mono (fun _ hr => hr) hs).bind fun (r, e) hr => hf r e hr

/-- A phrase is called for, and its result is that of the whole. -/
theorem Settles.tail {Q : q.Result × Cursor → Prop} {short : Prop}
    (h : q.Settled limit mode fuel fuel' d) (hs : q.Short limit fuel fuel' d → short)
    (hf : ∀ r e, q.Leaves d (r, e) → Q (r, e)) :
    Settles Q short (q.read limit mode fuel d) (q.read none mode fuel' d) :=
  h.mono (fun (r, e) hr => hf r e hr) hs

/-- What is demanded of a round: a loop that goes on has taken a token. -/
def Turn.Leaves (c : Cursor) : Turn p × Cursor → Prop
  | (.ends r, d) => p.Leaves c (r, d)
  | (.again q _, d) => c.Advances d ∧ q.rounds = p.rounds + 1

/-- The limit ends a loop only where it is too small for the rounds behind. -/
theorem settles_tick (p : Phrase) (c : Cursor) :
    Settles (· = p.rounds + 1) (p.Short limit (fuel + 1) (fuel' + 1) c)
      (tick limit p.rounds c) (tick none p.rounds c) := by
  by_cases h : limit.any (· ≤ p.rounds) = true
  · obtain ⟨most, rfl, hle⟩ := (Option.any_eq_true _ _).1 h
    have hshort : p.Short (some most) (fuel + 1) (fuel' + 1) c :=
      .inr (.inr ⟨most, rfl, Nat.le_trans (of_decide_eq_true hle) (Nat.le_add_right _ _)⟩)
    refine ⟨fun ht => ?_, fun hn => absurd hshort hn, fun hn => absurd hshort hn⟩
    rw [tick, if_pos h] at ht
    cases ht
  · rw [tick, if_neg h]
    exact .ok rfl

/-- A token and an expression behind it: where a minus stands in front of a number, it is the
expression that takes the number. -/
theorem advances_of_expr {t : Token} {depth : Nat} {r : Expr} (hn : c.next? = some (t, d))
    (h : (Phrase.expr depth).Leaves d (r, e)) : c.Advances e := by
  by_cases hk : d.kind? = some .number
  · exact (consumes_of_next? hn).toReaches.trans_advances (h.2 (by simp [Phrase.advances, hk]))
  · exact (advances_of_next? hn fun _ => hk).trans h.1

section

variable (ih : ∀ (q : Phrase) (d : Cursor), q.Settled limit mode fuel fuel' d)
include ih

/-! ## Expressions -/

private theorem settled_expr (depth : Nat) :
    (Phrase.expr depth).Settled limit mode (fuel + 1) (fuel' + 1) c := by
  simp only [Phrase.Settled, Phrase.read, Parse.expr]
  cases hf : c.accept? .functionWord with
  | some next =>
    obtain ⟨t, c₁⟩ := next
    have hadv := advances_of_accept? hf (by decide)
    exact .tail (ih (.functionTail _) c₁) (short_of_consumes hadv.toConsumes (Nat.zero_le _))
      fun r d h => leaves_of_advances (hadv.trans h.1)
  | none =>
    cases hl : c.accept? .lambdaWord with
    | some next =>
      obtain ⟨t, c₁⟩ := next
      have hadv := advances_of_accept? hl (by decide)
      exact .tail (ih (.lambdaTail _) c₁) (short_of_consumes hadv.toConsumes (Nat.zero_le _))
        fun r d h => leaves_of_advances (hadv.trans h.1)
    | none =>
      refine .call (ih .operand c)
        (short_of_reaches (.refl c) (by simp [Phrase.rank]) (Nat.zero_le _)) ?_
      intro node? c₁ ho
      refine .tail (ih (.operators depth c.position 0 node?) c₁)
        (short_of_reaches ho.1 (by simp [Phrase.rank]) (Nat.zero_le _)) ?_
      intro e d h
      exact ⟨ho.1.trans h.1, fun hnumber => (ho.2 hnumber).trans h.1⟩

private theorem settled_operand :
    Phrase.operand.Settled limit mode (fuel + 1) (fuel' + 1) c := by
  simp only [Phrase.Settled, Phrase.read, Parse.operand]
  cases hp : c.accept? .leftParen with
  | some next =>
    obtain ⟨t, c₁⟩ := next
    have hadv := advances_of_accept? hp (by decide)
    refine .call (ih (.expr 1) c₁) (short_of_consumes hadv.toConsumes (Nat.zero_le _)) ?_
    intro inner c₂ he
    refine (settles_require (by decide)).bind fun c₃ hr => .ok ?_
    exact leaves_of_advances ((hadv.trans he.1).trans hr.1)
  | none =>
    refine settles_atom?.bind fun a? ha => ?_
    cases a? with
    | none =>
      refine .ok ⟨.refl c, fun hnumber => absurd ?_ ha⟩
      simpa [Phrase.advances] using hnumber
    | some a => exact .ok (leaves_of_advances ha)

private theorem settled_prefixOperator (depth start : Nat) :
    (Phrase.prefixOperator depth start).Settled limit mode (fuel + 1) (fuel' + 1) c := by
  simp only [Phrase.Settled, Phrase.read, Parse.prefixOperator]
  have hdone : (Phrase.prefixOperator depth start).Leaves c (.done, c) :=
    leaves_of_reaches rfl (.refl c)
  cases hr : c.rest with
  | nil => exact .ok hdone
  | cons t rest =>
    have hn := next?_of_rest hr
    -- at this depth no prefix operator is read
    by_cases hd : 8 ≤ depth
    · simp only [if_pos hd]
      exact .ok hdone
    · simp only [if_neg hd]
      cases UnaryOp.ofToken? t.kind with
      | some op =>
        refine .call (ih (.expr 7) _)
          (short_of_consumes (consumes_of_next? hn) (Nat.zero_le _)) fun e d he => .ok ?_
        exact leaves_of_advances (advances_of_expr hn he)
      | none =>
        cases t.kind.infixDepth? with
        | none => exact .ok hdone
        | some level =>
          -- an operator of two operands lacks the left one, unless it is left to an outer phrase
          by_cases hl : level < 8 ∧ depth < level
          · simp only [if_pos hl]
            exact .error (by simp)
          · simp only [if_neg hl]
            exact .ok hdone

private theorem settled_operator (depth : Nat) (left : Expr) :
    (Phrase.operator depth left).Settled limit mode (fuel + 1) (fuel' + 1) c := by
  simp only [Phrase.Settled, Phrase.read, Parse.operator]
  have hdone : (Phrase.operator depth left).Leaves c (.done, c) :=
    leaves_of_reaches rfl (.refl c)
  cases hr : c.rest with
  | nil => exact .ok hdone
  | cons t rest =>
    have hn := next?_of_rest hr
    have hcall : ∀ q : Phrase, q.rounds ≤ 0 → q.Short limit fuel fuel' (c.pass t rest) →
        (Phrase.operator depth left).Short limit (fuel + 1) (fuel' + 1) c :=
      fun q hq => short_of_consumes (consumes_of_next? hn) hq
    dsimp only
    cases t.kind.infixDepth? with
    | none => exact .ok hdone
    | some level =>
      by_cases hl : level ≤ depth
      · simp only [if_pos hl]
        exact .ok hdone
      · simp only [if_neg hl]
        split
        -- a member access
        · refine .call (ih (.expr 8) _) (hcall _ (Nat.le_refl _)) fun e d he => .ok ?_
          exact leaves_of_advances (advances_of_expr hn he)
        -- a call
        · next hk =>
          refine .call (ih .arguments _) (hcall _ (Nat.le_refl _)) fun e d he => .ok ?_
          exact leaves_of_advances ((advances_of_next? hn (by simp [hk])).trans he.1)
        -- a subscript
        · refine .call (ih (.expr 1) _) (hcall _ (Nat.le_refl _)) fun e d he => ?_
          refine (settles_require (by decide)).bind fun d' hd => .ok ?_
          exact leaves_of_advances ((advances_of_expr hn he).trans hd.1)
        -- a ternary
        · refine .call (ih (.expr 3) _) (hcall _ (Nat.le_refl _)) fun e d he => ?_
          refine (settles_require (by decide)).bind fun d' hd => ?_
          have hadv := (advances_of_expr hn he).trans hd.1
          refine .call (ih (.expr 3) _) (short_of_consumes hadv.toConsumes (Nat.zero_le _))
            fun e' d'' he' => .ok ?_
          exact leaves_of_advances (hadv.trans he'.1)
        -- another operator of two operands
        · cases BinaryOp.ofToken? t.kind with
          | none => exact .ok hdone
          | some op =>
            refine .call (ih (.expr level) _) (hcall _ (Nat.le_refl _)) fun e d he => .ok ?_
            exact leaves_of_advances (advances_of_expr hn he)

private theorem settled_arguments :
    Phrase.arguments.Settled limit mode (fuel + 1) (fuel' + 1) c := by
  simp only [Phrase.Settled, Phrase.read, Parse.arguments]
  cases hp : c.accept? .rightParen with
  | some next =>
    obtain ⟨t, c₁⟩ := next
    exact .ok (leaves_of_advances (advances_of_accept? hp (by decide)))
  | none =>
    refine .call (ih (.expr 1) c)
      (short_of_reaches (.refl c) (by simp [Phrase.rank]) (Nat.zero_le _)) fun e d he => ?_
    refine (settles_require (by decide)).bind fun d' hd => .ok ?_
    exact leaves_of_reaches rfl (he.1.trans hd.1)

private theorem settled_functionTail (start : Nat) :
    (Phrase.functionTail start).Settled limit mode (fuel + 1) (fuel' + 1) c := by
  simp only [Phrase.Settled, Phrase.read, Parse.functionTail]
  refine (settles_expect (by decide)).bind ?_
  rintro ⟨paren?, c₁⟩ hp
  -- the body is read alike however the parameters were
  have hblock : ∀ (names : List String) (c₂ : Cursor), c₁.Reaches c₂ →
      Settles ((Phrase.functionTail start).Leaves c)
        ((Phrase.functionTail start).Short limit (fuel + 1) (fuel' + 1) c)
        (Parse.block limit mode fuel c₂ >>= fun body =>
          .ok (.function (body.2.spanFrom start) names body.1, body.2))
        (Parse.block none mode fuel' c₂ >>= fun body =>
          .ok (.function (body.2.spanFrom start) names body.1, body.2)) := by
    intro names c₂ hreach
    refine .call (ih .block c₂) (short_of_reaches (hp.1.trans hreach) ?_ (Nat.zero_le _)) ?_
    · simp only [Phrase.rank]
      split <;> decide
    · exact fun body d hb => .ok (leaves_of_reaches rfl ((hp.1.trans hreach).trans hb.1))
  cases paren? with
  | none => exact hblock [] c₁ (.refl c₁)
  | some paren =>
    cases ha : c₁.accept? .rightParen with
    | some next =>
      obtain ⟨t, c₂⟩ := next
      exact hblock [] c₂ (advances_of_accept? ha (by decide)).toReaches
    | none =>
      exact .call (ih (.params .rightParen 0) c₁)
        (short_of_reaches hp.1 (by simp [Phrase.rank]) (Nat.zero_le _))
        fun names c₂ hnames => hblock names c₂ hnames.1

private theorem settled_lambdaTail (start : Nat) :
    (Phrase.lambdaTail start).Settled limit mode (fuel + 1) (fuel' + 1) c := by
  simp only [Phrase.Settled, Phrase.read, Parse.lambdaTail]
  refine .call (ih (.params .colon 0) c)
    (short_of_reaches (.refl c) (by simp [Phrase.rank]) (Nat.zero_le _)) fun names c₁ hnames => ?_
  refine .call (ih (.expr 0) c₁)
    (short_of_reaches hnames.1 (by simp [Phrase.rank]) (Nat.zero_le _)) fun body c₂ hb => .ok ?_
  exact leaves_of_reaches rfl (hnames.1.trans hb.1)

/-! ## Statements -/

/-- A condition in parentheses and a statement behind it, whatever they are used for. -/
private theorem settles_headed {β : Type} {Q : β → Prop} {short : Prop}
    {f g : Expr × Cursor → Statement × Cursor → Except ParseError β} (hd : c.Advances d)
    (hs : ∀ q : Phrase, q.rounds = 0 → ∀ e, c.Advances e → q.Short limit fuel fuel' e → short)
    (hf : ∀ condition s, c.Advances s.2 → Settles Q short (f condition s) (g condition s)) :
    Settles Q short
      (do
        let c ← d.require mode .leftParen
        let condition ← Parse.expr limit mode fuel 0 c
        let c ← condition.2.require mode .rightParen
        let s ← Parse.statement limit mode fuel c
        f condition s)
      (do
        let c ← d.require mode .leftParen
        let condition ← Parse.expr none mode fuel' 0 c
        let c ← condition.2.require mode .rightParen
        let s ← Parse.statement none mode fuel' c
        g condition s) := by
  refine (settles_require (by decide)).bind fun c₁ hp => ?_
  have hadv := hd.trans hp.1
  refine .call (ih (.expr 0) c₁) (hs _ rfl _ hadv) fun condition c₂ hcondition => ?_
  refine (settles_require (by decide)).bind fun c₃ hq => ?_
  have hadv := (hadv.trans hcondition.1).trans hq.1
  exact .call (ih .statement c₃) (hs _ rfl _ hadv)
    fun s c₄ hstatement => hf _ (s, c₄) (hadv.trans hstatement.1)

private theorem settled_statement :
    Phrase.statement.Settled limit mode (fuel + 1) (fuel' + 1) c := by
  simp only [Phrase.Settled, Phrase.read, Parse.statement]
  have hsimple : Settles (Phrase.statement.Leaves c)
      (Phrase.statement.Short limit (fuel + 1) (fuel' + 1) c)
      (Parse.simpleStatement limit mode fuel c) (Parse.simpleStatement none mode fuel' c) :=
    .tail (ih .simpleStatement c)
      (short_of_reaches (.refl c) (by simp [Phrase.rank]) (Nat.zero_le _))
      fun s d h => leaves_of_advances (h.2 rfl)
  cases hr : c.rest with
  | nil => exact hsimple
  | cons t rest =>
    have hnext : t.kind ≠ .minus → c.Advances (c.pass t rest) := fun hk =>
      advances_of_next? (next?_of_rest hr) fun h => absurd h hk
    -- behind its first token a statement may call for any phrase
    have hcall : ∀ q : Phrase, q.rounds = 0 → ∀ e, c.Advances e → q.Short limit fuel fuel' e →
        Phrase.statement.Short limit (fuel + 1) (fuel' + 1) c :=
      fun q hq e he => short_of_consumes he.toConsumes (Nat.le_of_eq hq)
    dsimp only
    split
    -- a block
    · next hk =>
      refine .tail (ih .block c) (short_of_reaches (.refl c) ?_ (Nat.zero_le _)) fun s d h => ?_
      · simp [Phrase.rank, kind?_of_rest hr, hk]
      · exact leaves_of_advances (h.2 (by simp [Phrase.advances, kind?_of_rest hr, hk]))
    -- a return
    · next hk =>
      have hadv := hnext (by simp [hk])
      cases ha : (c.pass t rest).accept? .semicolon with
      | some next =>
        obtain ⟨t', c₁⟩ := next
        exact .ok (leaves_of_advances (hadv.trans (advances_of_accept? ha (by decide)).toReaches))
      | none =>
        refine .call (ih (.expr 0) _) (hcall _ rfl _ hadv) fun value c₁ hv => ?_
        refine (settles_require (by decide)).bind fun c₂ hs => .ok ?_
        exact leaves_of_advances ((hadv.trans hv.1).trans hs.1)
    -- a break
    · next hk =>
      have hadv := hnext (by simp [hk])
      refine (settles_require (by decide)).bind fun c₁ hs => .ok ?_
      exact leaves_of_advances (hadv.trans hs.1)
    -- a continue
    · next hk =>
      have hadv := hnext (by simp [hk])
      refine (settles_require (by decide)).bind fun c₁ hs => .ok ?_
      exact leaves_of_advances (hadv.trans hs.1)
    -- a branch
    · next hk =>
      refine settles_headed ih (hnext (by simp [hk])) hcall ?_
      rintro condition ⟨whenTrue, c₁⟩ hadv
      cases he : c₁.accept? .elseWord with
      | some next =>
        obtain ⟨t', c₂⟩ := next
        have hadv := hadv.trans (advances_of_accept? he (by decide)).toReaches
        exact .call (ih .statement c₂) (hcall _ rfl _ hadv)
          fun whenFalse c₃ hs => .ok (leaves_of_advances (hadv.trans hs.1))
      | none => exact .ok (leaves_of_advances hadv)
    -- a loop with a header of three parts
    · next hk =>
      have hadv := hnext (by simp [hk])
      exact .tail (ih (.forTail _) _) (hcall _ rfl _ hadv)
        fun s d h => leaves_of_advances (hadv.trans h.1)
    -- a loop with a condition
    · next hk =>
      exact settles_headed ih (hnext (by simp [hk])) hcall
        fun condition body hadv => .ok (leaves_of_advances hadv)
    -- an empty statement
    · next hk => exact .ok (leaves_of_advances (hnext (by simp [hk])))
    -- any other token begins a declaration, an assignment or a call
    · exact hsimple

private theorem settled_simpleStatement :
    Phrase.simpleStatement.Settled limit mode (fuel + 1) (fuel' + 1) c := by
  simp only [Phrase.Settled, Phrase.read, Parse.simpleStatement]
  refine .call (ih .declaration c)
    (short_of_reaches (.refl c) (by simp [Phrase.rank]) (Nat.zero_le _)) fun s c₁ hs => ?_
  refine (settles_require (by decide)).bind fun c₂ hr => .ok ?_
  exact leaves_of_advances ((hs.2 rfl).trans hr.1)

private theorem settled_forTail (start : Nat) :
    (Phrase.forTail start).Settled limit mode (fuel + 1) (fuel' + 1) c := by
  simp only [Phrase.Settled, Phrase.read, Parse.forTail]
  refine (settles_require (by decide)).bind fun c₁ hp => ?_
  refine .call (ih .initializer c₁)
    (short_of_reaches hp.1 (by simp [Phrase.rank]) (Nat.zero_le _)) fun initial c₂ hi => ?_
  have hreach := hp.1.trans hi.1
  refine .call (ih .condition c₂)
    (short_of_reaches hreach (by simp [Phrase.rank]) (Nat.zero_le _)) fun e? c₃ he => ?_
  have hreach := hreach.trans he.1
  refine .call (ih .iterator c₃)
    (short_of_reaches hreach (by simp [Phrase.rank]) (Nat.zero_le _)) fun step c₄ hs => ?_
  have hreach := hreach.trans hs.1
  refine .call (ih .statement c₄)
    (short_of_reaches hreach (by simp [Phrase.rank]) (Nat.zero_le _)) fun body c₅ hb => .ok ?_
  exact leaves_of_reaches rfl (hreach.trans hb.1)

/-- A part that may be left out in front of a token, as far as it is alike. -/
private theorem settles_optional {kind : TokenKind} (hk : kind ≠ .minus)
    (hs : q.Short limit fuel fuel' c → p.Short limit (fuel + 1) (fuel' + 1) c) :
    Settles (fun x : Option q.Result × Cursor => c.Reaches x.2)
      (p.Short limit (fuel + 1) (fuel' + 1) c)
      (match c.accept? kind with
        | some (_, c) => .ok (none, c)
        | none => do
          let (r, c) ← q.read limit mode fuel c
          let c ← c.require mode kind
          .ok (some r, c))
      (match c.accept? kind with
        | some (_, c) => .ok (none, c)
        | none => do
          let (r, c) ← q.read none mode fuel' c
          let c ← c.require mode kind
          .ok (some r, c)) := by
  cases ha : c.accept? kind with
  | some next =>
    obtain ⟨t, c₁⟩ := next
    exact .ok (advances_of_accept? ha hk).toReaches
  | none =>
    refine .call (ih q c) hs fun r c₁ h => ?_
    exact (settles_require hk).bind fun c₂ hr => .ok (h.1.trans hr.1)

private theorem settled_initializer :
    Phrase.initializer.Settled limit mode (fuel + 1) (fuel' + 1) c := by
  simp only [Phrase.Settled, Phrase.read, Parse.initializer]
  exact (settles_optional (q := .declaration) ih (by decide)
    (short_of_reaches (.refl c) (by simp [Phrase.rank]) (Nat.zero_le _))).mono
    (fun _ h => leaves_of_reaches rfl h) id

private theorem settled_condition :
    Phrase.condition.Settled limit mode (fuel + 1) (fuel' + 1) c := by
  simp only [Phrase.Settled, Phrase.read, Parse.condition]
  exact (settles_optional (q := .expr 0) ih (by decide)
    (short_of_reaches (.refl c) (by simp [Phrase.rank]) (Nat.zero_le _))).mono
    (fun _ h => leaves_of_reaches rfl h) id

private theorem settled_iterator :
    Phrase.iterator.Settled limit mode (fuel + 1) (fuel' + 1) c := by
  simp only [Phrase.Settled, Phrase.read, Parse.iterator]
  exact (settles_optional (q := .assignment) ih (by decide)
    (short_of_reaches (.refl c) (by simp [Phrase.rank]) (Nat.zero_le _))).mono
    (fun _ h => leaves_of_reaches rfl h) id

private theorem settled_block :
    Phrase.block.Settled limit mode (fuel + 1) (fuel' + 1) c := by
  simp only [Phrase.Settled, Phrase.read, Parse.block]
  refine (settles_require (by decide)).bind fun c₁ hl => ?_
  refine .call (ih (.statements 0) c₁) (fun hs => ?_) fun body c₂ hb => ?_
  · -- without its brace the block is of higher rank than its statements
    by_cases hk : c.kind? = some .leftBrace
    · exact short_of_consumes (hl.2 hk).toConsumes (Nat.zero_le _) hs
    · exact short_of_reaches hl.1 (by simp [Phrase.rank, hk]) (Nat.zero_le _) hs
  · refine (settles_require (by decide)).bind fun c₃ hr => .ok ?_
    have hreach := hb.1.trans hr.1
    exact ⟨hl.1.trans hreach,
      fun hk => (hl.2 (by simpa [Phrase.advances] using hk)).trans hreach⟩

private theorem settled_declaration :
    Phrase.declaration.Settled limit mode (fuel + 1) (fuel' + 1) c := by
  simp only [Phrase.Settled, Phrase.read, Parse.declaration]
  cases ha : c.accept? .letWord with
  | none =>
    exact .tail (ih .assignment c)
      (short_of_reaches (.refl c) (by simp [Phrase.rank]) (Nat.zero_le _))
      fun s d h => leaves_of_advances (h.2 rfl)
  | some next =>
    obtain ⟨t, c₁⟩ := next
    have hadv := advances_of_accept? ha (by decide)
    refine (settles_expect (by decide)).bind ?_
    rintro ⟨name?, c₂⟩ hname
    have hadv := hadv.trans hname.1
    dsimp only
    split
    · exact .ok (leaves_of_advances hadv)
    · refine (settles_require (by decide)).bind fun c₃ hq => ?_
      have hadv := hadv.trans hq.1
      refine .call (ih (.expr 0) c₃) (short_of_consumes hadv.toConsumes (Nat.zero_le _))
        fun value c₄ hv => .ok ?_
      exact leaves_of_advances (hadv.trans hv.1)

private theorem settled_assignment :
    Phrase.assignment.Settled limit mode (fuel + 1) (fuel' + 1) c := by
  simp only [Phrase.Settled, Phrase.read, Parse.assignment]
  cases ha : c.accept? .identifier with
  | none => exact .error (by simp)
  | some next =>
    obtain ⟨name, c₁⟩ := next
    have hadv := advances_of_accept? ha (by decide)
    refine .call (ih (.suffixes 0 (.name name.span name.text) false) c₁)
      (short_of_consumes hadv.toConsumes (Nat.zero_le _)) ?_
    rintro ⟨target, isCall⟩ c₂ hs
    have hadv := hadv.trans hs.1
    -- without an operator the tolerant mode keeps the target, and the strict mode fails
    have hunassigned : Settles (Phrase.assignment.Leaves c)
        (Phrase.assignment.Short limit (fuel + 1) (fuel' + 1) c)
        (unassigned mode target c₂) (unassigned mode target c₂) := by
      cases mode with
      | tolerant => exact .ok (leaves_of_advances hadv)
      | strict => exact .error (by simp)
    cases isCall with
    | true => exact .ok (leaves_of_advances hadv)
    | false =>
      simp only [Bool.false_eq_true, if_false]
      cases hr : c₂.rest with
      | nil => exact hunassigned
      | cons t rest =>
        dsimp only
        cases AssignOp.ofToken? t.kind with
        | none => exact hunassigned
        | some op =>
          have hadv := hadv.trans (consumes_of_next? (next?_of_rest hr)).toReaches
          refine .call (ih (.expr 0) _) (short_of_consumes hadv.toConsumes (Nat.zero_le _))
            fun value c₃ hv => .ok ?_
          exact leaves_of_advances (hadv.trans hv.1)

end

/-! ## Loops -/

/-- A phrase that is no loop is read in one round. -/
theorem settles_ends (h : p.Settled limit mode (fuel + 1) (fuel' + 1) c) :
    Settles (Turn.Leaves c) (p.Short limit (fuel + 1) (fuel' + 1) c)
      (p.read limit mode (fuel + 1) c >>= fun (r, d) => .ok (.ends r, d))
      (p.read none mode (fuel' + 1) c >>= fun (r, d) => .ok (.ends r, d)) :=
  h.bind fun _ hr => .ok hr

private theorem settled_round_params (closing : TokenKind) (rounds : Nat) :
    Settles (Turn.Leaves c) ((Phrase.params closing rounds).Short limit (fuel + 1) (fuel' + 1) c)
      ((Phrase.params closing rounds).round limit mode fuel c)
      ((Phrase.params closing rounds).round none mode fuel' c) := by
  simp only [Phrase.round]
  refine (settles_tick (.params closing rounds) c).bind fun n hn => ?_
  refine (settles_expect (by decide)).bind ?_
  rintro ⟨name?, c₁⟩ hname
  cases name? with
  | none => exact .ok (leaves_of_reaches rfl hname.1)
  | some name =>
    have hadv := hname.2 rfl
    cases ha : c₁.accept? closing with
    | some next =>
      obtain ⟨t, c₂⟩ := next
      -- the name has been taken, so the closing token need not count
      have hclosing := consumes_of_next? (accept?_eq_some_iff.1 ha).1
      exact .ok (leaves_of_reaches rfl (hadv.trans hclosing.toReaches).toReaches)
    | none =>
      refine (settles_expect (by decide)).bind ?_
      rintro ⟨comma?, c₂⟩ hcomma
      cases comma? with
      | none => exact .ok (leaves_of_reaches rfl (hadv.trans hcomma.1).toReaches)
      | some comma => exact .ok ⟨hadv.trans hcomma.1, hn⟩

section

variable (ih : ∀ (q : Phrase) (d : Cursor), q.Settled limit mode fuel fuel' d)
include ih

private theorem settled_round_operators (depth start rounds : Nat) (left : Option Expr) :
    Settles (Turn.Leaves c)
      ((Phrase.operators depth start rounds left).Short limit (fuel + 1) (fuel' + 1) c)
      ((Phrase.operators depth start rounds left).round limit mode fuel c)
      ((Phrase.operators depth start rounds left).round none mode fuel' c) := by
  cases left with
  | none =>
    simp only [Phrase.round]
    refine (settles_tick (.operators depth start rounds none) c).bind fun n hn => ?_
    refine .call (ih (.prefixOperator depth start) c)
      (short_of_reaches (.refl c) (by simp [Phrase.rank]) (Nat.zero_le _)) fun step d hs => ?_
    cases step with
    | more e => exact .ok ⟨hs.2 rfl, hn⟩
    | done =>
      cases mode with
      | tolerant => exact .ok (leaves_of_reaches rfl hs.1)
      | strict => exact .error (by simp)
  | some left =>
    simp only [Phrase.round]
    refine (settles_tick (.operators depth start rounds (some left)) c).bind fun n hn => ?_
    -- a number that is cut here is taken whole, its minus as the operator and the rest behind it
    have hsplit := reaches_splitNegative c
    refine .call (ih (.operator depth left) c.splitNegative)
      (short_of_reaches hsplit (by simp [Phrase.rank]) (Nat.zero_le _)) fun step d hs => ?_
    cases step with
    | more e => exact .ok ⟨hsplit.trans_advances (hs.2 rfl), hn⟩
    | done => exact .ok (leaves_of_reaches rfl (hsplit.trans hs.1))

private theorem settled_round_statements (rounds : Nat) :
    Settles (Turn.Leaves c) ((Phrase.statements rounds).Short limit (fuel + 1) (fuel' + 1) c)
      ((Phrase.statements rounds).round limit mode fuel c)
      ((Phrase.statements rounds).round none mode fuel' c) := by
  simp only [Phrase.round]
  split
  · exact .ok (leaves_of_reaches rfl (.refl c))
  · exact .ok (leaves_of_reaches rfl (.refl c))
  · refine (settles_tick (.statements rounds) c).bind fun n hn => ?_
    exact .call (ih .statement c)
      (short_of_reaches (.refl c) (by simp [Phrase.rank]) (Nat.zero_le _))
      fun first d hs => .ok ⟨hs.2 rfl, hn⟩

private theorem settled_round_suffixes (rounds : Nat) (node : Expr) (isCall : Bool) :
    Settles (Turn.Leaves c)
      ((Phrase.suffixes rounds node isCall).Short limit (fuel + 1) (fuel' + 1) c)
      ((Phrase.suffixes rounds node isCall).round limit mode fuel c)
      ((Phrase.suffixes rounds node isCall).round none mode fuel' c) := by
  simp only [Phrase.round]
  refine (settles_tick (.suffixes rounds node isCall) c).bind fun n hn => ?_
  cases hr : c.rest with
  | nil => exact .ok (leaves_of_reaches rfl (.refl c))
  | cons t rest =>
    have hnext : t.kind ≠ .minus → c.Advances (c.pass t rest) := fun hk =>
      advances_of_next? (next?_of_rest hr) fun h => absurd h hk
    dsimp only
    split
    -- a member access
    · next hk =>
      have hadv := hnext (by simp [hk])
      exact .call (ih (.expr 8) _) (short_of_consumes hadv.toConsumes (Nat.zero_le _))
        fun member d h => .ok ⟨hadv.trans h.1, hn⟩
    -- a call
    · next hk =>
      have hadv := hnext (by simp [hk])
      exact .call (ih .arguments _) (short_of_consumes hadv.toConsumes (Nat.zero_le _))
        fun args d h => .ok ⟨hadv.trans h.1, hn⟩
    -- a subscript
    · next hk =>
      have hadv := hnext (by simp [hk])
      refine .call (ih (.expr 1) _) (short_of_consumes hadv.toConsumes (Nat.zero_le _))
        fun index d h => ?_
      exact (settles_require (by decide)).bind fun d' hq =>
        .ok ⟨(hadv.trans h.1).trans hq.1, hn⟩
    -- no suffix begins here
    · exact .ok (leaves_of_reaches rfl (.refl c))

/-- Every round settles. -/
theorem settled_round (p : Phrase) (c : Cursor) :
    Settles (Turn.Leaves c) (p.Short limit (fuel + 1) (fuel' + 1) c)
      (p.round limit mode fuel c) (p.round none mode fuel' c) := by
  cases p with
  | operators => exact settled_round_operators ih ..
  | params => exact settled_round_params ..
  | statements => exact settled_round_statements ih _
  | suffixes => exact settled_round_suffixes ih ..
  | expr => exact settles_ends (settled_expr ih _)
  | operand => exact settles_ends (settled_operand ih)
  | prefixOperator => exact settles_ends (settled_prefixOperator ih ..)
  | operator => exact settles_ends (settled_operator ih ..)
  | arguments => exact settles_ends (settled_arguments ih)
  | functionTail => exact settles_ends (settled_functionTail ih _)
  | lambdaTail => exact settles_ends (settled_lambdaTail ih _)
  | statement => exact settles_ends (settled_statement ih)
  | simpleStatement => exact settles_ends (settled_simpleStatement ih)
  | forTail => exact settles_ends (settled_forTail ih _)
  | initializer => exact settles_ends (settled_initializer ih)
  | condition => exact settles_ends (settled_condition ih)
  | iterator => exact settles_ends (settled_iterator ih)
  | block => exact settles_ends (settled_block ih)
  | declaration => exact settles_ends (settled_declaration ih)
  | assignment => exact settles_ends (settled_assignment ih)

theorem settled_succ (p : Phrase) (c : Cursor) :
    p.Settled limit mode (fuel + 1) (fuel' + 1) c := by
  rw [Phrase.Settled, read_eq_round, read_eq_round]
  refine (settled_round ih p c).bind fun (turn, d) h => ?_
  cases turn with
  | ends r => exact .ok h
  | again q finish =>
    -- one more round is behind and at least one token fewer ahead
    exact .call (ih q d) (short_of_advances h.1 h.2)
      fun r e hr => .ok (leaves_of_advances (h.1.trans hr.1))

end

/-- The functions of the grammar settle. -/
theorem settled (limit : Option Nat) (mode : ParseMode) (fuel fuel' : Nat) (p : Phrase)
    (c : Cursor) : p.Settled limit mode fuel fuel' c := by
  induction fuel generalizing fuel' p c with
  | zero =>
    have hshort : p.Short limit 0 fuel' c :=
      .inl (Nat.lt_of_lt_of_le (p.one_le_rank c) (Nat.le_add_left _ _))
    refine ⟨fun h => ?_, fun hn => absurd hshort hn, fun hn => absurd hshort hn⟩
    rw [Phrase.read_zero] at h
    cases h
  | succ fuel ih =>
    cases fuel' with
    | zero =>
      have hshort : p.Short limit (fuel + 1) 0 c :=
        .inr (.inl (Nat.lt_of_lt_of_le (p.one_le_rank c) (Nat.le_add_left _ _)))
      -- the second reading does not matter for what the first one reads
      exact ⟨(settled_succ (ih 0) p c).meets, fun hn => absurd hshort hn,
        fun hn => absurd hshort hn⟩
    | succ fuel' => exact settled_succ (ih fuel') p c

/-! ## Whole texts -/

/-- A text with fewer tokens than the limit is not read for too long. -/
theorem parse_ne_loopLimit {isScript : Bool} {source : String} {tokens : List Token} {offset : Nat}
    (hscan : Token.scan source = .ok tokens) (hlen : tokens.length < loopLimit) :
    Code.parse mode isScript source ≠ .error (.loopLimit offset) := by
  have hstart : start mode source ≠ .error (.loopLimit offset) := by
    unfold start
    rw [hscan]
    split
    · simp
    · split <;> simp
    · simp
  have hread : ∀ p : Phrase, p.rounds = 0 → ∀ c, start mode source = .ok c →
      p.read (some loopLimit) mode c.budget c ≠ .error (.loopLimit offset) := by
    intro p hp c hc
    refine (settled (some loopLimit) mode c.budget c.budget p c).unlimited ?_ offset
    -- no round is behind yet, so there are no more to come than there are tokens
    have hcount := c.count_le_length
    rw [rest_of_start hscan hc] at hcount
    rintro (h | h | ⟨most, ⟨⟩, h⟩)
    · exact Nat.not_le.2 h fuel_le_budget
    · exact Nat.not_le.2 h fuel_le_budget
    · omega
  have hfinish : ∀ c, finish c ≠ .error (.loopLimit offset) := by
    intro c
    unfold finish
    split <;> simp
  -- a text is read in three steps, and none of them runs into the limit
  intro h
  cases isScript with
  | true =>
    rw [Code.parse, if_pos rfl, Except.map_eq_error_iff, Statement.parseScript] at h
    rcases Except.bind_eq_error_iff.1 h with h | ⟨c, hc, h⟩
    · exact hstart h
    rcases Except.bind_eq_error_iff.1 h with h | ⟨⟨body, d⟩, -, h⟩
    · exact hread (.statements 0) rfl c hc h
    rcases Except.bind_eq_error_iff.1 h with h | ⟨-, -, ⟨⟩⟩
    exact hfinish d h
  | false =>
    rw [Code.parse, if_neg Bool.false_ne_true, Except.map_eq_error_iff, Expr.parse] at h
    rcases Except.bind_eq_error_iff.1 h with h | ⟨c, hc, h⟩
    · exact hstart h
    rcases Except.bind_eq_error_iff.1 h with h | ⟨⟨e, d⟩, -, h⟩
    · exact hread (.expr 0) rfl c hc h
    rcases Except.bind_eq_error_iff.1 h with h | ⟨-, -, ⟨⟩⟩
    exact hfinish d h

/-- Every loop of the parser makes progress, in both modes. A phrase is read round by round, and
wherever a round goes on, it has taken a token: the tokens left, once negative numbers are cut, are
the end of those there were and fewer of them, and they are fewer as well where a minus directly in
front of a number counts as a part of it. So without a limit on the rounds every reading comes to an
end: from some depth of calls on, a greater bound on it changes nothing, and no bound was too small.
And the limit is never reached in a text with fewer tokens. -/
theorem loops_make_progress (mode : ParseMode) :
    (∀ (limit : Option Nat) (fuel : Nat) (p : Phrase) (c : Cursor),
      p.read limit mode (fuel + 1) c =
          (p.round limit mode fuel c >>= Turn.resume limit mode fuel) ∧
        ∀ (q : Phrase) (finish : q.Result → p.Result) (d : Cursor),
          p.round limit mode fuel c = .ok (.again q finish, d) →
            c.Advances d ∧ q.rounds = p.rounds + 1) ∧
    (∀ (p : Phrase) (c : Cursor) (fuel : Nat), p.fuel c ≤ fuel →
      p.read none mode fuel c = p.read none mode (p.fuel c) c ∧
        ∀ offset, p.read none mode fuel c ≠ .error (.loopLimit offset)) ∧
    ∀ (isScript : Bool) (source : String) (tokens : List Token),
      Token.scan source = .ok tokens → tokens.length < loopLimit →
        ∀ offset, Code.parse mode isScript source ≠ .error (.loopLimit offset) := by
  refine ⟨fun limit fuel p c => ⟨read_eq_round p c, fun q finish d h => ?_⟩,
    fun p c fuel hfuel => ?_, fun isScript source tokens hscan hlen offset =>
      parse_ne_loopLimit hscan hlen⟩
  · exact (settled_round (settled limit mode fuel 0) p c).meets h
  · have hsettled := settled none mode fuel (p.fuel c) p c
    have hlong : ¬p.Short none fuel (p.fuel c) c := by
      rintro (h | h | ⟨most, ⟨⟩, -⟩) <;> omega
    exact ⟨hsettled.agrees hlong, hsettled.unlimited hlong⟩

/-- A statement with a negative number that is a subtraction, and without its semicolon. -/
theorem loops_make_progress_of_subtraction :
    (∃ tokens, Token.scan "f(a -1)" = .ok tokens ∧ tokens.length < loopLimit ∧
      ∀ offset, Code.parse .tolerant true "f(a -1)" ≠ .error (.loopLimit offset)) ∧
    ∃ (c : Cursor) (q : Phrase) (finish : q.Result → Expr) (d : Cursor),
      (Phrase.operators 1 0 0 (some (.null (.empty 0)))).round none .tolerant 20 c =
          .ok (.again q finish, d) ∧
        c.Advances d ∧ q.rounds = 1 ∧ (Phrase.expr 0).fuel c ≤ 20 ∧
        ∀ offset, (Phrase.expr 0).read none .tolerant 20 c ≠ .error (.loopLimit offset) := by
  obtain ⟨hrounds, hends, htexts⟩ := loops_make_progress .tolerant
  refine ⟨?_, ?_⟩
  · have hscan : ((Token.scan "f(a -1)").map (·.length)).toOption = some 5 := by decide
    cases htokens : Token.scan "f(a -1)" with
    | error e =>
      rw [htokens] at hscan
      cases hscan
    | ok tokens =>
      have hlen : tokens.length = 5 := by
        rw [htokens] at hscan
        exact Option.some.inj hscan
      have hlt : tokens.length < loopLimit := by
        rw [hlen]
        decide
      exact ⟨tokens, rfl, hlt, htexts true _ tokens htokens hlt⟩
  · let c := ofTokens [⟨.number, ⟨0, 2⟩, "-1"⟩]
    have hgoes : (match (Phrase.operators 1 0 0 (some (.null (.empty 0)))).round none .tolerant 20
          (ofTokens [⟨.number, ⟨0, 2⟩, "-1"⟩]) with
        | .ok (.again _ _, _) => true
        | _ => false) = true := by
      decide +kernel
    have hfuel : (Phrase.expr 0).fuel c ≤ 20 := by decide
    split at hgoes
    · next q finish d hround =>
      obtain ⟨hadv, hq⟩ := (hrounds none 20 _ c).2 q finish d hround
      exact ⟨c, q, finish, d, hround, hadv, hq, hfuel, (hends (.expr 0) c 20 hfuel).2⟩
    · cases hgoes

end SearchScript.Parse
