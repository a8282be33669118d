import Mathlib
import SearchScript.Proofs.Run.Fuel
import SearchScript.Proofs.Run.Jumps
import SearchScript.Proofs.Run.Speculation

/-!
# A `for` loop as a `while` loop

A `for` loop does what a `while` loop does that has the initializer in front of it and the iterator
at the end of its body. Only a jump can tell them apart: behind a `continue` the iterator is still
run, but the end of a body is not, and a jump in the iterator itself would leave the loop instead of
belonging to it. The grammar has no jumps in iterators.

Both loops go through rounds. In the proof a round of one is compared with a round of the other, and
then, by induction on the steps that are left, the rounds that follow.

## Key definitions

- `Statement.asWhile`: a `for` loop written as a `while` loop

## Key results

- `Walk.goOn_bind`: what is run at the end of a body may as well be run behind it
- `Code.forLoop_endAlike_asWhile`: both loops go on for ever, or both end in the same way
-/

namespace SearchScript

/-- A `for` loop written as a `while` loop: behind the initializer, with the iterator at the end of
the body. A missing condition is true. Blocks have no scope of their own. -/
def Statement.asWhile (span : Span) (initializer : Option Statement) (condition : Option Expr)
    (iterator : Option Statement) (body : Statement) : Statement :=
  .block span (initializer.toList ++ [.whileLoop span (condition.getD (.boolean span true))
    (.block span (body :: iterator.toList))])

namespace Walk

open Run hiding pure bind

/-! ## What a loop does with its body -/

/-- What a loop does when its body has ended: a break ends the loop, and behind a continue it goes
on as behind the end of the body. -/
def behindBody (rest : Run Value) : Except Signal Value → Run Value
  | .error .breakLoop => pure .null
  | .ok _ | .error .continueLoop => rest
  | .error s => Run.raise s

/-- The body of a loop and what follows. -/
def goOn (body rest : Run Value) : Run Value := Run.attempt body >>= behindBody rest

section

variable {body step rest longer longerRest : Run Value} {st st₁ : Store} {s : Signal}
  {r : Except Signal Value}

theorem goOn_of_none (h : body st = none) : goOn body rest st = none :=
  bind_of_none (attempt_of_none h)

theorem goOn_of_some (h : body st = some (r, st₁)) : goOn body rest st = behindBody rest r st₁ :=
  bind_of_ok (attempt_of_some h)

theorem behindBody_error (hs : ∀ jump : Jump, s ≠ jump.signal) :
    behindBody rest (.error s) = Run.raise s := by
  cases s with
  | breakLoop => exact absurd rfl (hs .breakLoop)
  | continueLoop => exact absurd rfl (hs .continueLoop)
  | leave | suggest | fail => rfl

theorem prolongedBy_goOn (h : body.ProlongedBy longer) (hrest : rest.ProlongedBy longerRest) :
    (goOn body rest).ProlongedBy (goOn longer longerRest) := by
  refine h.attempt.bind fun r => ?_
  cases r with
  | ok v => exact hrest
  | error s =>
    cases s with
    | continueLoop => exact hrest
    | leave | breakLoop | suggest | fail => exact .refl _

/-- What is run at the end of a body may as well be run behind it, if no continue passes it over and
it has no jump of its own. -/
theorem goOn_bind (hbody : ∀ st st', body st ≠ some (.error .continueLoop, st'))
    (hstep : ∀ (jump : Jump) st st', step st ≠ some (.error jump.signal, st')) :
    goOn (body >>= fun _ => step) rest = goOn body (step >>= fun _ => rest) := by
  funext st
  cases hb : body st with
  | none => rw [goOn_of_none (bind_of_none hb), goOn_of_none hb]
  | some p =>
    obtain ⟨s | v, st₁⟩ := p
    · rw [goOn_of_some (bind_of_error hb), goOn_of_some hb]
      cases s with
      | continueLoop => exact absurd hb (hbody st st₁)
      | leave | breakLoop | suggest | fail => rfl
    · have hseq : (body >>= fun _ => step) st = step st₁ := bind_of_ok hb
      rw [goOn_of_some hb]
      change _ = (step >>= fun _ => rest) st₁
      cases hs : step st₁ with
      | none => rw [goOn_of_none (hseq.trans hs), bind_of_none hs]
      | some p =>
        obtain ⟨s | w, st₂⟩ := p
        -- what ends the step is no jump, so it ends the loop in either program
        · have hjump : ∀ jump : Jump, s ≠ jump.signal := by
            rintro jump rfl
            exact hstep jump st₁ st₂ hs
          rw [goOn_of_some (hseq.trans hs), bind_of_error hs, behindBody_error hjump]
          rfl
        · rw [goOn_of_some (hseq.trans hs), bind_of_ok hs]
          rfl

end

/-! ## Rounds -/

section

variable {ctx : Context} {fuel : Nat} {condition : Option Expr} {iterator : Option Statement}
  {body : Statement} {span : Span}

theorem round_eq (goesOn : Bool) : round fuel ctx condition iterator body goesOn =
    if goesOn then goOn (statement fuel ctx body) (nextRound fuel ctx condition iterator body)
    else pure .null := by
  cases goesOn <;> rfl

/-- A loop without a condition goes on as one whose condition is `true`. -/
theorem prolongedBy_truth_true :
    (truth fuel ctx (.boolean span true)).ProlongedBy (pure true) := by
  match fuel with
  | 0 | 1 => exact prolongedBy_cutOff _
  | fuel + 2 => exact .refl _

/-- A loop has no value of its own. -/
theorem eq_null_of_rounds {st st' : Store} {v : Value}
    (h : rounds fuel ctx condition iterator body st = some (.ok v, st')) : v = .null := by
  induction fuel generalizing st with
  | zero => cases h
  | succ fuel ih =>
    have hround : ∀ goesOn st,
        round fuel ctx condition iterator body goesOn st = some (.ok v, st') → v = .null := by
      intro goesOn st h
      rw [round_eq] at h
      cases goesOn with
      | false =>
        cases h
        rfl
      | true =>
        obtain ⟨r, st₁, -, h⟩ := of_bind_eq_ok h
        have hrest : nextRound fuel ctx condition iterator body st₁ = some (.ok v, st') →
            v = .null := by
          intro h
          cases iterator with
          | none => exact ih h
          | some s =>
            obtain ⟨w, st₂, -, h⟩ := of_bind_eq_ok h
            exact ih h
        -- the loop answers null when it is left by `break`, and anything else that leaves it is no
        -- value
        match r with
        | .ok _ | .error .continueLoop => exact hrest h
        | .error .breakLoop =>
          cases h
          rfl
        | .error (.leave _) | .error (.suggest _) | .error (.fail _) => cases h
    cases condition with
    | none => exact hround true st h
    | some e =>
      obtain ⟨goesOn, st₁, -, h⟩ := of_bind_eq_ok h
      exact hround goesOn st₁ h

theorem rounds_bind_null :
    (rounds fuel ctx condition iterator body >>= fun _ => pure .null) =
      rounds fuel ctx condition iterator body := by
  funext st
  cases h : rounds fuel ctx condition iterator body st with
  | none => exact bind_of_none h
  | some p =>
    obtain ⟨s | v, st₁⟩ := p
    · exact bind_of_error h
    · obtain rfl := eq_null_of_rounds h
      exact bind_of_ok h

/-- No jump leaves the iterator, as the statement at the end of a body. -/
theorem statements_ne_jump (hiterator : ∀ jump, Statement.optionJumpsOut jump iterator = false)
    (jump : Jump) (st st' : Store) :
    statements fuel ctx iterator.toList st ≠ some (.error jump.signal, st') := by
  intro h
  have hout : (Statement.block default iterator.toList).jumpsOut jump = true :=
    jumpsOut_of_statement (show statement (fuel + 1) ctx _ st = _ from h)
  have hnone := hiterator jump
  cases iterator with
  | none => cases hout
  | some s => simp_all [Statement.jumpsOut, Statement.anyJumpsOut, Statement.optionJumpsOut]

/-- An iterator at the end of a block, in front of what follows the block. -/
theorem statements_iterator_bind (rest : Run Value) :
    (statements (fuel + 2) ctx iterator.toList >>= fun _ => rest) =
      match iterator with
      | some s => statement (fuel + 1) ctx s >>= fun _ => rest
      | none => rest := by
  cases iterator with
  | none => rfl
  | some s => exact bind_bind _ _ _

theorem nextRound_prolongedBy {rest : Run Value}
    (h : (rounds fuel ctx condition iterator body).ProlongedBy rest) :
    (nextRound fuel ctx condition iterator body).ProlongedBy
      (statements (fuel + 2) ctx iterator.toList >>= fun _ => rest) := by
  rw [statements_iterator_bind]
  cases iterator with
  | none => exact h
  | some s => exact ((prolonged (Nat.le_add_right fuel 1)).statement ctx s).bind fun _ => h

theorem prolongedBy_nextRound {rest : Run Value}
    (h : rest.ProlongedBy (rounds (fuel + 2) ctx condition iterator body)) :
    (statements fuel ctx iterator.toList >>= fun _ => rest).ProlongedBy
      (nextRound (fuel + 2) ctx condition iterator body) := by
  have hmore := (prolonged (Nat.le_add_right fuel 2)).statements ctx iterator.toList
  refine (hmore.bind fun _ => .refl _).trans ?_
  rw [statements_iterator_bind]
  cases iterator with
  | none => exact h
  | some s => exact ((prolonged (Nat.le_succ (fuel + 1))).statement ctx s).bind fun _ => h

section

variable (hbody : body.jumpsOut .continueLoop = false)
  (hiterator : ∀ jump, Statement.optionJumpsOut jump iterator = false)
include hbody hiterator

/-- A round of a `while` loop with the iterator at the end of its body. -/
theorem goOn_block (rest : Run Value) :
    goOn (statement (fuel + 2) ctx (.block span (body :: iterator.toList))) rest =
      goOn (statement fuel ctx body) (statements fuel ctx iterator.toList >>= fun _ => rest) := by
  refine goOn_bind (fun st st' h => ?_) (statements_ne_jump hiterator)
  have hjump : body.jumpsOut .continueLoop = true := jumpsOut_of_statement h
  rw [hjump] at hbody
  cases hbody

/-- The rounds of a `for` loop end as those of its `while` form do, which take a few steps more. -/
theorem rounds_prolongedBy_asWhile : (rounds fuel ctx condition iterator body).ProlongedBy
    (rounds (fuel + 4) ctx (some (condition.getD (.boolean span true))) none
      (.block span (body :: iterator.toList))) := by
  induction fuel with
  | zero => exact prolongedBy_cutOff _
  | succ fuel ih =>
    have hround : ∀ goesOn, (round fuel ctx condition iterator body goesOn).ProlongedBy
        (round (fuel + 4) ctx (some (condition.getD (.boolean span true))) none
          (.block span (body :: iterator.toList)) goesOn) := by
      intro goesOn
      rw [round_eq, round_eq]
      cases goesOn with
      | false => exact .refl _
      | true =>
        simp only [if_true]
        rw [goOn_block hbody hiterator]
        refine prolongedBy_goOn ((prolonged (by omega)).statement ctx body) ?_
        exact nextRound_prolongedBy ih
    cases condition with
    | none => exact hround true
    | some e => exact ((prolonged (by omega)).truth ctx e).bind hround

theorem asWhile_prolongedBy_rounds :
    (rounds fuel ctx (some (condition.getD (.boolean span true))) none
      (.block span (body :: iterator.toList))).ProlongedBy
    (rounds (fuel + 2) ctx condition iterator body) := by
  induction fuel with
  | zero => exact prolongedBy_cutOff _
  | succ fuel ih =>
    have hround : ∀ goesOn, (round fuel ctx (some (condition.getD (.boolean span true))) none
        (.block span (body :: iterator.toList)) goesOn).ProlongedBy
        (round (fuel + 2) ctx condition iterator body goesOn) := by
      intro goesOn
      rw [round_eq, round_eq]
      cases goesOn with
      | false => exact .refl _
      | true =>
        simp only [if_true]
        -- with two steps more, the block comes to its statements
        have hblock := (prolonged (Nat.le_add_right fuel 2)).statement ctx
          (.block span (body :: iterator.toList))
        refine (prolongedBy_goOn hblock (.refl _)).trans ?_
        rw [goOn_block hbody hiterator]
        exact prolongedBy_goOn ((prolonged (Nat.le_add_right fuel 2)).statement ctx body)
          (prolongedBy_nextRound ih)
    cases condition with
    | none => exact prolongedBy_truth_true.bind hround
    | some e => exact ((prolonged (Nat.le_add_right fuel 2)).truth ctx e).bind hround

end

/-! ## Whole loops -/

section

variable {run : Nat} {env : Env}

theorem statement_asWhile_none :
    statement (fuel + 3) ⟨.real, run, env⟩ (.asWhile span none condition iterator body) =
      rounds fuel ⟨.real, run, env⟩ (some (condition.getD (.boolean span true))) none
        (.block span (body :: iterator.toList)) :=
  rounds_bind_null

theorem statement_asWhile_some (s : Statement) :
    statement (fuel + 4) ⟨.real, run, env⟩ (.asWhile span (some s) condition iterator body) =
      statement (fuel + 2) ⟨.real, run, env⟩ s >>= fun _ =>
        rounds fuel ⟨.real, run, env⟩ (some (condition.getD (.boolean span true))) none
          (.block span (body :: iterator.toList)) :=
  congrArg (statement (fuel + 2) ⟨.real, run, env⟩ s >>= ·) (funext fun _ => rounds_bind_null)

variable {initializer : Option Statement} (hbody : body.jumpsOut .continueLoop = false)
  (hiterator : ∀ jump, Statement.optionJumpsOut jump iterator = false)
include hbody hiterator

theorem forLoop_prolongedBy_asWhile :
    (statement fuel ⟨.real, run, env⟩
      (.forLoop span initializer condition iterator body)).ProlongedBy
    (statement (fuel + 7) ⟨.real, run, env⟩
      (.asWhile span initializer condition iterator body)) := by
  cases fuel with
  | zero => exact prolongedBy_cutOff _
  | succ fuel =>
    have hrounds : (rounds fuel ⟨.real, run, env⟩ condition iterator body).ProlongedBy
        (rounds (fuel + 4) ⟨.real, run, env⟩ (some (condition.getD (.boolean span true))) none
          (.block span (body :: iterator.toList))) := rounds_prolongedBy_asWhile hbody hiterator
    cases initializer with
    | none =>
      rw [statement_asWhile_none]
      exact hrounds.trans ((prolonged (by omega)).rounds _ _ _ _)
    | some s =>
      rw [statement_asWhile_some]
      exact ((prolonged (by omega)).statement _ s).bind fun _ => hrounds

theorem asWhile_prolongedBy_forLoop :
    (statement fuel ⟨.real, run, env⟩
      (.asWhile span initializer condition iterator body)).ProlongedBy
    (statement (fuel + 4) ⟨.real, run, env⟩
      (.forLoop span initializer condition iterator body)) := by
  have hrounds (fuel : Nat) : (rounds fuel ⟨.real, run, env⟩
      (some (condition.getD (.boolean span true))) none
      (.block span (body :: iterator.toList))).ProlongedBy
      (rounds (fuel + 2) ⟨.real, run, env⟩ condition iterator body) :=
    asWhile_prolongedBy_rounds hbody hiterator
  refine ((prolonged (Nat.le_add_right fuel 4)).statement _ _).trans ?_
  cases initializer with
  | none =>
    rw [statement_asWhile_none]
    exact hrounds (fuel + 1)
  | some s =>
    rw [statement_asWhile_some]
    exact ((prolonged (by omega)).statement _ s).bind fun _ =>
      (hrounds fuel).trans ((prolonged (by omega)).rounds _ _ _ _)

end

end

end Walk

namespace Code

open Run

variable {isScript : Bool} {source : String} {code : Code} {span : Span}
  {initializer iterator : Option Statement} {condition : Option Expr} {body : Statement}

/-- The iterator of a loop that was read is an assignment or a call, and has no jump. -/
theorem jumpsOut_of_iterator (hparse : Code.parse .strict isScript source = .ok code)
    (hnode : .statement (.forLoop span initializer condition iterator body) ∈ code.nodes)
    (jump : Jump) : Statement.optionJumpsOut jump iterator = false := by
  have hshaped := shaped_of_parse hparse _ hnode
  simp only [isShaped, Bool.and_eq_true] at hshaped
  obtain ⟨-, hassignment⟩ := hshaped
  cases iterator with
  | none => rfl
  | some s =>
    simp only [Option.all_some] at hassignment
    cases s <;> first | rfl | cases hassignment

/-- In a program that was read no jump stands in the iterator of a loop. If there is none, and the
body has no continue that belongs to the loop, then the loop and its form as a `while` loop, run for
real in any environment and in any store, both go on for ever, or both end with the same value or
signal and the same store. -/
theorem forLoop_endAlike_asWhile :
    (∀ {isScript source code span initializer condition iterator body},
      Code.parse .strict isScript source = .ok code →
      .statement (.forLoop span initializer condition iterator body) ∈ code.nodes →
      ∀ jump, Statement.optionJumpsOut jump iterator = false) ∧
    ∀ {run env st span initializer condition iterator body},
      Statement.jumpsOut .continueLoop body = false →
      (∀ jump, Statement.optionJumpsOut jump iterator = false) →
      EndAlike
        (fun fuel => Walk.statement fuel ⟨.real, run, env⟩
          (.forLoop span initializer condition iterator body))
        (fun fuel => Walk.statement fuel ⟨.real, run, env⟩
          (.asWhile span initializer condition iterator body)) st := by
  refine ⟨jumpsOut_of_iterator, ?_⟩
  intro run env st span initializer condition iterator body hbody hiterator
  have hlasting : ∀ s, Lasting fun fuel => Walk.statement fuel ⟨.real, run, env⟩ s :=
    fun s _ _ hle => (Walk.prolonged hle).statement _ s
  refine (hlasting _).endAlike (hlasting _) fun outcome => ⟨?_, ?_⟩
  · rintro ⟨fuel, h⟩
    exact ⟨fuel + 7, Walk.forLoop_prolongedBy_asWhile hbody hiterator h⟩
  · rintro ⟨fuel, h⟩
    exact ⟨fuel + 4, Walk.asWhile_prolongedBy_forLoop hbody hiterator h⟩

/-- A loop without a condition that its iterator prepares to break. -/
theorem forLoop_endAlike_asWhile_of_break :
    let st : Store := { slots := #[.null], hosts := #[{ locals := [("b", .cell 0)] }] }
    let ctx : Context := ⟨.real, 0, ⟨[], 0⟩⟩
    let source := "for (b = true; ; b = !b) if (!b) break;"
    ∃ initializer iterator body, Code.parse .strict true source =
        .ok (.statement (.block ⟨0, 39⟩ [.forLoop ⟨0, 39⟩ initializer none iterator body])) ∧
      ∃ enough outcome, ∀ fuel ≥ enough,
        Walk.statement fuel ctx (.forLoop ⟨0, 39⟩ initializer none iterator body) st =
          some outcome ∧
        Walk.statement fuel ctx (.asWhile ⟨0, 39⟩ initializer none iterator body) st =
          some outcome := by
  intro st ctx source
  let b (start : Nat) : Expr := .name ⟨start, start + 1⟩ "b"
  let first : Statement := .assign ⟨5, 13⟩ .assign (b 5) (.boolean ⟨9, 13⟩ true)
  let last : Statement := .assign ⟨17, 23⟩ .assign (b 17) (.unary ⟨21, 23⟩ .not (b 22))
  let body : Statement :=
    .branch ⟨25, 39⟩ (.unary ⟨29, 31⟩ .not (b 30)) (.breakLoop ⟨33, 39⟩) none
  have hparse : Code.parse .strict true source = .ok (.statement
    (.block ⟨0, 39⟩ [.forLoop ⟨0, 39⟩ (some first) none (some last) body])) := by cbv
  have hiterator := forLoop_endAlike_asWhile.1 hparse
    (List.mem_cons_of_mem _ (List.mem_cons_self : _ ∈ _ :: _))
  refine ⟨some first, some last, body, hparse, ?_⟩
  have halike : EndAlike
      (fun fuel => Walk.statement fuel ctx (.forLoop ⟨0, 39⟩ (some first) none (some last) body))
      (fun fuel => Walk.statement fuel ctx (.asWhile ⟨0, 39⟩ (some first) none (some last) body))
      st := forLoop_endAlike_asWhile.2 rfl hiterator
  rcases halike with hnever | hends
  · have hruns : (Walk.statement 40 ctx
        (.forLoop ⟨0, 39⟩ (some first) none (some last) body) st).isSome = true := by decide +kernel
    exact absurd (hnever 40).1 (Option.isSome_iff_ne_none.1 hruns)
  · exact hends

end Code

end SearchScript
