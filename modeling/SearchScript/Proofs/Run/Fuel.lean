import SearchScript.Proofs.Run.Loops
import SearchScript.Proofs.Run.Steps

/-!
# More steps change no outcome

The parts of a program are run with a number of steps that they may take, and a run that would take
more is cut off. Nothing else depends on this number: a run that ends with some number of steps ends
in the same way with any larger one. So the outcome that a part of a program comes to is a matter of
the part and of the store alone, and a part that comes to none goes on for ever.

## Key definitions

- `Run.ProlongedBy`: a step that ends wherever another one does, and in the same way
- `Run.ComesTo`: the outcome of a step that is given enough steps
- `Run.EndAlike`: two steps that both go on for ever, or end in the same way

## Key results

- `Walk.prolonged`: every part of a program is prolonged by more steps
- `Run.Lasting.comesTo_bind`: what a sequence of steps comes to
-/

namespace SearchScript

namespace Run

variable {α β : Type} {st : Store}

/-- Whether a longer step ends wherever a step does, and in the same way. -/
def ProlongedBy (step longer : Run α) : Prop :=
  ∀ ⦃st outcome⦄, step st = some outcome → longer st = some outcome

theorem ProlongedBy.refl (step : Run α) : step.ProlongedBy step := fun _ _ h => h

theorem ProlongedBy.trans {step longer longest : Run α} (h : step.ProlongedBy longer)
    (h' : longer.ProlongedBy longest) : step.ProlongedBy longest :=
  fun _ _ hstep => h' (h hstep)

theorem ProlongedBy.isSome {step longer : Run α} (h : step.ProlongedBy longer)
    (hends : (step st).isSome) : (longer st).isSome := by
  obtain ⟨outcome, hstep⟩ := Option.isSome_iff_exists.1 hends
  exact Option.isSome_of_eq_some (h hstep)

theorem prolongedBy_cutOff (longer : Run α) : (cutOff : Run α).ProlongedBy longer := by
  intro st outcome h
  cases h

theorem ProlongedBy.bind {step longer : Run α} {next longerNext : α → Run β}
    (h : step.ProlongedBy longer) (hn : ∀ a, (next a).ProlongedBy (longerNext a)) :
    (step >>= next).ProlongedBy (longer >>= longerNext) := by
  intro st outcome heq
  cases hstep : step st with
  | none =>
    rw [bind_of_none hstep] at heq
    cases heq
  | some p =>
    obtain ⟨s | a, st₁⟩ := p
    · rw [bind_of_error hstep] at heq
      rw [bind_of_error (h hstep), heq]
    · rw [bind_of_ok hstep] at heq
      rw [bind_of_ok (h hstep)]
      exact hn a heq

theorem ProlongedBy.attempt {step longer : Run α} (h : step.ProlongedBy longer) :
    (Run.attempt step).ProlongedBy (Run.attempt longer) := by
  intro st outcome heq
  cases hstep : step st with
  | none =>
    rw [attempt_of_none hstep] at heq
    cases heq
  | some p =>
    rw [attempt_of_some hstep] at heq
    rw [attempt_of_some (h hstep), heq]

/-! ## Outcomes -/

/-- Whether a step comes to an outcome, if it is given enough steps. -/
def ComesTo (step : Nat → Run α) (st : Store) (outcome : Except Signal α × Store) : Prop :=
  ∃ fuel, step fuel st = some outcome

/-- Whether more steps change no outcome. -/
def Lasting (step : Nat → Run α) : Prop := ∀ ⦃m n⦄, m ≤ n → (step m).ProlongedBy (step n)

/-- Whether two steps begun in a store both go on for ever, or both end in the same way, once they
are given enough steps. -/
def EndAlike (step step' : Nat → Run α) (st : Store) : Prop :=
  (∀ fuel, step fuel st = none ∧ step' fuel st = none) ∨
    ∃ enough outcome, ∀ fuel ≥ enough, step fuel st = some outcome ∧ step' fuel st = some outcome

variable {step step' : Nat → Run α} {next : Nat → α → Run β}

theorem lasting_const (step : Run α) : Lasting fun _ => step := fun _ _ _ => .refl step

theorem Lasting.bind (h : Lasting step) (hn : ∀ a, Lasting fun n => next n a) :
    Lasting fun n => step n >>= next n :=
  fun _ _ hle => (h hle).bind fun a => hn a hle

/-- A step comes to one outcome at most. -/
theorem Lasting.unique (h : Lasting step) {outcome outcome' : Except Signal α × Store}
    (ho : ComesTo step st outcome) (ho' : ComesTo step st outcome') : outcome = outcome' := by
  obtain ⟨m, hm⟩ := ho
  obtain ⟨n, hn⟩ := ho'
  have hmax := h (Nat.le_max_left m n) hm
  rw [h (Nat.le_max_right m n) hn] at hmax
  exact (Option.some.inj hmax).symm

/-- Wherever a step ends, its outcome is the one that it has with another number of steps. -/
theorem Lasting.eq_of_isSome (h : Lasting step) {m n : Nat} {outcome : Except Signal α × Store}
    (hm : step m st = some outcome) (hn : (step n st).isSome) : step n st = some outcome := by
  obtain ⟨outcome', hn⟩ := Option.isSome_iff_exists.1 hn
  rw [hn, h.unique ⟨m, hm⟩ ⟨n, hn⟩]

theorem comesTo_const (step : Run α) {outcome : Except Signal α × Store} :
    ComesTo (fun _ => step) st outcome ↔ step st = some outcome :=
  ⟨fun ⟨_, h⟩ => h, fun h => ⟨0, h⟩⟩

/-- A sequence of steps comes to what the second comes to behind the first, or to the signal that
the first one ends with. -/
theorem Lasting.comesTo_bind (h : Lasting step) (hn : ∀ a, Lasting fun n => next n a)
    {outcome : Except Signal β × Store} :
    ComesTo (fun n => step n >>= next n) st outcome ↔
      (∃ a st₁, ComesTo step st (.ok a, st₁) ∧ ComesTo (fun n => next n a) st₁ outcome) ∨
        ∃ s st₁, ComesTo step st (.error s, st₁) ∧ outcome = (.error s, st₁) := by
  constructor
  · rintro ⟨n, heq⟩
    change (step n >>= next n) st = _ at heq
    cases hstep : step n st with
    | none =>
      rw [bind_of_none hstep] at heq
      cases heq
    | some p =>
      obtain ⟨s | a, st₁⟩ := p
      · rw [bind_of_error hstep] at heq
        exact .inr ⟨s, st₁, ⟨n, hstep⟩, (Option.some.inj heq).symm⟩
      · rw [bind_of_ok hstep] at heq
        exact .inl ⟨a, st₁, ⟨n, hstep⟩, n, heq⟩
  · rintro (⟨a, st₁, ⟨m, hm⟩, n, hnext⟩ | ⟨s, st₁, ⟨n, hstep⟩, rfl⟩)
    · exact ⟨max m n, (bind_of_ok (h (Nat.le_max_left m n) hm)).trans
        (hn a (Nat.le_max_right m n) hnext)⟩
    · exact ⟨n, bind_of_error hstep⟩

/-- A sequence of steps ends if the first one does, and the second one behind its value. -/
theorem isSome_bind {step : Run α} {next : α → Run β} :
    ((step >>= next) st).isSome ↔
      (step st).isSome ∧ ∀ a st₁, step st = some (.ok a, st₁) → (next a st₁).isSome := by
  cases hstep : step st with
  | none => simp [bind_of_none hstep]
  | some p =>
    obtain ⟨s | a, st₁⟩ := p
    · simp [bind_of_error hstep]
    · simp [bind_of_ok hstep]

/-- Behind a step whose value is known, the second one ends if the sequence does. -/
theorem Lasting.isSome_next (h : Lasting step) {m n : Nat} {a : α} {st₁ : Store}
    {next : α → Run β} (hstep : step m st = some (.ok a, st₁))
    (hends : ((step n >>= next) st).isSome) : (next a st₁).isSome := by
  obtain ⟨hfirst, hrest⟩ := isSome_bind.1 hends
  exact hrest a st₁ (h.eq_of_isSome hstep hfirst)

theorem isSome_attempt {step : Run α} :
    (Run.attempt step st).isSome ↔ (step st).isSome := by
  cases hstep : step st with
  | none => simp [attempt_of_none hstep]
  | some p => simp [attempt_of_some hstep]

/-- Steps that come to the same outcomes end alike. -/
theorem Lasting.endAlike (h : Lasting step) (h' : Lasting step')
    (hiff : ∀ outcome, ComesTo step st outcome ↔ ComesTo step' st outcome) :
    EndAlike step step' st := by
  by_cases hends : ∃ outcome, ComesTo step st outcome
  · obtain ⟨outcome, hcomes⟩ := hends
    obtain ⟨m, hm⟩ := hcomes
    obtain ⟨n, hn⟩ := (hiff outcome).1 ⟨m, hm⟩
    refine .inr ⟨max m n, outcome, fun fuel hfuel => ?_⟩
    exact ⟨h (Nat.le_trans (Nat.le_max_left m n) hfuel) hm,
      h' (Nat.le_trans (Nat.le_max_right m n) hfuel) hn⟩
  · refine .inl fun fuel => ⟨?_, ?_⟩
    · exact Option.eq_none_iff_forall_ne_some.2 fun outcome heq => hends ⟨outcome, fuel, heq⟩
    · exact Option.eq_none_iff_forall_ne_some.2 fun outcome heq =>
        hends ⟨outcome, (hiff outcome).2 ⟨fuel, heq⟩⟩

end Run

namespace Walk

open Run

/-! ## Programs -/

/-- Whether everything that runs with some number of steps is prolonged by a larger number. -/
structure Prolonged (fuel more : Nat) : Prop where
  expr : ∀ ctx e, (Walk.expr fuel ctx e).ProlongedBy (Walk.expr more ctx e)
  exprs : ∀ ctx es, (Walk.exprs fuel ctx es).ProlongedBy (Walk.exprs more ctx es)
  call : ∀ mode callee args,
    (Walk.call fuel mode callee args).ProlongedBy (Walk.call more mode callee args)
  apply : ∀ mode callable args,
    (Walk.apply fuel mode callable args).ProlongedBy (Walk.apply more mode callable args)
  quantify : ∀ mode quantifier callable items,
    (Walk.quantify fuel mode quantifier callable items).ProlongedBy
      (Walk.quantify more mode quantifier callable items)
  code : ∀ ctx code, (Walk.code fuel ctx code).ProlongedBy (Walk.code more ctx code)
  statement : ∀ ctx s, (Walk.statement fuel ctx s).ProlongedBy (Walk.statement more ctx s)
  optional : ∀ ctx e?, (Walk.optional fuel ctx e?).ProlongedBy (Walk.optional more ctx e?)
  truth : ∀ ctx e, (Walk.truth fuel ctx e).ProlongedBy (Walk.truth more ctx e)
  statements : ∀ ctx ss,
    (Walk.statements fuel ctx ss).ProlongedBy (Walk.statements more ctx ss)
  rounds : ∀ ctx condition iterator body,
    (Walk.rounds fuel ctx condition iterator body).ProlongedBy
      (Walk.rounds more ctx condition iterator body)
  oneRound : ∀ ctx body, (Walk.oneRound fuel ctx body).ProlongedBy (Walk.oneRound more ctx body)

section

variable {fuel more : Nat} {ctx : Context} {mode : Mode} {args : List Value}
  (ih : Prolonged fuel more)
include ih

private theorem prolonged_expr (e : Expr) :
    (expr (fuel + 1) ctx e).ProlongedBy (expr (more + 1) ctx e) := by
  cases e with
  | placeholder | name | typeName | number | boolean | string | null | lambda | function =>
    exact .refl _
  | unary _ op operand => exact (ih.expr ctx operand).bind fun _ => .refl _
  | ternary _ condition whenTrue whenFalse =>
    refine (ih.expr ctx condition).bind fun v => ?_
    refine (ProlongedBy.refl (Run.snapshot v)).bind fun u => ?_
    refine (ProlongedBy.refl (Run.ofValue u.requireBoolean)).bind fun b => ?_
    cases b with
    | false => exact ih.expr ctx whenFalse
    | true => exact ih.expr ctx whenTrue
  | binary _ op left right =>
    refine (ih.expr ctx left).bind fun l => ?_
    split
    · exact .refl _
    · exact (ih.exprs ctx right.arguments).bind fun args => ih.call ctx.mode l args
    · exact ih.expr ctx right
    · exact (ih.expr ctx right).bind fun _ => .refl _

private theorem prolonged_apply (callable : Callable) :
    (apply (fuel + 1) mode callable args).ProlongedBy (apply (more + 1) mode callable args) := by
  cases callable with
  | text | holds | recorder => exact .refl _
  | quantifier quantifier items =>
    exact (ProlongedBy.refl (predicate quantifier args)).bind fun callable =>
      ih.quantify mode quantifier callable items
  | closure closure =>
    simp only [apply]
    split
    · exact .refl _
    · exact .refl _
    · refine (ProlongedBy.refl (enter closure args)).bind fun ctx => ?_
      exact (ih.code ctx closure.body).attempt.bind fun _ => .refl _
    · refine (ProlongedBy.refl (enter closure args)).bind fun ctx => ?_
      refine (ProlongedBy.refl (behindShadow ctx)).bind fun ctx => ?_
      exact (ih.code ctx closure.body).attempt.bind fun _ => .refl _

private theorem prolonged_loop (condition : Option Expr) (iterator : Option Statement)
    (body : Statement) :
    (loop fuel ctx condition iterator body).ProlongedBy
      (loop more ctx condition iterator body) := by
  unfold loop
  split
  · exact ih.rounds ctx condition iterator body
  · exact ih.oneRound ctx body

private theorem prolonged_statement (s : Statement) :
    (statement (fuel + 1) ctx s).ProlongedBy (statement (more + 1) ctx s) := by
  cases s with
  | expression _ e => exact ih.expr ctx e
  | assign _ op target value =>
    exact (ih.expr ctx target).bind fun _ => (ih.expr ctx value).bind fun _ => .refl _
  | declare _ name initializer => exact (ih.optional ctx initializer).bind fun _ => .refl _
  | leave _ value => exact (ih.optional ctx value).bind fun _ => .refl _
  | breakLoop | continueLoop | empty => exact .refl _
  | block _ body => exact ih.statements ctx body
  | branch _ condition whenTrue whenFalse =>
    refine (ih.truth ctx condition).bind fun b => ?_
    cases b with
    | true => exact (ih.statement ctx whenTrue).bind fun _ => .refl _
    | false =>
      cases whenFalse with
      | none => exact .refl _
      | some s => exact (ih.statement ctx s).bind fun _ => .refl _
  | forLoop _ initializer condition iterator body =>
    cases initializer with
    | none => exact prolonged_loop ih condition iterator body
    | some s =>
      exact (ih.statement ctx s).bind fun _ => prolonged_loop ih condition iterator body
  | whileLoop _ condition body => exact prolonged_loop ih (some condition) none body

private theorem prolonged_rounds (condition : Option Expr) (iterator : Option Statement)
    (body : Statement) : (rounds (fuel + 1) ctx condition iterator body).ProlongedBy
      (rounds (more + 1) ctx condition iterator body) := by
  have hrest : (nextRound fuel ctx condition iterator body).ProlongedBy
      (nextRound more ctx condition iterator body) := by
    cases iterator with
    | none => exact ih.rounds ctx condition none body
    | some s =>
      exact (ih.statement ctx s).bind fun _ => ih.rounds ctx condition (some s) body
  have hround : ∀ b : Bool, (round fuel ctx condition iterator body b).ProlongedBy
      (round more ctx condition iterator body b) := by
    intro b
    cases b with
    | false => exact .refl _
    | true =>
      refine (ih.statement ctx body).attempt.bind fun r => ?_
      split
      · exact .refl _
      · exact hrest
      · exact hrest
      · exact .refl _
  cases condition with
  | none =>
    rw [rounds_none, rounds_none]
    exact hround true
  | some e =>
    rw [rounds_some, rounds_some]
    exact (ih.truth ctx e).bind hround

end

/-- Every part of a program is prolonged by more steps. -/
theorem prolonged : ∀ {fuel more : Nat}, fuel ≤ more → Prolonged fuel more := by
  intro fuel
  induction fuel with
  | zero => -- a run that may take no step is cut off
    intro more _
    constructor <;> intros <;> exact prolongedBy_cutOff _
  | succ fuel ih =>
    intro more hle
    -- both runs take one step, and the parts have one step less in each
    obtain ⟨more, rfl⟩ := Nat.exists_eq_add_of_le' (Nat.le_of_add_left_le hle)
    have ih := ih (Nat.le_of_add_le_add_right hle)
    constructor
    case expr => exact fun ctx e => prolonged_expr ih e
    case exprs =>
      intro ctx es
      cases es with
      | nil => exact .refl _
      | cons e rest =>
        exact (ih.expr ctx e).bind fun _ => (ih.exprs ctx rest).bind fun _ => .refl _
    case call =>
      intro mode callee args
      -- only a function runs on; conversions, files and failures take no step
      refine (ProlongedBy.refl (Run.snapshot callee)).bind fun u => ?_
      split
      · exact ih.apply mode _ args
      · exact .refl _
      · exact .refl _
      · exact .refl _
    case apply => exact fun mode callable args => prolonged_apply ih callable
    case quantify =>
      intro mode quantifier callable items
      cases items with
      | nil => exact .refl _
      | cons item rest =>
        refine (ih.apply mode callable [item]).bind fun v => ?_
        refine (ProlongedBy.refl (predicateAnswer v)).bind fun answer => ?_
        split
        · exact .refl _
        · exact ih.quantify mode quantifier callable rest
    case code =>
      intro ctx code
      cases code with
      | expression e => exact ih.expr ctx e
      | statement s => exact ih.statement ctx s
    case statement => exact fun ctx s => prolonged_statement ih s
    case optional =>
      intro ctx e?
      cases e? with
      | none => exact .refl _
      | some e => exact ih.expr ctx e
    case truth => exact fun ctx e => (ih.expr ctx e).bind fun _ => .refl _
    case statements =>
      intro ctx ss
      cases ss with
      | nil => exact .refl _
      | cons s rest => exact (ih.statement ctx s).bind fun _ => ih.statements ctx rest
    case rounds =>
      exact fun ctx condition iterator body => prolonged_rounds ih condition iterator body
    case oneRound => exact fun ctx body => (ih.statement ctx body).attempt.bind fun _ => .refl _

section

variable {ctx : Context} {mode : Mode} {callable : Callable}

theorem lasting_expr {e : Expr} : Lasting fun fuel => expr fuel ctx e :=
  fun _ _ hle => (prolonged hle).expr ctx e

theorem lasting_exprs {es : List Expr} : Lasting fun fuel => exprs fuel ctx es :=
  fun _ _ hle => (prolonged hle).exprs ctx es

theorem lasting_apply {args : List Value} : Lasting fun fuel => apply fuel mode callable args :=
  fun _ _ hle => (prolonged hle).apply mode callable args

theorem lasting_statement {s : Statement} : Lasting fun fuel => statement fuel ctx s :=
  fun _ _ hle => (prolonged hle).statement ctx s

theorem lasting_truth {e : Expr} : Lasting fun fuel => truth fuel ctx e :=
  fun _ _ hle => (prolonged hle).truth ctx e

end

end Walk

end SearchScript
