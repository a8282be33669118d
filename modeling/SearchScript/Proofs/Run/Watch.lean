import SearchScript.Proofs.Run.Loops
import SearchScript.Proofs.Run.Steps
import SearchScript.Run.Program

/-!
# Watching a real run

A watched run computes what a real run computes and also lists, in order, what a speculative run
does not do after it: a speculative run goes through the body of every loop once and looks at no
condition and no iterator, it looks no files up, and what a function writes to a binding that is
older than its call is lost with the shadow of the call. An event that makes the two runs differ is
a departure. The list also has the member accesses that the run comes to, as these are what
completions are asked for.

The list of a run that was cut off has the events up to there.

## Key definitions

- `Event`, `Event.departs`: what is noted about a real run
- `Watch.expr`, `Watch.statement`: the walk with its events
- `Code.events`: the events of evaluating a program

## Key results

- `Watch.erased`: without its events, a watched run is the real run
- `Code.evaluate_eq_watch`: the value of a program is that of the watched run
-/

namespace SearchScript

/-- What is noted about a real run. -/
inductive Event where
  /-- The left operand of a member access has its value, and the member is looked up. -/
  | access (left right : Expr)
  /-- The function that looks files up is named: a speculative run takes a placeholder for every
  file. -/
  | namedFile
  /-- A function made by the program is called. -/
  | call
  /-- A called function assigns to a cell that is older than the call. -/
  | wroteOut
  /-- A called function answers with a function that was made since it was called. -/
  | handedOut
  /-- Something happens in the condition of a loop. -/
  | header (event : Event)
  /-- The condition of a loop is left by a signal. -/
  | headerFailed
  /-- The condition of a loop does not even hold at first. -/
  | bodySkipped
  /-- The iterator of a loop is run. -/
  | iterated
  /-- The body of a loop is run again. -/
  | repeated

namespace Event

/-- Whether a function made by the program is called. -/
def calls : Event → Bool
  | call => true
  | header event => event.calls
  | _ => false

/-- Whether a speculative run may go on differently after the event. Of what happens in the
condition of a loop only a call can matter later. -/
def departs : Event → Bool
  | access _ _ | call => false
  | header event => event.calls
  | namedFile | wroteOut | handedOut | headerFailed | bodySkipped | iterated | repeated => true

/-- Whether the event is a member access that is completed at an offset. -/
def isAccessAt (cursor : Nat) : Event → Prop
  | access left right => left.span.stop ≤ cursor ∧ cursor ≤ right.span.stop
  | _ => False

end Event

/-- Whether a value is a function of the program made in a frame that was opened when there were
already so many tables. -/
def Value.isMadeSince (tables : Nat) : Value → Bool
  | function _ (.closure closure) =>
    match closure.context.env.frames with
    | frame :: _ => decide (tables ≤ frame.table)
    | [] => false
  | _ => false

/-- A step of a run that also lists what happened, up to the place where it was cut off. -/
def Watched (α : Type) := Store → List Event × Option (Except Signal α × Store)

namespace Watched

variable {α β : Type}

/-- Ends with a value. -/
protected def pure (a : α) : Watched α := fun st => ([], some (.ok a, st))

/-- Goes on with another step, unless a signal ends the first. -/
protected def bind (step : Watched α) (next : α → Watched β) : Watched β := fun st =>
  match step st with
  | (events, none) => (events, none)
  | (events, some (.ok a, st)) => (events ++ (next a st).1, (next a st).2)
  | (events, some (.error s, st)) => (events, some (.error s, st))

instance : Monad Watched where
  pure := Watched.pure
  bind := Watched.bind

/-- A step in which nothing is to be noted. -/
def lift (step : Run α) : Watched α := fun st => ([], step st)

/-- Notes an event if there is reason to. -/
def noteIf (reason : Bool) (event : Event) : Watched Unit := fun st =>
  (if reason then [event] else [], some (.ok (), st))

/-- Notes an event. -/
def note (event : Event) : Watched Unit := noteIf true event

/-- Takes a step and makes a signal part of the result. -/
def attempt (step : Watched α) : Watched (Except Signal α) := fun st =>
  ((step st).1, (step st).2.map fun (result, st) => (.ok result, st))

/-- Whether a step was left by a signal. -/
def isLeft : Option (Except Signal α × Store) → Bool
  | some (.error _, _) => true
  | _ => false

/-- Takes a step that belongs to the condition of a loop. -/
def header (step : Watched α) : Watched α := fun st =>
  ((step st).1.map .header ++ if isLeft (step st).2 then [.headerFailed] else [], (step st).2)

/-- The step without its events. -/
def run (step : Watched α) : Run α := fun st => (step st).2

@[simp] theorem run_pure (a : α) : (Pure.pure a : Watched α).run = Pure.pure a := rfl

@[simp] theorem run_lift (step : Run α) : (lift step).run = step := rfl

@[simp] theorem run_bind (step : Watched α) (next : α → Watched β) :
    (step >>= next).run = step.run >>= fun a => (next a).run := by
  funext st
  change (Watched.bind step next st).2 = Run.bind step.run _ st
  unfold Watched.bind Run.bind run
  cases step st with
  | mk events result => rcases result with _ | ⟨_ | _, _⟩ <;> rfl

/-- Noting an event is no step of the run. -/
@[simp] theorem run_noteIf (reason : Bool) (event : Event) :
    (noteIf reason event).run = Pure.pure () := rfl

@[simp] theorem run_note (event : Event) : (note event).run = Pure.pure () := rfl

@[simp] theorem run_attempt (step : Watched α) : (attempt step).run = Run.attempt step.run := by
  funext st
  simp only [run, attempt, Run.attempt]
  cases (step st).2 <;> rfl

@[simp] theorem run_header (step : Watched α) : (header step).run = step.run := rfl

end Watched

namespace Watch

open Watched

/-- What a function called for real answers. -/
def settle (step : Watched Value) : Watched Value := do
  let result ← attempt step
  let v ← lift (Run.ofAnswer (Walk.realOutcome result))
  lift (Run.snapshot v)

/-- Whether a value is a cell that is older than a call, of which the first new cell is known. -/
def isOlder (since : Nat) : Value → Bool
  | .cell slot => decide (slot < since)
  | _ => false

/-- Stores into a cell. -/
def assign (since : Nat) (target v : Value) : Watched Unit := do
  noteIf (isOlder since target) .wroteOut
  lift (Walk.assign target v)

/-- Goes on after the body of a loop, with what follows it or past the loop. -/
def afterBody (result : Except Signal Value) (again : Watched Value) : Watched Value :=
  match result with
  | .error .breakLoop => pure .null
  | .ok _ | .error .continueLoop => again
  | .error s => lift (Run.raise s)

/-! ## Programs

The number `since` is that of the first cell made since the function that is running was called. -/

mutual

/-- The value of an expression. -/
def expr : (fuel since : Nat) → Context → Expr → Watched Value
  | 0, _, _, _ => lift Run.cutOff
  | fuel + 1, since, ctx, e =>
    match e with
    | .name span text => do
      noteIf (text == "File") .namedFile
      lift (Walk.name ctx span text)
    | .unary _ op operand => do lift (Walk.unary op (← expr fuel since ctx operand))
    | .ternary _ condition whenTrue whenFalse => do
      let c ← lift (Run.snapshot (← expr fuel since ctx condition))
      if ← lift (Run.ofValue c.requireBoolean) then expr fuel since ctx whenTrue
      else expr fuel since ctx whenFalse
    | .binary _ op left right => do
      let l ← expr fuel since ctx left
      match op with
      | .member => do
        note (.access left right)
        lift (Walk.member ctx l left right)
      | .call => do
        let args ← exprs fuel since ctx right.arguments
        call fuel l args
      | .group => expr fuel since ctx right
      | op => do lift (Walk.binary op l (← expr fuel since ctx right))
    | leaf => lift (Walk.expr (fuel + 1) ctx leaf)
termination_by structural fuel => fuel

/-- The values of expressions from left to right. -/
def exprs : (fuel since : Nat) → Context → List Expr → Watched (List Value)
  | 0, _, _, _ => lift Run.cutOff
  | _ + 1, _, _, [] => pure []
  | fuel + 1, since, ctx, e :: rest => do
    let v ← expr fuel since ctx e
    let vs ← exprs fuel since ctx rest
    pure (v :: vs)
termination_by structural fuel => fuel

/-- Calls a value. -/
def call : (fuel : Nat) → Value → List Value → Watched Value
  | 0, _, _ => lift Run.cutOff
  | fuel + 1, callee, args => do
    match ← lift (Run.snapshot callee) with
    | .function _ callable => apply fuel callable args
    | .constructor type => lift (Walk.convert type args)
    | .fileConstructor files => lift (Walk.findFile .real files args)
    | other => lift (Run.fail (.value (.invalidOperation other.type .call)))
termination_by structural fuel => fuel

/-- Calls a function. -/
def apply : (fuel : Nat) → Callable → List Value → Watched Value
  | 0, _, _ => lift Run.cutOff
  | fuel + 1, callable, args =>
    match callable with
    | .quantifier quantifier items => do
      let callable ← lift (Walk.predicate quantifier args)
      quantify fuel quantifier callable items
    | .closure closure =>
      match closure.context.mode with
      | .speculative _ => lift (Run.fail .realCall)
      | .real => do
        note .call
        let slots ← lift (Run.read (·.slots.size))
        let tables ← lift (Run.read (·.tables.size))
        let ctx ← lift (Walk.enter closure args)
        let v ← settle (code fuel slots ctx closure.body)
        noteIf (v.isMadeSince tables) .handedOut
        pure v
    | callable => lift (Walk.apply (fuel + 1) .real callable args)
termination_by structural fuel => fuel

/-- Asks a predicate about items until an answer settles the question. -/
def quantify : (fuel : Nat) → Quantifier → Callable → List Value → Watched Value
  | 0, _, _, _ => lift Run.cutOff
  | _ + 1, quantifier, _, [] => pure (.boolean (!quantifier.decisive))
  | fuel + 1, quantifier, callable, item :: rest => do
    let answer ← lift (Walk.predicateAnswer (← apply fuel callable [item]))
    if answer == quantifier.decisive then pure (.boolean quantifier.decisive)
    else quantify fuel quantifier callable rest
termination_by structural fuel => fuel

/-- Runs an expression or a statement. -/
def code : (fuel since : Nat) → Context → Code → Watched Value
  | 0, _, _, _ => lift Run.cutOff
  | fuel + 1, since, ctx, .expression e => expr fuel since ctx e
  | fuel + 1, since, ctx, .statement s => statement fuel since ctx s
termination_by structural fuel => fuel

/-- Runs a statement. -/
def statement : (fuel since : Nat) → Context → Statement → Watched Value
  | 0, _, _, _ => lift Run.cutOff
  | fuel + 1, since, ctx, s =>
    match s with
    | .expression _ e => expr fuel since ctx e
    | .assign _ op target value => do
      let target ← expr fuel since ctx target
      let v ← expr fuel since ctx value
      match op.binaryOp? with
      | some op => assign since target (← lift (Walk.binary op target v))
      | none => assign since target v
      pure .null
    | .declare _ name initializer => do
      let v ← optional fuel since ctx initializer
      lift (Run.modify fun st =>
        let (cell, st) := st.newCell v
        st.bind ctx.env name cell)
      pure .null
    | .leave _ value => do
      let v ← lift (Run.snapshot (← optional fuel since ctx value))
      lift (Run.raise (.leave v))
    | .block _ body => statements fuel since ctx body
    | .branch _ condition whenTrue whenFalse => do
      if ← truth fuel since ctx condition then do
        let _ ← statement fuel since ctx whenTrue
        pure .null
      else
        match whenFalse with
        | some s => do
          let _ ← statement fuel since ctx s
          pure .null
        | none => pure .null
    | .forLoop _ initializer condition iterator body => do
      match initializer with
      | some s => let _ ← statement fuel since ctx s
      | none => pure ()
      rounds fuel since ctx true condition iterator body
    | .whileLoop _ condition body => rounds fuel since ctx true (some condition) none body
    | leaf => lift (Walk.statement (fuel + 1) ctx leaf)
termination_by structural fuel => fuel

/-- The value of an optional expression, null if there is none. -/
def optional : (fuel since : Nat) → Context → Option Expr → Watched Value
  | 0, _, _, _ => lift Run.cutOff
  | _ + 1, _, _, none => pure .null
  | fuel + 1, since, ctx, some e => expr fuel since ctx e
termination_by structural fuel => fuel

/-- Whether a condition holds. -/
def truth : (fuel since : Nat) → Context → Expr → Watched Bool
  | 0, _, _, _ => lift Run.cutOff
  | fuel + 1, since, ctx, e => do
    let v ← lift (Run.snapshot (← expr fuel since ctx e))
    lift (Run.ofValue v.toBoolean)
termination_by structural fuel => fuel

/-- Runs statements in order. -/
def statements : (fuel since : Nat) → Context → List Statement → Watched Value
  | 0, _, _, _ => lift Run.cutOff
  | _ + 1, _, _, [] => pure .null
  | fuel + 1, since, ctx, s :: rest => do
    let _ ← statement fuel since ctx s
    statements fuel since ctx rest
termination_by structural fuel => fuel

/-- Runs the body of a loop, followed by the iterator, as long as the condition holds. The rounds
after the first one are noted. -/
def rounds : (fuel since : Nat) → Context → (first : Bool) → (condition : Option Expr) →
    (iterator : Option Statement) → (body : Statement) → Watched Value
  | 0, _, _, _, _, _, _ => lift Run.cutOff
  | fuel + 1, since, ctx, first, condition, iterator, body => do
    let goesOn ←
      match condition with
      | some e => header (truth fuel since ctx e)
      | none => pure true
    if goesOn then do
      noteIf (!first) .repeated
      let result ← attempt (statement fuel since ctx body)
      afterBody result do
        match iterator with
        | some s => do
          note .iterated
          let _ ← statement fuel since ctx s
        | none => pure ()
        rounds fuel since ctx false condition iterator body
    else do
      noteIf first .bodySkipped
      pure .null
termination_by structural fuel => fuel

end

/-- The iterator, which is noted, and then the rounds that are left. -/
def nextRound (fuel since : Nat) (ctx : Context) (condition : Option Expr)
    (iterator : Option Statement) (body : Statement) : Watched Value := do
  match iterator with
  | some s => do
    note .iterated
    let _ ← statement fuel since ctx s
  | none => pure ()
  rounds fuel since ctx false condition iterator body

/-! ## The run without its events -/

@[simp] theorem run_settle (step : Watched Value) : (settle step).run = Walk.settle step.run := by
  simp only [settle, Walk.settle, run_bind, run_attempt, run_lift]

@[simp] theorem run_assign (since : Nat) (target v : Value) :
    (assign since target v).run = Walk.assign target v := rfl

/-- Whether everything that is watched with this fuel is, without its events, the real run. -/
structure Erased (fuel : Nat) : Prop where
  expr : ∀ since ctx e, ctx.mode = .real →
    (Watch.expr fuel since ctx e).run = Walk.expr fuel ctx e
  exprs : ∀ since ctx es, ctx.mode = .real →
    (Watch.exprs fuel since ctx es).run = Walk.exprs fuel ctx es
  call : ∀ callee args, (Watch.call fuel callee args).run = Walk.call fuel .real callee args
  apply : ∀ callable args,
    (Watch.apply fuel callable args).run = Walk.apply fuel .real callable args
  quantify : ∀ quantifier callable items,
    (Watch.quantify fuel quantifier callable items).run =
      Walk.quantify fuel .real quantifier callable items
  code : ∀ since ctx code, ctx.mode = .real →
    (Watch.code fuel since ctx code).run = Walk.code fuel ctx code
  statement : ∀ since ctx s, ctx.mode = .real →
    (Watch.statement fuel since ctx s).run = Walk.statement fuel ctx s
  optional : ∀ since ctx e?, ctx.mode = .real →
    (Watch.optional fuel since ctx e?).run = Walk.optional fuel ctx e?
  truth : ∀ since ctx e, ctx.mode = .real →
    (Watch.truth fuel since ctx e).run = Walk.truth fuel ctx e
  statements : ∀ since ctx ss, ctx.mode = .real →
    (Watch.statements fuel since ctx ss).run = Walk.statements fuel ctx ss
  rounds : ∀ since ctx first condition iterator body, ctx.mode = .real →
    (Watch.rounds fuel since ctx first condition iterator body).run =
      Walk.rounds fuel ctx condition iterator body

section

variable {fuel : Nat} (ih : Erased fuel) {since : Nat} {ctx : Context}
include ih

private theorem run_expr (hctx : ctx.mode = .real) (e : Expr) :
    (expr (fuel + 1) since ctx e).run = Walk.expr (fuel + 1) ctx e := by
  cases e with
  | name => simp only [expr, Walk.expr, run_bind, run_noteIf, Run.pure_bind, run_lift]
  | unary | ternary =>
    simp only [expr, Walk.expr, run_bind, run_lift, ih.expr _ _ _ hctx, apply_ite run]
  | binary _ op left right =>
    cases op <;>
      simp only [expr, Walk.expr, run_bind, run_note, Run.pure_bind, run_lift,
        ih.expr _ _ _ hctx, ih.exprs _ _ _ hctx, ih.call, hctx]
  | _ => simp only [expr, run_lift]

private theorem run_apply (callable : Callable) (args : List Value) :
    (apply (fuel + 1) callable args).run = Walk.apply (fuel + 1) .real callable args := by
  cases callable with
  | quantifier => simp only [apply, Walk.apply, run_bind, run_lift, ih.quantify]
  | closure closure =>
    obtain ⟨⟨mode, run, env⟩, params, body⟩ := closure
    cases mode with
    | speculative => simp only [apply, Walk.apply, run_lift]
    | real =>
      simp only [apply, Walk.apply, run_note, run_noteIf, Run.pure_bind, run_bind, run_lift,
        run_settle, run_pure, Run.bind_pure]
      funext st
      exact congrFun (congrArg Walk.settle (ih.code _ _ _ rfl)) _
  | _ => simp only [apply, run_lift]

private theorem run_statement (hctx : ctx.mode = .real) (s : Statement) :
    (statement (fuel + 1) since ctx s).run = Walk.statement (fuel + 1) ctx s := by
  cases s with
  | assign _ op target value =>
    simp only [statement, Walk.statement, run_bind, ih.expr _ _ _ hctx]
    cases op.binaryOp? <;> simp only [run_bind, run_assign, run_lift, run_pure]
  | branch _ condition whenTrue whenFalse =>
    cases whenFalse <;>
      simp only [statement, Walk.statement, run_bind, ih.truth _ _ _ hctx, apply_ite run,
        ih.statement _ _ _ hctx, run_pure]
  | forLoop _ initializer condition iterator body =>
    cases initializer <;>
      simp only [statement, Walk.statement, run_bind, hctx, ih.rounds _ _ _ _ _ _ hctx,
        ih.statement _ _ _ hctx]
  | whileLoop => simp only [statement, Walk.statement, hctx, ih.rounds _ _ _ _ _ _ hctx]
  | expression | declare | leave | block =>
    simp only [statement, Walk.statement, run_bind, run_lift, run_pure, ih.expr _ _ _ hctx,
      ih.optional _ _ _ hctx, ih.statements _ _ _ hctx]
  | _ => simp only [statement, run_lift]

private theorem run_rounds (hctx : ctx.mode = .real) (first : Bool) (condition : Option Expr)
    (iterator : Option Statement) (body : Statement) :
    (rounds (fuel + 1) since ctx first condition iterator body).run =
      Walk.rounds (fuel + 1) ctx condition iterator body := by
  have hround : (do
      let result ← attempt (statement fuel since ctx body)
      afterBody result (nextRound fuel since ctx condition iterator body)).run =
        Walk.round fuel ctx condition iterator body true := by
    rw [run_bind, run_attempt, ih.statement _ _ _ hctx]
    refine congrArg (Run.attempt (Walk.statement fuel ctx body) >>= ·) (funext fun r => ?_)
    have hagain := ih.rounds since ctx false condition iterator body hctx
    rcases r with s | v
    · cases s <;> cases iterator <;>
        simp only [afterBody, nextRound, Walk.nextRound, run_bind, run_note, Run.pure_bind,
          ih.statement _ _ _ hctx, hagain, run_pure, run_lift]
    · cases iterator <;>
        simp only [afterBody, nextRound, Walk.nextRound, run_bind, run_note, Run.pure_bind,
          ih.statement _ _ _ hctx, hagain]
  cases condition with
  | none => exact hround
  | some e =>
    change (header (truth fuel since ctx e) >>= fun goesOn => _).run =
      Walk.truth fuel ctx e >>= fun goesOn => _
    rw [run_bind, run_header, ih.truth _ _ _ hctx]
    refine congrArg (Walk.truth fuel ctx e >>= ·) (funext fun goesOn => ?_)
    cases goesOn
    · rfl
    · exact hround

end

/-- Without its events, a watched run is the real run. -/
theorem erased : ∀ fuel, Erased fuel := by
  intro fuel
  induction fuel with
  | zero => constructor <;> intros <;> rfl
  | succ fuel ih =>
    constructor
    case expr => exact fun since ctx e hctx => run_expr ih hctx e
    case exprs =>
      intro since ctx es hctx
      cases es with
      | nil => rfl
      | cons =>
        simp only [exprs, Walk.exprs, run_bind, run_pure, ih.expr _ _ _ hctx, ih.exprs _ _ _ hctx]
    case call =>
      intro callee args
      simp only [call, Walk.call, run_bind, run_lift]
      -- the callee is read alike; only a function that is applied goes on under watch
      refine congrArg (Run.snapshot callee >>= ·) (funext fun v => ?_)
      cases v <;> simp only [ih.apply, run_lift]
    case apply => exact fun callable args => run_apply ih callable args
    case quantify =>
      intro quantifier callable items
      cases items with
      | nil => rfl
      | cons =>
        simp only [quantify, Walk.quantify, run_bind, run_lift, ih.apply, apply_ite run, run_pure,
          ih.quantify]
    case code =>
      intro since ctx code hctx
      cases code with
      | expression e => exact ih.expr since ctx e hctx
      | statement s => exact ih.statement since ctx s hctx
    case statement => exact fun since ctx s hctx => run_statement ih hctx s
    case optional =>
      intro since ctx e? hctx
      cases e? with
      | none => rfl
      | some e => exact ih.expr since ctx e hctx
    case truth =>
      intro since ctx e hctx
      simp only [truth, Walk.truth, run_bind, run_lift, ih.expr _ _ _ hctx]
    case statements =>
      intro since ctx ss hctx
      cases ss with
      | nil => rfl
      | cons s rest =>
        simp only [statements, Walk.statements, run_bind, ih.statement _ _ _ hctx,
          ih.statements _ _ _ hctx]
    case rounds =>
      exact fun since ctx first condition iterator body hctx =>
        run_rounds ih hctx first condition iterator body

end Watch

namespace Code

/-- Evaluating a program, watched from the opening of its scope to its end. -/
def watch (fuel : Nat) (env : Env) (code : Code) (st : Store) :
    List Event × Option (Except Signal Value × Store) :=
  let (run, st) := st.beginRun
  let (env, st) := st.openFrame run .scope [] env
  Watch.code fuel 0 ⟨.real, run, env⟩ code st

/-- What happens when a program is evaluated, up to the place where it is cut off. -/
def events (fuel : Nat) (env : Env) (code : Code) (st : Store) : List Event :=
  (code.watch fuel env st).1

/-- The value of a program is that of the watched run. -/
theorem evaluate_eq_watch (fuel : Nat) (env : Env) (code : Code) (st : Store) :
    code.evaluate fuel env st = (code.watch fuel env st).2.map fun (result, st) =>
      ((Walk.realOutcome result).map st.snapshot, st.endRun) := by
  have herased := congrFun ((Watch.erased fuel).code 0
    ⟨.real, st.beginRun.1, (st.beginRun.2.openFrame st.beginRun.1 .scope [] env).1⟩ code rfl)
    (st.beginRun.2.openFrame st.beginRun.1 .scope [] env).2
  simp only [evaluate, watch]
  rw [← herased]
  simp only [Watched.run]
  cases (Watch.code fuel 0
    ⟨.real, st.beginRun.1, (st.beginRun.2.openFrame st.beginRun.1 .scope [] env).1⟩ code
    (st.beginRun.2.openFrame st.beginRun.1 .scope [] env).2).2 with
  | none => rfl
  | some p =>
    simp only [Option.map_some]
    cases Walk.realOutcome p.1 <;> rfl

end Code

end SearchScript
