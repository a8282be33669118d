import Mathlib
import SearchScript.Proofs.Run.Loops
import SearchScript.Proofs.Run.Steps
import SearchScript.Run.Program

/-!
# When operands are read

An operand that is a variable is evaluated to its cell, and the cell is read when the operation is
carried out: when the operator has both operands, when the parameters are bound, when a function of
the host looks at its arguments. In between other operands are evaluated, and what they call may
store into the cell.

The walk here has the time of reading as a parameter. If operands are read at once, an identifier
stands for the value that it has when it is evaluated. If they are read when they are used, the walk
is that of a run. It also notes the two values of each operand that is used, and if they are always
the same then so are the two walks.

## Key definitions

- `Reading`: when operands are read
- `Reading.expr`, `Reading.statement`: the walk with the time of reading as a parameter
- `Code.evaluateReading`: the evaluation of a program by this walk
- `Use.IsSteady`: an operand has the value that it had when it was evaluated

## Key results

- `Reading.followed`: the walk of a run reads operands when they are used
- `Code.evaluate_eq_evaluateReading`: the same for whole programs
-/

namespace SearchScript

/-- When operands are read: as soon as they are evaluated, or not before they are used. -/
inductive Reading where
  | atOnce
  | whenUsed

/-- What an operand was evaluated to, and the value of this at that time. -/
structure Operand where
  given : Value
  value : Value

/-- What is noted when an operand is used: the value it had when it was evaluated, and its value. -/
structure Use where
  early : Value
  late : Value

/-- Whether an operand has the value that it had when it was evaluated. -/
def Use.IsSteady (use : Use) : Prop := use.late = use.early

/-- A step of a run that also lists the operands that were used, up to the place where it was cut
off. -/
def Noted (α : Type) := Store → List Use × Option (Except Signal α × Store)

namespace Noted

variable {α β : Type}

/-- Ends with a value. -/
protected def pure (a : α) : Noted α := fun st => ([], some (.ok a, st))

/-- Goes on with another step, unless a signal ends the first. -/
protected def bind (step : Noted α) (next : α → Noted β) : Noted β := fun st =>
  match step st with
  | (uses, none) => (uses, none)
  | (uses, some (.ok a, st)) => (uses ++ (next a st).1, (next a st).2)
  | (uses, some (.error s, st)) => (uses, some (.error s, st))

instance : Monad Noted where
  pure := Noted.pure
  bind := Noted.bind

/-- A step that uses no operand. -/
def lift (step : Run α) : Noted α := fun st => ([], step st)

/-- Takes a step and makes a signal part of the result. -/
def attempt (step : Noted α) : Noted (Except Signal α) := fun st =>
  ((step st).1, (step st).2.map fun (result, st) => (.ok result, st))

/-- Evaluates an operand. -/
def operand (step : Noted Value) : Noted Operand := do
  let v ← step
  lift (Run.read fun st => ⟨v, st.snapshot v⟩)

end Noted

namespace Reading

open Noted

/-- The value that an operand contributes. -/
def use (reading : Reading) (o : Operand) : Noted Value := fun st =>
  let late := st.snapshot o.given
  let v := match reading with
    | .atOnce => o.value
    | .whenUsed => late
  ([⟨o.value, late⟩], some (.ok v, st))

/-- The values that operands contribute. -/
def useAll (reading : Reading) : List Operand → Noted (List Value)
  | [] => pure []
  | o :: rest => do
    let v ← use reading o
    let vs ← useAll reading rest
    pure (v :: vs)

/-- A binary operator. -/
def binary (reading : Reading) (op : BinaryOp) (left right : Operand) : Noted Value := do
  let l ← use reading left
  let r ← use reading right
  lift (Run.ofAnswer (Value.binary op l r))

/-! ## Calls of what is not made by a program -/

/-- A type converts its first argument. -/
def convert (reading : Reading) (type : TypeName) : List Operand → Noted Value
  | [] => lift (Walk.convert type [])
  | o :: _ => do
    let v ← use reading o
    match type with
    | .boolean => do pure (.boolean (← lift (Run.ofValue v.toBoolean)))
    | .number => do pure (.number (← lift (Run.ofValue v.toNumber)))
    | .string => do pure (.string (← lift (Run.ofValue v.toText)))

/-- Finds a file. -/
def findFile (reading : Reading) (files : Option FileStore) : List Operand → Noted Value
  | [] => lift (Walk.findFile .real files [])
  | o :: _ => do
    let v ← use reading o
    match files with
    | none => lift (Run.fail .noFileLookup)
    | some files => lift (Run.ofAnswer (Walk.lookUp files v))

/-- The predicate that a quantifier is given. -/
def predicate (reading : Reading) (quantifier : Quantifier) : List Operand → Noted Callable
  | [] => lift (Walk.predicate quantifier [])
  | o :: _ => do
    let v ← use reading o
    lift (Run.ofValue v.requireFunction)

/-! ## Calls of functions -/

/-- Adds parameters to a table, each bound to a new cell with the value of its argument; a parameter
without one is null. -/
def bindParams (reading : Reading) (names : Table Value) :
    List String → List Operand → Noted (Table Value)
  | [], _ => pure names
  | param :: params, args => do
    let v ← use reading (args.headD ⟨.null, .null⟩)
    let cell ← lift (Run.update fun st =>
      (.cell st.slots.size, { st with slots := st.slots.push v }))
    bindParams reading (names.insert param cell) params args.tail

/-- The environment of a call: a scope with the parameters over the environment of the function. -/
def enter (reading : Reading) (closure : Closure) (args : List Operand) : Noted Env := do
  let names ← bindParams reading [] closure.params args
  lift (Run.update (·.openFrame closure.context.run .scope names closure.context.env))

/-- What a function called for real answers. -/
def settle (step : Noted Value) : Noted Value := do
  let result ← attempt step
  let v ← lift (Run.ofAnswer (Walk.realOutcome result))
  lift (Run.snapshot v)

/-! ## Programs -/

mutual

/-- The value of an expression. -/
def expr (reading : Reading) : (fuel : Nat) → Context → Expr → Noted Value
  | 0, _, _ => lift Run.cutOff
  | fuel + 1, ctx, e =>
    match e with
    | .unary _ op e => do lift (Walk.unary op (← expr reading fuel ctx e))
    | .ternary _ condition whenTrue whenFalse => do
      let c ← lift (Run.snapshot (← expr reading fuel ctx condition))
      if ← lift (Run.ofValue c.requireBoolean) then expr reading fuel ctx whenTrue
      else expr reading fuel ctx whenFalse
    | .binary _ op left right => do
      let l ← operand (expr reading fuel ctx left)
      match op with
      | .member => lift (Walk.member ctx l.given left right)
      | .call => do
        let args ← exprs reading fuel ctx right.arguments
        call reading fuel l args
      | .group => expr reading fuel ctx right
      | op => do
        let r ← operand (expr reading fuel ctx right)
        binary reading op l r
    | leaf => lift (Walk.expr (fuel + 1) ctx leaf)
termination_by structural fuel => fuel

/-- Operands from left to right. -/
def exprs (reading : Reading) : (fuel : Nat) → Context → List Expr → Noted (List Operand)
  | 0, _, _ => lift Run.cutOff
  | _ + 1, _, [] => pure []
  | fuel + 1, ctx, e :: rest => do
    let o ← operand (expr reading fuel ctx e)
    let os ← exprs reading fuel ctx rest
    pure (o :: os)
termination_by structural fuel => fuel

/-- Calls a value. -/
def call (reading : Reading) : (fuel : Nat) → Operand → List Operand → Noted Value
  | 0, _, _ => lift Run.cutOff
  | fuel + 1, callee, args => do
    match ← use reading callee with
    | .function _ callable => apply reading fuel callable args
    | .constructor type => convert reading type args
    | .fileConstructor files => findFile reading files args
    | other => lift (Run.fail (.value (.invalidOperation other.type .call)))
termination_by structural fuel => fuel

/-- Calls a function. -/
def apply (reading : Reading) : (fuel : Nat) → Callable → List Operand → Noted Value
  | 0, _, _ => lift Run.cutOff
  | fuel + 1, callable, args =>
    match callable with
    | .text receiver function => do
      let vs ← useAll reading args
      lift (Run.ofAnswer (function.apply receiver vs))
    | .holds items => do
      let vs ← useAll reading args
      let needle ← lift (Run.ofAnswer (stringArgument vs 0))
      pure (.boolean (items.contains needle))
    | .quantifier quantifier items => do
      let callable ← predicate reading quantifier args
      quantify reading fuel quantifier callable items
    | .closure closure =>
      match closure.context.mode with
      | .speculative _ => lift (Run.fail .realCall)
      | .real => do
        let env ← enter reading closure args
        settle (code reading fuel { closure.context with env } closure.body)
    | .recorder => lift (Walk.record (args.map (·.given)))
termination_by structural fuel => fuel

/-- Asks a predicate about items until an answer settles the question. -/
def quantify (reading : Reading) :
    (fuel : Nat) → Quantifier → Callable → List Value → Noted Value
  | 0, _, _, _ => lift Run.cutOff
  | _ + 1, quantifier, _, [] => pure (.boolean (!quantifier.decisive))
  | fuel + 1, quantifier, callable, item :: rest => do
    let o ← operand (pure item)
    let answer ← lift (Walk.predicateAnswer (← apply reading fuel callable [o]))
    if answer == quantifier.decisive then pure (.boolean quantifier.decisive)
    else quantify reading fuel quantifier callable rest
termination_by structural fuel => fuel

/-- Runs an expression or a statement. -/
def code (reading : Reading) : (fuel : Nat) → Context → Code → Noted Value
  | 0, _, _ => lift Run.cutOff
  | fuel + 1, ctx, .expression e => expr reading fuel ctx e
  | fuel + 1, ctx, .statement s => statement reading fuel ctx s
termination_by structural fuel => fuel

/-- Runs a statement. -/
def statement (reading : Reading) : (fuel : Nat) → Context → Statement → Noted Value
  | 0, _, _ => lift Run.cutOff
  | fuel + 1, ctx, s =>
    match s with
    | .expression _ e => expr reading fuel ctx e
    | .assign _ op target value => do
      let target ← operand (expr reading fuel ctx target)
      let o ← operand (expr reading fuel ctx value)
      match op.binaryOp? with
      | some op => do
        let v ← binary reading op target o
        lift (Walk.assign target.given v)
      | none => lift (Walk.assign target.given o.given)
      pure .null
    | .declare _ name initializer => do
      let v ← optional reading fuel ctx initializer
      lift (Run.modify fun st =>
        let (cell, st) := st.newCell v
        st.bind ctx.env name cell)
      pure .null
    | .leave _ value => do
      let v ← lift (Run.snapshot (← optional reading fuel ctx value))
      lift (Run.raise (.leave v))
    | .block _ body => statements reading fuel ctx body
    | .branch _ condition whenTrue whenFalse => do
      if ← truth reading fuel ctx condition then do
        let _ ← statement reading fuel ctx whenTrue
        pure .null
      else
        match whenFalse with
        | some s => do
          let _ ← statement reading fuel ctx s
          pure .null
        | none => pure .null
    | .forLoop _ initializer condition iterator body => do
      match initializer with
      | some s => let _ ← statement reading fuel ctx s
      | none => pure ()
      rounds reading fuel ctx condition iterator body
    | .whileLoop _ condition body => rounds reading fuel ctx (some condition) none body
    | leaf => lift (Walk.statement (fuel + 1) ctx leaf)
termination_by structural fuel => fuel

/-- The value of an optional expression, null if there is none. -/
def optional (reading : Reading) : (fuel : Nat) → Context → Option Expr → Noted Value
  | 0, _, _ => lift Run.cutOff
  | _ + 1, _, none => pure .null
  | fuel + 1, ctx, some e => expr reading fuel ctx e
termination_by structural fuel => fuel

/-- Whether a condition holds. -/
def truth (reading : Reading) : (fuel : Nat) → Context → Expr → Noted Bool
  | 0, _, _ => lift Run.cutOff
  | fuel + 1, ctx, e => do
    let v ← lift (Run.snapshot (← expr reading fuel ctx e))
    lift (Run.ofValue v.toBoolean)
termination_by structural fuel => fuel

/-- Runs statements in order. -/
def statements (reading : Reading) : (fuel : Nat) → Context → List Statement → Noted Value
  | 0, _, _ => lift Run.cutOff
  | _ + 1, _, [] => pure .null
  | fuel + 1, ctx, s :: rest => do
    let _ ← statement reading fuel ctx s
    statements reading fuel ctx rest
termination_by structural fuel => fuel

/-- Runs the body of a loop, followed by the iterator, as long as the condition holds. -/
def rounds (reading : Reading) : (fuel : Nat) → Context → (condition : Option Expr) →
    (iterator : Option Statement) → (body : Statement) → Noted Value
  | 0, _, _, _, _ => lift Run.cutOff
  | fuel + 1, ctx, condition, iterator, body => do
    let goesOn ←
      match condition with
      | some e => truth reading fuel ctx e
      | none => pure true
    if goesOn then
      match ← attempt (statement reading fuel ctx body) with
      | .error .breakLoop => pure .null
      | .ok _ | .error .continueLoop => do
        match iterator with
        | some s => let _ ← statement reading fuel ctx s
        | none => pure ()
        rounds reading fuel ctx condition iterator body
      | .error s => lift (Run.raise s)
    else pure .null
termination_by structural fuel => fuel

end

/-! ## The walk of a run -/

/-- Whether all operands were used with the values that they had when they were evaluated. -/
def AllSteady (uses : List Use) : Prop := ∀ use ∈ uses, use.IsSteady

/-- Whether a step does what a step of a run does, but for a change to its result, if operands are
read when they are used, and does the same at any other time of reading as long as all operands are
steady. -/
structure Follows {α β : Type} (f : β → α) (step : Run α) (noted : Reading → Noted β) : Prop where
  whenUsed : ∀ st, (noted .whenUsed st).2.map (fun (result, st) => (result.map f, st)) = step st
  steady : ∀ r r' st, AllSteady (noted r st).1 → noted r' st = noted r st

section

variable {α β γ δ : Type} {f : β → α} {g : δ → γ} {step : Run α} {next : α → Run γ}

theorem follows_pure {a : α} {b : β} (h : f b = a) :
    Follows f (Pure.pure a) fun _ => Pure.pure b := by
  subst h
  exact ⟨fun _ => rfl, fun _ _ _ _ => rfl⟩

theorem follows_lift : Follows id step fun _ => lift step where
  whenUsed st := by
    change (step st).map _ = step st
    rcases step st with _ | ⟨_ | _, _⟩ <;> rfl
  steady _ _ _ _ := rfl

theorem Follows.bind {noted : Reading → Noted β} {next' : Reading → β → Noted δ}
    (hs : Follows f step noted) (hn : ∀ b, Follows g (next (f b)) (next' · b)) :
    Follows g (step >>= next) fun r => noted r >>= next' r where
  whenUsed st := by
    change Option.map _ (Noted.bind _ _ st).2 = Run.bind step next st
    unfold Noted.bind Run.bind
    rw [← hs.whenUsed st]
    rcases noted .whenUsed st with ⟨uses, _ | ⟨_ | b, st'⟩⟩
    · rfl
    · rfl
    · exact (hn b).whenUsed st'
  steady r r' st huses := by
    change AllSteady (Noted.bind _ _ st).1 at huses
    change Noted.bind _ _ st = Noted.bind _ _ st
    have hs := hs.steady r r' st
    unfold Noted.bind at huses ⊢
    generalize noted r st = p at hs huses ⊢
    rcases p with ⟨uses, _ | ⟨_ | b, st'⟩⟩
    · rw [hs huses]
    · rw [hs huses]
    · obtain ⟨huses, huses'⟩ := List.forall_mem_append.1 huses
      rw [hs huses]
      change (uses ++ (next' r' b st').1, (next' r' b st').2) =
        (uses ++ (next' r b st').1, (next' r b st').2)
      rw [(hn b).steady r r' st' huses']

/-- The rule for two steps where the first has the result of the run. -/
theorem Follows.seq {noted : Reading → Noted α} {next' : Reading → α → Noted δ}
    (hs : Follows id step noted) (hn : ∀ a, Follows g (next a) (next' · a)) :
    Follows g (step >>= next) fun r => noted r >>= next' r :=
  hs.bind hn

/-- The rule for a first step that uses no operand. -/
theorem follows_lift_bind {next' : Reading → α → Noted δ}
    (hn : ∀ a, Follows g (next a) (next' · a)) :
    Follows g (step >>= next) fun r => lift step >>= next' r :=
  follows_lift.seq hn

theorem Follows.attempt {noted : Reading → Noted α} (h : Follows id step noted) :
    Follows id (Run.attempt step) fun r => attempt (noted r) where
  whenUsed st := by
    simp only [Noted.attempt, Run.attempt, ← h.whenUsed st]
    rcases (noted .whenUsed st).2 with _ | ⟨_ | _, _⟩ <;> rfl
  steady r r' st huses := by simp only [Noted.attempt, h.steady r r' st huses]

/-- Reading an operand at once is no step of the run. -/
theorem Follows.operand {step : Run Value} {noted : Reading → Noted Value}
    (h : Follows id step noted) : Follows (·.given) step fun r => operand (noted r) := by
  rw [← Run.bind_pure step]
  exact h.seq fun v => ⟨fun _ => rfl, fun _ _ _ _ => rfl⟩

/-- An operand contributes what the run reads of it, at any time if it is steady. -/
theorem follows_use {o : Operand} : Follows id (Run.snapshot o.given) (use · o) where
  whenUsed _ := rfl
  steady r r' st huses := by
    have hsteady : st.snapshot o.given = o.value := huses _ List.mem_cons_self
    cases r <;> cases r' <;> simp only [use, hsteady]

theorem follows_useAll {os : List Operand} :
    Follows id (Run.read fun st => (os.map (·.given)).map st.snapshot) (useAll · os) := by
  induction os with
  | nil => exact follows_pure rfl
  | cons o rest ih =>
    change Follows id (Run.snapshot o.given >>= fun v =>
      (Run.read fun st => (rest.map (·.given)).map st.snapshot) >>= fun vs => pure (v :: vs)) _
    exact follows_use.seq fun v => ih.seq fun vs => follows_pure rfl

theorem follows_binary {op : BinaryOp} {left right : Operand} :
    Follows id (Walk.binary op left.given right.given) (binary · op left right) :=
  follows_use.seq fun _ => follows_use.seq fun _ => follows_lift

theorem follows_convert {type : TypeName} {os : List Operand} :
    Follows id (Walk.convert type (os.map (·.given))) (convert · type os) := by
  cases os with
  | nil => exact follows_lift
  | cons o rest =>
    cases type <;>
      exact follows_use.seq fun _ => follows_lift_bind fun _ => follows_pure rfl

theorem follows_findFile {files : Option FileStore} {os : List Operand} :
    Follows id (Walk.findFile .real files (os.map (·.given))) (findFile · files os) := by
  cases os with
  | nil => exact follows_lift
  | cons o rest => cases files <;> exact follows_use.seq fun _ => follows_lift

theorem follows_predicate {quantifier : Quantifier} {os : List Operand} :
    Follows id (Walk.predicate quantifier (os.map (·.given))) (predicate · quantifier os) := by
  cases os with
  | nil => exact follows_lift
  | cons o rest => exact follows_use.seq fun _ => follows_lift

/-- The parameters get the values of the arguments. -/
theorem follows_bindParams {params : List String} :
    ∀ {names : Table Value} {os : List Operand},
      Follows id (Run.update (·.bindParams names params (os.map (·.given))))
        (bindParams · names params os) := by
  induction params with
  | nil => exact follows_pure rfl
  | cons param params ih =>
    intro names os
    have hstep : Run.update (·.bindParams names (param :: params) (os.map (·.given))) =
        Run.snapshot (os.headD ⟨.null, .null⟩).given >>= fun v =>
          (Run.update fun st =>
            (Value.cell st.slots.size, { st with slots := st.slots.push v })) >>= fun cell =>
          Run.update (·.bindParams (names.insert param cell) params (os.tail.map (·.given))) := by
      cases os <;> rfl
    rw [hstep]
    exact follows_use.seq fun v => follows_lift_bind fun cell => ih

theorem follows_enter {closure : Closure} {os : List Operand} :
    Follows ({ closure.context with env := · }) (Walk.enter closure (os.map (·.given)))
      (enter · closure os) := by
  change Follows _ (Run.update (·.bindParams [] closure.params (os.map (·.given))) >>=
    fun names => Run.update fun st =>
      let opened := st.openFrame closure.context.run .scope names closure.context.env
      ({ closure.context with env := opened.1 }, opened.2)) _
  exact follows_bindParams.seq fun names => ⟨fun _ => rfl, fun _ _ _ _ => rfl⟩

theorem follows_settle {step : Run Value} {noted : Reading → Noted Value}
    (h : Follows id step noted) : Follows id (Walk.settle step) fun r => settle (noted r) :=
  h.attempt.seq fun _ => follows_lift_bind fun _ => follows_lift

end

/-- Whether everything that is walked with this fuel follows the real run. -/
structure Followed (fuel : Nat) : Prop where
  expr : ∀ ctx e, ctx.mode = .real →
    Follows id (Walk.expr fuel ctx e) (Reading.expr · fuel ctx e)
  exprs : ∀ ctx es, ctx.mode = .real →
    Follows (List.map Operand.given) (Walk.exprs fuel ctx es) (Reading.exprs · fuel ctx es)
  call : ∀ callee os,
    Follows id (Walk.call fuel .real callee.given (os.map Operand.given))
      (Reading.call · fuel callee os)
  apply : ∀ callable os,
    Follows id (Walk.apply fuel .real callable (os.map Operand.given))
      (Reading.apply · fuel callable os)
  quantify : ∀ quantifier callable items,
    Follows id (Walk.quantify fuel .real quantifier callable items)
      (Reading.quantify · fuel quantifier callable items)
  code : ∀ ctx code, ctx.mode = .real →
    Follows id (Walk.code fuel ctx code) (Reading.code · fuel ctx code)
  statement : ∀ ctx s, ctx.mode = .real →
    Follows id (Walk.statement fuel ctx s) (Reading.statement · fuel ctx s)
  optional : ∀ ctx e?, ctx.mode = .real →
    Follows id (Walk.optional fuel ctx e?) (Reading.optional · fuel ctx e?)
  truth : ∀ ctx e, ctx.mode = .real →
    Follows id (Walk.truth fuel ctx e) (Reading.truth · fuel ctx e)
  statements : ∀ ctx ss, ctx.mode = .real →
    Follows id (Walk.statements fuel ctx ss) (Reading.statements · fuel ctx ss)
  rounds : ∀ ctx condition iterator body, ctx.mode = .real →
    Follows id (Walk.rounds fuel ctx condition iterator body)
      (Reading.rounds · fuel ctx condition iterator body)

section

variable {fuel : Nat} (ih : Followed fuel) {ctx : Context}
include ih

private theorem follows_expr (hctx : ctx.mode = .real) (e : Expr) :
    Follows id (Walk.expr (fuel + 1) ctx e) (expr · (fuel + 1) ctx e) := by
  cases e with
  | unary _ op e => exact (ih.expr ctx e hctx).seq fun _ => follows_lift
  | ternary _ condition whenTrue whenFalse =>
    refine (ih.expr ctx condition hctx).seq fun _ => follows_lift_bind fun _ =>
      follows_lift_bind fun b => ?_
    cases b
    · exact ih.expr ctx whenFalse hctx
    · exact ih.expr ctx whenTrue hctx
  | binary _ op left right =>
    cases op with
    | member => exact (ih.expr ctx left hctx).operand.bind fun _ => follows_lift
    | call =>
      refine (ih.expr ctx left hctx).operand.bind fun l =>
        (ih.exprs ctx right.arguments hctx).bind fun os => ?_
      rw [hctx]
      exact ih.call l os
    | group => exact (ih.expr ctx left hctx).operand.bind fun _ => ih.expr ctx right hctx
    | _ =>
      exact (ih.expr ctx left hctx).operand.bind fun _ =>
        (ih.expr ctx right hctx).operand.bind fun _ => follows_binary
  | _ => exact follows_lift

private theorem follows_apply (callable : Callable) (os : List Operand) :
    Follows id (Walk.apply (fuel + 1) .real callable (os.map (·.given)))
      (apply · (fuel + 1) callable os) := by
  cases callable with
  | text receiver function => exact follows_useAll.seq fun _ => follows_lift
  | holds items =>
    exact follows_useAll.seq fun _ => follows_lift_bind fun _ => follows_pure rfl
  | quantifier quantifier items =>
    exact follows_predicate.seq fun callable => ih.quantify quantifier callable items
  | closure closure =>
    obtain ⟨⟨mode, run, env⟩, params, body⟩ := closure
    cases mode with
    | speculative => exact follows_lift
    | real => exact follows_enter.bind fun _ => follows_settle (ih.code _ body rfl)
  | recorder => exact follows_lift

private theorem follows_statement (hctx : ctx.mode = .real) (s : Statement) :
    Follows id (Walk.statement (fuel + 1) ctx s)
      (statement · (fuel + 1) ctx s) := by
  cases s with
  | expression _ e => exact ih.expr ctx e hctx
  | assign _ op target value =>
    refine (ih.expr ctx target hctx).operand.bind fun o => (ih.expr ctx value hctx).operand.bind
      fun o' => ?_
    cases op.binaryOp? with
    | none => exact follows_lift_bind fun _ => follows_pure rfl
    | some op =>
      exact follows_binary.seq fun _ => follows_lift_bind fun _ => follows_pure rfl
  | declare _ name initializer =>
    exact (ih.optional ctx initializer hctx).seq fun _ => follows_lift_bind fun _ => follows_pure rfl
  | leave _ value =>
    exact (ih.optional ctx value hctx).seq fun _ => follows_lift_bind fun _ => follows_lift
  | block _ body => exact ih.statements ctx body hctx
  | branch _ condition whenTrue whenFalse =>
    refine (ih.truth ctx condition hctx).seq fun b => ?_
    cases b with
    | true => exact (ih.statement ctx whenTrue hctx).seq fun _ => follows_pure rfl
    | false =>
      cases whenFalse with
      | none => exact follows_pure rfl
      | some s => exact (ih.statement ctx s hctx).seq fun _ => follows_pure rfl
  | forLoop _ initializer condition iterator body =>
    cases initializer with
    | none =>
      simp only [statement, Walk.statement, hctx]
      exact (follows_pure rfl).seq fun _ => ih.rounds ctx condition iterator _ hctx
    | some s =>
      simp only [statement, Walk.statement, hctx]
      exact (ih.statement ctx s hctx).seq fun _ => ih.rounds ctx condition iterator _ hctx
  | whileLoop _ condition body =>
    simp only [statement, Walk.statement, hctx]
    exact ih.rounds ctx (some condition) none body hctx
  | _ => exact follows_lift

private theorem follows_rounds (hctx : ctx.mode = .real) (condition : Option Expr)
    (iterator : Option Statement) (body : Statement) :
    Follows id (Walk.rounds (fuel + 1) ctx condition iterator body)
      (rounds · (fuel + 1) ctx condition iterator body) := by
  have hagain : Follows id (Walk.nextRound fuel ctx condition iterator body) fun reading => (do
      match iterator with
      | some s => let _ ← statement reading fuel ctx s
      | none => pure ()
      rounds reading fuel ctx condition iterator body) := by
    cases iterator with
    | none => exact (follows_pure rfl).seq fun _ => ih.rounds ctx condition none _ hctx
    | some s =>
      exact (ih.statement ctx s hctx).seq fun _ => ih.rounds ctx condition (some s) _ hctx
  -- no operand is kept from one round to the next, so each round is followed by itself
  have hround : ∀ goesOn : Bool, Follows id (Walk.round fuel ctx condition iterator body goesOn)
      fun reading => (if goesOn = true then do
      match ← attempt (statement reading fuel ctx body) with
      | .error .breakLoop => pure .null
      | .ok _ | .error .continueLoop => do
        match iterator with
        | some s => let _ ← statement reading fuel ctx s
        | none => pure ()
        rounds reading fuel ctx condition iterator body
      | .error s => lift (Run.raise s)
      else pure .null) := by
    intro goesOn
    cases goesOn with
    | false => exact follows_pure rfl
    | true =>
      refine (ih.statement ctx body hctx).attempt.seq fun r => ?_
      rcases r with s | v
      · cases s with
        | breakLoop => exact follows_pure rfl
        | continueLoop => exact hagain
        | _ => exact follows_lift
      · exact hagain
  cases condition with
  | none => exact (follows_pure rfl).seq hround
  | some e => exact (ih.truth ctx e hctx).seq hround

end

/-- A walk that reads operands when they are used is the real run, and any walk is if all operands
are steady. -/
theorem followed : ∀ fuel, Followed fuel := by
  intro fuel
  induction fuel with
  | zero => constructor <;> intros <;> exact ⟨fun _ => rfl, fun _ _ _ _ => rfl⟩
  | succ fuel ih =>
    constructor
    case expr => exact fun ctx e hctx => follows_expr ih hctx e
    case exprs =>
      intro ctx es hctx
      cases es with
      | nil => exact follows_pure rfl
      | cons e rest =>
        exact (ih.expr ctx e hctx).operand.bind fun _ =>
          (ih.exprs ctx rest hctx).bind fun _ => follows_pure rfl
    case call =>
      intro callee os
      refine follows_use.seq fun v => ?_
      cases v with
      | function _ callable => exact ih.apply callable os
      | constructor type => exact follows_convert
      | fileConstructor files => exact follows_findFile
      | _ => exact follows_lift
    case apply => exact fun callable os => follows_apply ih callable os
    case quantify =>
      intro quantifier callable items
      cases items with
      | nil => exact follows_pure rfl
      | cons item rest =>
        -- the item counts as an operand that is at hand, as an argument of a call does
        change Follows id (pure item >>= fun v =>
          Walk.apply fuel .real callable [v] >>= fun w => Walk.predicateAnswer w >>= fun answer =>
            if answer == quantifier.decisive then pure (.boolean quantifier.decisive)
            else Walk.quantify fuel .real quantifier callable rest) _
        have hitem : Follows id (Pure.pure item) fun _ => Pure.pure item := follows_pure rfl
        refine hitem.operand.bind fun o => (ih.apply callable [o]).seq fun _ =>
          follows_lift_bind fun answer => ?_
        split
        · exact follows_pure rfl
        · exact ih.quantify quantifier callable rest
    case code =>
      intro ctx code hctx
      cases code with
      | expression e => exact ih.expr ctx e hctx
      | statement s => exact ih.statement ctx s hctx
    case statement => exact fun ctx s hctx => follows_statement ih hctx s
    case optional =>
      intro ctx e? hctx
      cases e? with
      | none => exact follows_pure rfl
      | some e => exact ih.expr ctx e hctx
    case truth =>
      intro ctx e hctx
      exact (ih.expr ctx e hctx).seq fun _ => follows_lift_bind fun _ => follows_lift
    case statements =>
      intro ctx ss hctx
      cases ss with
      | nil => exact follows_pure rfl
      | cons s rest =>
        exact (ih.statement ctx s hctx).seq fun _ => ih.statements ctx rest hctx
    case rounds =>
      exact fun ctx condition iterator body hctx => follows_rounds ih hctx condition iterator body

end Reading

namespace Code

/-- Evaluates a program with operands read at a time, and lists the operands that were used. -/
def evaluateReading (reading : Reading) (fuel : Nat) (env : Env) (code : Code) (st : Store) :
    List Use × Option (Except RunError Value × Store) :=
  let (run, st) := st.beginRun
  let (env, st) := st.openFrame run .scope [] env
  let (uses, outcome) := Reading.code reading fuel ⟨.real, run, env⟩ code st
  (uses, outcome.map fun (result, st) => ((Walk.realOutcome result).map st.snapshot, st.endRun))

/-- A program is evaluated with its operands read when they are used. On every run on which each
operand that is used still has the value that it had when it was evaluated, this is what a program
means in which operands are read at once, be it a result, an error or a run that goes on. It does
not matter which of the two runs is looked at. -/
theorem evaluate_eq_evaluateReading (fuel : Nat) (env : Env) (code : Code) (st : Store) :
    code.evaluate fuel env st = (code.evaluateReading .whenUsed fuel env st).2 ∧
    ∀ reading, (∀ use ∈ (code.evaluateReading reading fuel env st).1, use.IsSteady) →
      code.evaluate fuel env st = (code.evaluateReading .atOnce fuel env st).2 := by
  have hfollows := (Reading.followed fuel).code
    ⟨.real, st.beginRun.1, (st.beginRun.2.openFrame st.beginRun.1 .scope [] env).1⟩ code rfl
  have hused : code.evaluate fuel env st = (code.evaluateReading .whenUsed fuel env st).2 := by
    have hrun := hfollows.whenUsed (st.beginRun.2.openFrame st.beginRun.1 .scope [] env).2
    simp only [evaluate, evaluateReading]
    rw [← hrun]
    cases (Reading.code .whenUsed fuel
      ⟨.real, st.beginRun.1, (st.beginRun.2.openFrame st.beginRun.1 .scope [] env).1⟩ code
      (st.beginRun.2.openFrame st.beginRun.1 .scope [] env).2).2 with
    | none => rfl
    | some p =>
      simp only [Option.map_some, Except.map_id, id_eq]
      cases Walk.realOutcome p.1 <;> rfl
  refine ⟨hused, fun reading hsteady => ?_⟩
  have hsame : ∀ other, code.evaluateReading other fuel env st =
      code.evaluateReading reading fuel env st := fun other =>
    congrArg (fun p => (p.1, p.2.map fun (result, st) =>
      ((Walk.realOutcome result).map st.snapshot, st.endRun))) (hfollows.steady reading other _ hsteady)
  rw [hused, hsame .whenUsed, hsame .atOnce]

/-- Whether a run ends with a truth value. -/
def givesTruth (b : Bool) : Option (Except RunError Value × Store) → Bool
  | some (.ok (.boolean c), _) => b == c
  | _ => false

set_option maxRecDepth 10000 in
/-- A function of `let x = true; let f = function(z) ...; return f(x) && x;` stores into the variable
that is its argument, but no operand is waiting for it. -/
theorem evaluate_eq_evaluateReading_of_argument :
    let f : Expr := .function ⟨22, 58⟩ ["z"] (.block ⟨34, 58⟩
      [.assign ⟨36, 45⟩ .assign (.name ⟨36, 37⟩ "x") (.boolean ⟨40, 45⟩ false),
        .leave ⟨47, 56⟩ (some (.name ⟨54, 55⟩ "z"))])
    let code : Code := .statement (.block ⟨0, 77⟩
      [.declare ⟨0, 12⟩ "x" (some (.boolean ⟨8, 12⟩ true)), .declare ⟨14, 58⟩ "f" (some f),
        .leave ⟨60, 77⟩ (some (.binary ⟨67, 76⟩ .logicalAnd
          (.binary ⟨67, 70⟩ .call (.name ⟨67, 68⟩ "f") (.name ⟨69, 70⟩ "x"))
          (.name ⟨75, 76⟩ "x")))])
    (code.evaluateReading .atOnce 20 ⟨[], 0⟩ {}).1.length = 4 ∧
      givesTruth false (code.evaluateReading .atOnce 20 ⟨[], 0⟩ {}).2 = true ∧
      code.evaluate 20 ⟨[], 0⟩ {} = (code.evaluateReading .atOnce 20 ⟨[], 0⟩ {}).2 := by
  intro f code
  have hsteady : (code.evaluateReading .atOnce 20 ⟨[], 0⟩ {}).1.map (·.late) =
      (code.evaluateReading .atOnce 20 ⟨[], 0⟩ {}).1.map (·.early) := by cbv
  refine ⟨by cbv, by cbv, ?_⟩
  exact (evaluate_eq_evaluateReading 20 ⟨[], 0⟩ code {}).2 .atOnce (List.map_inj_left.1 hsteady)

/-- A function stores into the variable that is the left operand. -/
theorem evaluate_ne_evaluateReading :
    (Code.parse .strict true
        "let x = true; let f = function() \x7b x = false; return false; \x7d; return x || f();"
      ).toOption.any (fun code => givesTruth false (code.evaluate 20 ⟨[], 0⟩ {}) &&
        givesTruth true (code.evaluateReading .atOnce 20 ⟨[], 0⟩ {}).2) = true := by
  decide +kernel

end Code

end SearchScript
