import SearchScript.Proofs.Run.Loops
import SearchScript.Proofs.Run.Steps
import SearchScript.Run.Program

/-!
# Invariants of the store

A walk changes the store in seven ways only: it looks a name up, assigns, declares, makes a
function, enters one, opens a shadow, and notes what a recorder is given. An invariant that each of
them keeps is kept by every walk, in both modes, whatever the walk ends with.

## Key definitions

- `Store.Stable`: an invariant that the seven changes keep

## Key results

- `Walk.kept`: a stable invariant is kept by every part of a program
-/

namespace SearchScript

/-- Whether a step keeps an invariant and ends with a value, whatever it is, or with a signal of
some kind. -/
abbrev Run.Kept {α : Type} (I : Store → Prop) (S : Signal → Prop) (step : Run α) : Prop :=
  Run.Keeps I S (fun _ => True) step

namespace Run

variable {α β : Type} {I : Store → Prop} {S : Signal → Prop}

theorem kept_pure {a : α} : Kept I S (Pure.pure a) := keeps_pure trivial

theorem kept_read {f : Store → α} : Kept I S (read f) := keeps_read fun _ _ => trivial

theorem kept_ofAnswer {x : Except RunError α} (hS : ∀ e, S (.fail e)) : Kept I S (ofAnswer x) :=
  keeps_ofAnswer (fun _ _ => trivial) hS

theorem kept_ofValue {x : Except ValueError α} (hS : ∀ e, S (.fail e)) : Kept I S (ofValue x) :=
  keeps_ofValue (fun _ _ => trivial) hS

theorem kept_update {f : Store → α × Store} (h : ∀ st, I st → I (f st).2) : Kept I S (update f) :=
  keeps_update fun st hI => ⟨trivial, h st hI⟩

theorem kept_modify {f : Store → Store} (h : ∀ st, I st → I (f st)) : Kept I S (modify f) :=
  keeps_modify h trivial

theorem Kept.bind {step : Run α} {next : α → Run β} (h : Kept I S step)
    (hn : ∀ a, Kept I S (next a)) : Kept I S (step >>= next) :=
  Keeps.bind h fun a _ => hn a

/-- Whatever a step ends with, the invariant holds then. -/
theorem Kept.store {step : Run α} {st st' : Store} {r : Except Signal α}
    (h : Kept I (fun _ => True) step) (hst : I st) (heq : step st = some (r, st')) : I st' :=
  (h hst heq).1

theorem kept_withSnapshot {v : Value} {f : Value → Run α} (h : ∀ u, Kept I S (f u)) :
    Kept I S (snapshot v >>= f) :=
  kept_read.bind h

end Run

/-- Whether an invariant of the store is kept by all that a walk may change. -/
structure Store.Stable (I : Store → Prop) : Prop where
  resolve : ∀ {st st' env name v}, I st → st.resolve? env name = some (v, st') → I st'
  assign : ∀ {st st' target v}, I st → st.assign target v = .ok st' → I st'
  declare : ∀ {st} env name v, I st → I ((st.newCell v).2.bind env name (st.newCell v).1)
  function : ∀ {st} callable, I st → I (st.newFunction callable).2
  enter : ∀ {st} run env params args, I st →
    I ((st.bindParams [] params args).2.openFrame run .scope (st.bindParams [] params args).1 env).2
  shadow : ∀ {st} run env, I st → I (st.openFrame run .shadow [] env).2
  record : ∀ {st} values, I st → I { st with recorded := values }

theorem Store.stable_true : Stable fun _ => True where
  resolve _ _ := trivial
  assign _ _ := trivial
  declare _ _ _ _ := trivial
  function _ _ := trivial
  enter _ _ _ _ _ := trivial
  shadow _ _ _ := trivial
  record _ _ := trivial

namespace Walk

open Run hiding pure bind

variable {I : Store → Prop} {S : Signal → Prop} {ctx : Context} {mode : Mode} {v : Value}
  {args : List Value}

/-! ## Steps that make functions at most -/

theorem kept_makeClosure (hfunction : ∀ st callable, I st → I (st.newFunction callable).2)
    {params : List String} {body : Code} : Kept I S (makeClosure ctx params body) :=
  kept_update fun st h => hfunction st _ h

section

variable (hS : ∀ e, S (.fail e))
include hS

theorem kept_memberOf (hfunction : ∀ st callable, I st → I (st.newFunction callable).2)
    {text : String} : Kept I S (memberOf v text) := by
  refine kept_withSnapshot fun u => (kept_ofValue hS).bind fun m => ?_
  cases m with
  | data w => exact kept_pure
  | function callable => exact kept_update fun st h => hfunction st callable h

theorem kept_namedMember (hfunction : ∀ st callable, I st → I (st.newFunction callable).2)
    {right : Expr} : Kept I S (namedMember v right) := by
  unfold namedMember
  split
  · exact kept_memberOf hS hfunction
  · exact Run.keeps_fail (hS _)

theorem kept_unary {op : UnaryOp} : Kept I S (unary op v) := by
  cases op with
  | plus => exact kept_pure
  | negate | not | bitNot => exact kept_withSnapshot fun _ => kept_ofValue hS

theorem kept_binary {op : BinaryOp} {w : Value} : Kept I S (binary op v w) :=
  kept_withSnapshot fun _ => kept_withSnapshot fun _ => kept_ofAnswer hS

theorem kept_convert {type : TypeName} : Kept I S (convert type args) := by
  cases args with
  | nil => cases type <;> exact Run.keeps_fail (hS _)
  | cons =>
    cases type <;> exact kept_withSnapshot fun _ => (kept_ofValue hS).bind fun _ => kept_pure

theorem kept_findFile {files : Option FileStore} : Kept I S (findFile mode files args) := by
  cases args with
  | nil => exact Run.keeps_fail (hS _)
  | cons =>
    refine kept_withSnapshot fun u => ?_
    split
    · exact Run.keeps_fail (hS _)
    · exact kept_ofAnswer hS
    · exact kept_pure
    · exact kept_pure
    · exact Run.keeps_fail (hS _)

theorem kept_holds {items : List String} : Kept I S (holds items args) :=
  kept_read.bind fun _ => (kept_ofAnswer hS).bind fun _ => kept_pure

theorem kept_predicate {quantifier : Quantifier} : Kept I S (predicate quantifier args) := by
  cases args with
  | nil => exact Run.keeps_fail (hS _)
  | cons => exact kept_withSnapshot fun _ => kept_ofValue hS

theorem kept_predicateAnswer : Kept I S (predicateAnswer v) := by
  refine kept_withSnapshot fun u => ?_
  split
  · exact kept_pure
  · exact Run.keeps_fail (hS _)

theorem kept_settle {step : Run Value} (h : Kept I (fun _ => True) step) :
    Kept I S (settle step) :=
  Keeps.bind h.attempt fun _ _ => (kept_ofAnswer hS).bind fun _ => kept_read

end

theorem kept_record (hrecord : ∀ st values, I st → I { st with recorded := values }) :
    Kept I S (record args) :=
  (kept_modify fun st h => hrecord st _ h).bind fun _ => kept_pure

/-! ## Steps that change more -/

section

variable (hI : Store.Stable I)
include hI

theorem kept_name {span : Span} {text : String} :
    Kept I (fun _ => True) (name ctx span text) := by
  intro st h r st' heq
  unfold name at heq
  split at heq
  · next v st₁ hres =>
    cases heq
    exact ⟨hI.resolve h hres, trivial⟩
  · split at heq
    · cases heq
      exact ⟨h, trivial⟩
    · split at heq <;> cases heq <;> exact ⟨h, trivial⟩

theorem kept_assign (hS : ∀ e, S (.fail e)) {target : Value} : Kept I S (assign target v) := by
  intro st h r st' heq
  unfold assign at heq
  split at heq
  · next st₁ hassign =>
    cases heq
    exact ⟨hI.assign h hassign, trivial⟩
  · cases heq
    exact ⟨h, hS _⟩

theorem kept_enter {closure : Closure} : Kept I S (enter closure args) :=
  kept_update fun _ h => hI.enter closure.context.run closure.context.env closure.params args h

theorem kept_behindShadow : Kept I S (behindShadow ctx) :=
  kept_update fun _ h => hI.shadow ctx.run ctx.env h

end

theorem kept_member (hfunction : ∀ st callable, I st → I (st.newFunction callable).2)
    {left right : Expr} : Kept I (fun _ => True) (member ctx v left right) := by
  unfold member
  split
  · exact kept_namedMember (fun _ => trivial) hfunction
  · split
    · exact kept_withSnapshot fun _ => keeps_raise trivial
    · exact kept_namedMember (fun _ => trivial) hfunction

theorem kept_settleSpeculative {step : Run Value} (h : Kept I (fun _ => True) step) :
    Kept I (fun _ => True) (settleSpeculative step) := by
  refine Keeps.bind h.attempt fun r _ => ?_
  split
  · exact kept_pure
  · exact kept_pure
  · exact kept_pure
  · exact kept_pure
  · exact keeps_raise trivial

/-! ## Programs -/

/-- Whether everything that runs with this fuel keeps an invariant. -/
structure KeptBy (I : Store → Prop) (fuel : Nat) : Prop where
  expr : ∀ ctx e, Kept I (fun _ => True) (Walk.expr fuel ctx e)
  exprs : ∀ ctx es, Kept I (fun _ => True) (Walk.exprs fuel ctx es)
  call : ∀ mode callee args, Kept I (fun _ => True) (Walk.call fuel mode callee args)
  apply : ∀ mode callable args, Kept I (fun _ => True) (Walk.apply fuel mode callable args)
  quantify : ∀ mode quantifier callable items,
    Kept I (fun _ => True) (Walk.quantify fuel mode quantifier callable items)
  code : ∀ ctx code, Kept I (fun _ => True) (Walk.code fuel ctx code)
  statement : ∀ ctx s, Kept I (fun _ => True) (Walk.statement fuel ctx s)
  optional : ∀ ctx e?, Kept I (fun _ => True) (Walk.optional fuel ctx e?)
  truth : ∀ ctx e, Kept I (fun _ => True) (Walk.truth fuel ctx e)
  statements : ∀ ctx ss, Kept I (fun _ => True) (Walk.statements fuel ctx ss)
  rounds : ∀ ctx condition iterator body,
    Kept I (fun _ => True) (Walk.rounds fuel ctx condition iterator body)
  oneRound : ∀ ctx body, Kept I (fun _ => True) (Walk.oneRound fuel ctx body)

section

variable {fuel : Nat} (ih : KeptBy I fuel)
include ih

private theorem kept_expr (hI : Store.Stable I) (e : Expr) :
    Kept I (fun _ => True) (expr (fuel + 1) ctx e) := by
  have hfunction : ∀ st callable, I st → I (st.newFunction callable).2 := fun _ => hI.function
  cases e with
  | placeholder =>
    simp only [expr]
    split
    · exact Run.keeps_fail trivial
    · exact kept_pure
  | name => exact kept_name hI
  | typeName | number | boolean | string | null => exact kept_pure
  | unary _ op operand => exact (ih.expr ctx operand).bind fun _ => kept_unary fun _ => trivial
  | ternary _ condition whenTrue whenFalse =>
    refine (ih.expr ctx condition).bind fun _ => kept_withSnapshot fun _ =>
      (kept_ofValue fun _ => trivial).bind fun b => ?_
    cases b
    · exact ih.expr ctx whenFalse
    · exact ih.expr ctx whenTrue
  | lambda | function => exact kept_makeClosure hfunction
  | binary _ op left right =>
    refine (ih.expr ctx left).bind fun l => ?_
    split
    · exact kept_member hfunction
    · exact (ih.exprs ctx right.arguments).bind fun args => ih.call ctx.mode l args
    · exact ih.expr ctx right
    · exact (ih.expr ctx right).bind fun _ => kept_binary fun _ => trivial

private theorem kept_apply (hI : Store.Stable I) (callable : Callable) :
    Kept I (fun _ => True) (apply (fuel + 1) mode callable args) := by
  cases callable with
  | text => exact kept_read.bind fun _ => kept_ofAnswer fun _ => trivial
  | holds => exact kept_holds fun _ => trivial
  | quantifier quantifier items =>
    exact (kept_predicate fun _ => trivial).bind fun _ => ih.quantify mode quantifier _ items
  | closure closure =>
    simp only [apply]
    split
    · exact Run.keeps_fail trivial
    · exact Run.keeps_fail trivial
    · exact (kept_enter hI).bind fun ctx => kept_settle (fun _ => trivial) (ih.code ctx closure.body)
    · exact (kept_enter hI).bind fun _ => (kept_behindShadow hI).bind fun ctx =>
        kept_settleSpeculative (ih.code ctx closure.body)
  | recorder => exact kept_record fun _ => hI.record

private theorem kept_loop (condition : Option Expr) (iterator : Option Statement)
    (body : Statement) : Kept I (fun _ => True) (loop fuel ctx condition iterator body) := by
  unfold loop
  split
  · exact ih.rounds ctx condition iterator body
  · exact ih.oneRound ctx body

private theorem kept_statement (hI : Store.Stable I) (s : Statement) :
    Kept I (fun _ => True) (statement (fuel + 1) ctx s) := by
  cases s with
  | expression _ e => exact ih.expr ctx e
  | assign _ op target value =>
    refine (ih.expr ctx target).bind fun t => (ih.expr ctx value).bind fun v => ?_
    dsimp only
    split
    · exact (kept_binary fun _ => trivial).bind fun _ =>
        (kept_assign hI fun _ => trivial).bind fun _ => kept_pure
    · exact (kept_assign hI fun _ => trivial).bind fun _ => kept_pure
  | declare _ name initializer =>
    exact (ih.optional ctx initializer).bind fun v =>
      (kept_modify fun _ h => hI.declare ctx.env name v h).bind fun _ => kept_pure
  | leave _ value =>
    exact (ih.optional ctx value).bind fun _ => kept_withSnapshot fun _ => keeps_raise trivial
  | breakLoop | continueLoop => exact keeps_raise trivial
  | block _ body => exact ih.statements ctx body
  | branch _ condition whenTrue whenFalse =>
    refine (ih.truth ctx condition).bind fun b => ?_
    cases b with
    | true => exact (ih.statement ctx whenTrue).bind fun _ => kept_pure
    | false =>
      cases whenFalse with
      | none => exact kept_pure
      | some s => exact (ih.statement ctx s).bind fun _ => kept_pure
  | forLoop _ initializer condition iterator body =>
    cases initializer with
    | none => exact kept_loop ih condition iterator body
    | some s => exact (ih.statement ctx s).bind fun _ => kept_loop ih condition iterator body
  | whileLoop _ condition body => exact kept_loop ih (some condition) none body
  | empty => exact kept_pure

private theorem kept_rounds (condition : Option Expr) (iterator : Option Statement)
    (body : Statement) : Kept I (fun _ => True) (rounds (fuel + 1) ctx condition iterator body) := by
  have hrest : Kept I (fun _ => True) (nextRound fuel ctx condition iterator body) := by
    cases iterator with
    | none => exact ih.rounds ctx condition none body
    | some s =>
      exact (ih.statement ctx s).bind fun _ => ih.rounds ctx condition (some s) body
  have hround : ∀ b : Bool, Kept I (fun _ => True)
      (round fuel ctx condition iterator body b) := by
    intro b
    cases b with
    | false => exact kept_pure
    | true =>
      refine Keeps.bind (ih.statement ctx body).attempt fun r _ => ?_
      split
      · exact kept_pure
      · exact hrest
      · exact hrest
      · exact keeps_raise trivial
  cases condition with
  | none =>
    rw [rounds_none]
    exact hround true
  | some e =>
    rw [rounds_some]
    exact (ih.truth ctx e).bind hround

end

/-- A stable invariant is kept by every part of a program. -/
theorem kept (hI : Store.Stable I) : ∀ fuel, KeptBy I fuel := by
  intro fuel
  induction fuel with
  | zero => constructor <;> intros <;> exact keeps_cutOff
  | succ fuel ih =>
    constructor
    case expr => exact fun ctx e => kept_expr ih hI e
    case exprs =>
      intro ctx es
      cases es with
      | nil => exact kept_pure
      | cons e rest =>
        exact (ih.expr ctx e).bind fun _ => (ih.exprs ctx rest).bind fun _ => kept_pure
    case call =>
      -- the callee is a function, a type, a file or nothing that can be called
      refine fun mode callee args => kept_withSnapshot fun u => ?_
      split
      · exact ih.apply mode _ args
      · exact kept_convert fun _ => trivial
      · exact kept_findFile fun _ => trivial
      · exact Run.keeps_fail trivial
    case apply => exact fun mode callable args => kept_apply ih hI callable
    case quantify =>
      intro mode quantifier callable items
      cases items with
      | nil => exact kept_pure
      | cons item rest =>
        refine (ih.apply mode callable [item]).bind fun _ =>
          (kept_predicateAnswer fun _ => trivial).bind fun _ => ?_
        split
        · exact kept_pure
        · exact ih.quantify mode quantifier callable rest
    case code =>
      intro ctx code
      cases code with
      | expression e => exact ih.expr ctx e
      | statement s => exact ih.statement ctx s
    case statement => exact fun ctx s => kept_statement ih hI s
    case optional =>
      intro ctx e?
      cases e? with
      | none => exact kept_pure
      | some e => exact ih.expr ctx e
    case truth =>
      exact fun ctx e => (ih.expr ctx e).bind fun _ => kept_withSnapshot fun _ =>
        kept_ofValue fun _ => trivial
    case statements =>
      intro ctx ss
      cases ss with
      | nil => exact kept_pure
      | cons s rest => exact (ih.statement ctx s).bind fun _ => ih.statements ctx rest
    case rounds => exact fun ctx condition iterator body => kept_rounds ih condition iterator body
    case oneRound =>
      -- one round takes every jump of its body and passes on what else ends it
      refine fun ctx body => Keeps.bind (ih.statement ctx body).attempt fun r _ => ?_
      split
      · exact kept_pure
      · exact kept_pure
      · exact kept_pure
      · exact keeps_raise trivial

end Walk

end SearchScript
