import SearchScript.Proofs.Run.Loops
import SearchScript.Proofs.Run.Region
import SearchScript.Proofs.Run.Steps
import SearchScript.Run.Program

/-!
# Runs stay in their regions

Whatever a program does, in either mode, happens in the region that its context belongs to: every
value that it computes, every function that it makes and every cell that it changes lies in it. The
proof has one lemma for each step that is not a program, and an induction on the steps that are left
for those that are.

Behind a shadow the region is what was made since the run began. So looking for completions changes
nothing that was there before.

## Key results

- `Walk.confined`: what a walk reaches lies in its region
- `Code.slots_of_complete`, `Code.hosts_of_complete`: completion changes no cell and no host
-/

namespace SearchScript

/-- Whether a signal leads to nothing outside a region. -/
def Signal.Within (R : Region) : Signal → Prop
  | .leave v => v.Within R
  | _ => True

/-- Whether a step stays in a region and ends with what `Q` asks for. -/
def Region.Keeps {α : Type} (R : Region) (st₀ : Store) (Q : α → Prop) (step : Run α) : Prop :=
  Run.Keeps (R.Respects st₀) (Signal.Within R) Q step

namespace Walk

variable {R : Region} {st₀ : Store} {ctx : Context} {v : Value}

theorem keeps_snapshot (hv : v.Within R) : R.Keeps st₀ (Value.Within R) (Run.snapshot v) :=
  Run.keeps_read fun _ h => h.snapshot hv

theorem keeps_ofValue {α : Type} {x : Except ValueError α} {Q : α → Prop}
    (h : ∀ a, x = .ok a → Q a) : R.Keeps st₀ Q (Run.ofValue x) :=
  Run.keeps_ofValue h fun _ => trivial

theorem keeps_ofAnswer {α : Type} {x : Except RunError α} {Q : α → Prop}
    (h : ∀ a, x = .ok a → Q a) : R.Keeps st₀ Q (Run.ofAnswer x) :=
  Run.keeps_ofAnswer h fun _ => trivial

theorem keeps_fail {α : Type} {e : RunError} {Q : α → Prop} :
    R.Keeps st₀ Q (Run.fail e : Run α) :=
  Run.keeps_fail trivial

/-! ## Names, members and operators -/

theorem keeps_name (hR : R.Fits st₀) (hctx : R.context ctx) {span : Span} {text : String} :
    R.Keeps st₀ (Value.Within R) (name ctx span text) := by
  intro st h r st' heq
  unfold name at heq
  split at heq
  · next v st₁ hres =>
    cases heq
    obtain ⟨hv, h'⟩ := h.resolve hR hctx hres
    exact ⟨h', hv⟩
  · split at heq
    · cases heq
      exact ⟨h, trivial⟩
    · split at heq <;> cases heq <;> exact ⟨h, trivial⟩

theorem keeps_memberOf (hv : v.Within R) {text : String} :
    R.Keeps st₀ (Value.Within R) (memberOf v text) := by
  refine (keeps_snapshot hv).bind fun w hw => ?_
  refine (keeps_ofValue fun m hm => ?_ : R.Keeps st₀ (Member.Within R) _).bind fun m hm => ?_
  · unfold Value.memberOf at hm
    split at hm <;> cases hm
    next hfound => exact Value.within_of_member? hw hfound
  · cases m with
    | data w => exact Run.keeps_pure hm
    | function callable => exact Run.keeps_update fun st h => ⟨hm, { h with }⟩

theorem keeps_namedMember (hv : v.Within R) {right : Expr} :
    R.Keeps st₀ (Value.Within R) (namedMember v right) := by
  unfold namedMember
  split
  · exact keeps_memberOf hv
  · exact keeps_fail

theorem keeps_member (hv : v.Within R) {left right : Expr} :
    R.Keeps st₀ (Value.Within R) (member ctx v left right) := by
  unfold member
  split
  · exact keeps_namedMember hv
  · split
    · exact (keeps_snapshot hv).bind fun w _ => Run.keeps_raise trivial
    · exact keeps_namedMember hv

theorem keeps_unary (hv : v.Within R) {op : UnaryOp} :
    R.Keeps st₀ (Value.Within R) (unary op v) := by
  cases op with
  | plus => exact Run.keeps_pure hv
  | negate =>
    refine (keeps_snapshot hv).bind fun w _ => keeps_ofValue fun u hu => ?_
    cases w <;> cases hu <;> trivial
  | not =>
    refine (keeps_snapshot hv).bind fun w _ => keeps_ofValue fun u hu => ?_
    cases w <;> cases hu <;> trivial
  | bitNot =>
    refine (keeps_snapshot hv).bind fun w _ => keeps_ofValue fun u hu => ?_
    cases w <;> cases hu <;> trivial

theorem keeps_binary {w : Value} (hv : v.Within R) (hw : w.Within R) {op : BinaryOp} :
    R.Keeps st₀ (Value.Within R) (binary op v w) :=
  (keeps_snapshot hv).bind fun _ hl => (keeps_snapshot hw).bind fun _ _ =>
    keeps_ofAnswer fun _ h => Value.within_of_binary hl h

theorem keeps_assign {target : Value} (ht : target.Within R) (hv : v.Within R) :
    R.Keeps st₀ (fun _ => True) (assign target v) := by
  intro st h r st' heq
  unfold assign at heq
  split at heq
  · next st₁ hassign =>
    cases heq
    exact ⟨h.assign ht hv hassign, trivial⟩
  · cases heq
    exact ⟨h, trivial⟩

/-! ## Calls of what is not made by a program -/

theorem keeps_convert {type : TypeName} {args : List Value} (hargs : ∀ v ∈ args, v.Within R) :
    R.Keeps st₀ (Value.Within R) (convert type args) := by
  cases args with
  | nil => cases type <;> exact keeps_fail
  | cons v rest =>
    have hv := hargs v (by simp)
    cases type <;>
      exact (keeps_snapshot hv).bind fun _ _ =>
        (keeps_ofValue (Q := fun _ => True) fun _ _ => trivial).bind fun _ _ =>
          Run.keeps_pure trivial

theorem within_of_lookUp {files : FileStore} {w : Value} (h : lookUp files v = .ok w) :
    w.Within R := by
  unfold lookUp at h
  split at h
  · split at h <;> cases h
    trivial
  · split at h <;> cases h
    trivial
  · cases h

theorem keeps_findFile {mode : Mode} {files : Option FileStore} {args : List Value}
    (hargs : ∀ v ∈ args, v.Within R) :
    R.Keeps st₀ (Value.Within R) (findFile mode files args) := by
  cases args with
  | nil => exact keeps_fail
  | cons v rest =>
    refine (keeps_snapshot (hargs v (by simp))).bind fun w _ => ?_
    split
    · exact keeps_fail
    · exact keeps_ofAnswer fun _ h => within_of_lookUp h
    · exact Run.keeps_pure trivial
    · exact Run.keeps_pure trivial
    · exact keeps_fail

theorem keeps_holds {items : List String} {args : List Value} :
    R.Keeps st₀ (Value.Within R) (holds items args) :=
  (Run.keeps_read (Q := fun _ => True) fun _ _ => trivial).bind fun _ _ =>
    (keeps_ofAnswer (Q := fun _ => True) fun _ _ => trivial).bind fun _ _ =>
      Run.keeps_pure trivial

theorem keeps_record {args : List Value} (hargs : ∀ v ∈ args, v.Within R) :
    R.Keeps st₀ (Value.Within R) (record args) := by
  refine (Run.keeps_modify (Q := fun _ => True) (fun _ h => { h with }) trivial).bind fun _ _ =>
    Run.keeps_pure ?_
  cases args with
  | nil => trivial
  | cons v rest => exact hargs v (by simp)

theorem keeps_predicate {quantifier : Quantifier} {args : List Value}
    (hargs : ∀ v ∈ args, v.Within R) :
    R.Keeps st₀ (Callable.Within R) (predicate quantifier args) := by
  cases args with
  | nil => exact keeps_fail
  | cons v rest =>
    refine (keeps_snapshot (hargs v (by simp))).bind fun w hw => keeps_ofValue fun callable h => ?_
    cases w <;> cases h
    exact hw

theorem keeps_predicateAnswer (hv : v.Within R) :
    R.Keeps st₀ (fun _ => True) (predicateAnswer v) := by
  refine (keeps_snapshot hv).bind fun w _ => ?_
  split
  · exact Run.keeps_pure trivial
  · exact keeps_fail

/-! ## Functions -/

theorem within_of_realOutcome {r : Except Signal Value}
    (hr : Run.Ends (Signal.Within R) (Value.Within R) r) (h : realOutcome r = .ok v) :
    v.Within R := by
  unfold realOutcome at h
  split at h <;> cases h <;> exact hr

theorem keeps_settle {step : Run Value} (h : R.Keeps st₀ (Value.Within R) step) :
    R.Keeps st₀ (Value.Within R) (settle step) := by
  refine h.attempt.bind fun r hr => ?_
  exact (keeps_ofAnswer fun _ hv => within_of_realOutcome hr hv).bind fun _ hv => keeps_snapshot hv

theorem keeps_settleSpeculative {step : Run Value} (h : R.Keeps st₀ (Value.Within R) step) :
    R.Keeps st₀ (Value.Within R) (settleSpeculative step) := by
  refine h.attempt.bind fun r hr => ?_
  split
  · exact Run.keeps_pure hr
  · exact Run.keeps_pure hr
  · exact Run.keeps_pure trivial
  · exact Run.keeps_pure trivial
  · exact Run.keeps_raise hr

theorem keeps_makeClosure {params : List String} {body : Code} (hctx : R.context ctx)
    (hbody : R.body body) : R.Keeps st₀ (Value.Within R) (makeClosure ctx params body) :=
  Run.keeps_update fun _ h => ⟨⟨hctx, hbody⟩, { h with }⟩

theorem keeps_enter (hR : R.Fits st₀) {closure : Closure} {args : List Value}
    (hctx : R.context closure.context) (hargs : ∀ v ∈ args, v.Within R) :
    R.Keeps st₀ R.context (enter closure args) := by
  refine Run.keeps_update fun st h => ?_
  obtain ⟨hnames, h'⟩ := h.bindParams hR closure.params [] hargs (by simp)
  exact ⟨h'.context_openFrame hR hctx, h'.openFrame hnames⟩

theorem keeps_behindShadow (hR : R.Fits st₀) (hctx : R.context ctx) :
    R.Keeps st₀ R.context (behindShadow ctx) :=
  Run.keeps_update fun _ h => ⟨h.context_openFrame hR hctx, h.openFrame (by simp)⟩

/-! ## Programs -/

/-- The nodes of an argument are nodes of the list of arguments. -/
theorem nodes_subset_of_mem_arguments {args arg : Expr} (h : arg ∈ args.arguments) :
    arg.nodes ⊆ args.nodes := by
  unfold Expr.arguments at h
  split at h
  · cases h
  · exact Expr.nodes_subset_of_mem_parts h

/-- Whether everything that runs with this fuel stays in its region. -/
structure Confined (R : Region) (st₀ : Store) (fuel : Nat) : Prop where
  expr : ∀ ctx e, R.context ctx → R.Runs e.nodes →
    R.Keeps st₀ (Value.Within R) (Walk.expr fuel ctx e)
  exprs : ∀ ctx es, R.context ctx → (∀ e ∈ es, R.Runs e.nodes) →
    R.Keeps st₀ (fun vs => ∀ v ∈ vs, v.Within R) (Walk.exprs fuel ctx es)
  call : ∀ mode callee args, callee.Within R → (∀ v ∈ args, v.Within R) →
    R.Keeps st₀ (Value.Within R) (Walk.call fuel mode callee args)
  apply : ∀ mode callable args, callable.Within R → (∀ v ∈ args, v.Within R) →
    R.Keeps st₀ (Value.Within R) (Walk.apply fuel mode callable args)
  quantify : ∀ mode quantifier callable items, callable.Within R → Value.allData items = true →
    R.Keeps st₀ (Value.Within R) (Walk.quantify fuel mode quantifier callable items)
  code : ∀ ctx code, R.context ctx → R.Runs code.nodes →
    R.Keeps st₀ (Value.Within R) (Walk.code fuel ctx code)
  statement : ∀ ctx s, R.context ctx → R.Runs s.nodes →
    R.Keeps st₀ (Value.Within R) (Walk.statement fuel ctx s)
  optional : ∀ ctx e?, R.context ctx → R.Runs (Expr.optionNodes e?) →
    R.Keeps st₀ (Value.Within R) (Walk.optional fuel ctx e?)
  truth : ∀ ctx e, R.context ctx → R.Runs e.nodes →
    R.Keeps st₀ (fun _ => True) (Walk.truth fuel ctx e)
  statements : ∀ ctx ss, R.context ctx → R.Runs (Statement.listNodes ss) →
    R.Keeps st₀ (Value.Within R) (Walk.statements fuel ctx ss)
  rounds : ∀ ctx condition iterator body, R.context ctx → R.Runs (Expr.optionNodes condition) →
    R.Runs (Statement.optionNodes iterator) → R.Runs body.nodes →
    R.Keeps st₀ (Value.Within R) (Walk.rounds fuel ctx condition iterator body)
  oneRound : ∀ ctx body, R.context ctx → R.Runs body.nodes →
    R.Keeps st₀ (Value.Within R) (Walk.oneRound fuel ctx body)

section

variable {fuel : Nat} (ih : Confined R st₀ fuel)
include ih

private theorem keeps_expr (hR : R.Fits st₀) (hctx : R.context ctx) {e : Expr}
    (he : R.Runs e.nodes) : R.Keeps st₀ (Value.Within R) (expr (fuel + 1) ctx e) := by
  have hmade := he (.expression e) (by unfold Expr.nodes; simp)
  cases e with
  | placeholder =>
    simp only [expr]
    split
    · exact keeps_fail
    · exact Run.keeps_pure trivial
  | name => exact keeps_name hR hctx
  | typeName | number | boolean | string | null => exact Run.keeps_pure trivial
  | unary _ op operand =>
    simp only [Expr.nodes, Region.runs_cons] at he
    exact (ih.expr ctx operand hctx he.2).bind fun v hv => keeps_unary hv
  | ternary _ condition whenTrue whenFalse =>
    simp only [Expr.nodes, Region.runs_cons, Region.runs_append] at he
    refine (ih.expr ctx condition hctx he.2.1).bind fun v hv => (keeps_snapshot hv).bind fun c _ => ?_
    refine (keeps_ofValue (Q := fun _ => True) fun _ _ => trivial).bind fun b _ => ?_
    cases b
    · exact ih.expr ctx whenFalse hctx he.2.2.2
    · exact ih.expr ctx whenTrue hctx he.2.2.1
  | lambda _ params body => exact keeps_makeClosure hctx (hmade _ rfl)
  | function _ params body => exact keeps_makeClosure hctx (hmade _ rfl)
  | binary _ op left right =>
    simp only [Expr.nodes, Region.runs_cons, Region.runs_append] at he
    refine (ih.expr ctx left hctx he.2.1).bind fun l hl => ?_
    split
    · exact keeps_member hl
    · have hargs : ∀ arg ∈ right.arguments, R.Runs arg.nodes := fun arg harg node hnode =>
        he.2.2 node (nodes_subset_of_mem_arguments harg hnode)
      exact (ih.exprs ctx right.arguments hctx hargs).bind fun args hargs =>
        ih.call ctx.mode l args hl hargs
    · exact ih.expr ctx right hctx he.2.2
    · exact (ih.expr ctx right hctx he.2.2).bind fun r hr => keeps_binary hl hr

private theorem keeps_exprs (hctx : R.context ctx) {es : List Expr}
    (hes : ∀ e ∈ es, R.Runs e.nodes) :
    R.Keeps st₀ (fun vs => ∀ v ∈ vs, v.Within R) (exprs (fuel + 1) ctx es) := by
  cases es with
  | nil => exact Run.keeps_pure (by simp)
  | cons e rest =>
    obtain ⟨he, hrest⟩ := List.forall_mem_cons.1 hes
    refine (ih.expr ctx e hctx he).bind fun v hv =>
      (ih.exprs ctx rest hctx hrest).bind fun vs hvs => ?_
    exact Run.keeps_pure (List.forall_mem_cons.2 ⟨hv, hvs⟩)

private theorem keeps_call {mode : Mode} {callee : Value} {args : List Value}
    (hcallee : callee.Within R) (hargs : ∀ v ∈ args, v.Within R) :
    R.Keeps st₀ (Value.Within R) (call (fuel + 1) mode callee args) := by
  refine (keeps_snapshot hcallee).bind fun w hw => ?_
  split
  · exact ih.apply _ _ _ hw hargs
  · exact keeps_convert hargs
  · exact keeps_findFile hargs
  · exact keeps_fail

private theorem keeps_apply (hR : R.Fits st₀) {mode : Mode} {callable : Callable}
    {args : List Value} (hcallable : callable.Within R) (hargs : ∀ v ∈ args, v.Within R) :
    R.Keeps st₀ (Value.Within R) (apply (fuel + 1) mode callable args) := by
  cases callable with
  | text receiver function =>
    refine (Run.keeps_read (Q := fun _ => True) fun _ _ => trivial).bind fun _ _ => ?_
    exact keeps_ofAnswer fun v h => Value.within_of_isData (Value.isData_of_textFunction h)
  | holds items => exact keeps_holds
  | quantifier quantifier items =>
    refine (keeps_predicate hargs).bind fun predicate hpredicate => ?_
    exact ih.quantify _ _ _ _ hpredicate hcallable
  | closure closure =>
    simp only [apply]
    split
    · exact keeps_fail
    · exact keeps_fail
    · exact (keeps_enter hR hcallable.1 hargs).bind fun ctx hctx =>
        keeps_settle (ih.code ctx closure.body hctx (hR.bodies _ hcallable.2))
    · exact (keeps_enter hR hcallable.1 hargs).bind fun ctx hctx =>
        (keeps_behindShadow hR hctx).bind fun ctx hctx =>
          keeps_settleSpeculative (ih.code ctx closure.body hctx (hR.bodies _ hcallable.2))
  | recorder => exact keeps_record hargs

private theorem keeps_quantify {mode : Mode} {quantifier : Quantifier} {callable : Callable}
    {items : List Value} (hcallable : callable.Within R)
    (hitems : Value.allData items = true) :
    R.Keeps st₀ (Value.Within R) (quantify (fuel + 1) mode quantifier callable items) := by
  cases items with
  | nil => exact Run.keeps_pure trivial
  | cons item rest =>
    simp only [Value.allData, Bool.and_eq_true] at hitems
    obtain ⟨hitem, hrest⟩ := hitems
    refine (ih.apply mode callable [item] hcallable ?_).bind fun v hv => ?_
    · simpa using Value.within_of_isData hitem
    refine (keeps_predicateAnswer hv).bind fun answer _ => ?_
    split
    · exact Run.keeps_pure trivial
    · exact ih.quantify _ _ _ _ hcallable hrest

private theorem keeps_loop (hctx : R.context ctx) {condition : Option Expr}
    {iterator : Option Statement} {body : Statement}
    (hcondition : R.Runs (Expr.optionNodes condition))
    (hiterator : R.Runs (Statement.optionNodes iterator)) (hbody : R.Runs body.nodes) :
    R.Keeps st₀ (Value.Within R) (loop fuel ctx condition iterator body) := by
  unfold loop
  split
  · exact ih.rounds ctx condition iterator body hctx hcondition hiterator hbody
  · exact ih.oneRound ctx body hctx hbody

private theorem keeps_statement (hR : R.Fits st₀) (hctx : R.context ctx) {s : Statement}
    (hs : R.Runs s.nodes) : R.Keeps st₀ (Value.Within R) (statement (fuel + 1) ctx s) := by
  cases s with
  | expression _ e =>
    simp only [Statement.nodes, Region.runs_cons] at hs
    exact ih.expr ctx e hctx hs.2
  | assign _ op target value =>
    simp only [Statement.nodes, Region.runs_cons, Region.runs_append] at hs
    refine (ih.expr ctx target hctx hs.2.1).bind fun t ht =>
      (ih.expr ctx value hctx hs.2.2).bind fun v hv => ?_
    dsimp only
    split
    · refine (keeps_binary ht hv).bind fun w hw => ?_
      exact (keeps_assign ht hw).bind fun _ _ => Run.keeps_pure trivial
    · exact (keeps_assign ht hv).bind fun _ _ => Run.keeps_pure trivial
  | declare _ name initializer =>
    simp only [Statement.nodes, Region.runs_cons] at hs
    refine (ih.optional ctx initializer hctx hs.2).bind fun v hv => ?_
    -- the new cell holds what the region admits, before the name is bound to it
    refine (Run.keeps_modify (Q := fun _ => True) (fun st h => ?_) trivial).bind fun _ _ =>
      Run.keeps_pure trivial
    obtain ⟨hcell, h'⟩ := h.newCell hR (h.snapshot hv)
    exact h'.bind (hR.frames ctx hctx) hcell
  | leave _ value =>
    simp only [Statement.nodes, Region.runs_cons] at hs
    refine (ih.optional ctx value hctx hs.2).bind fun v hv => (keeps_snapshot hv).bind fun w hw => ?_
    exact Run.keeps_raise hw
  | breakLoop => exact Run.keeps_raise trivial
  | continueLoop => exact Run.keeps_raise trivial
  | block _ body =>
    simp only [Statement.nodes, Region.runs_cons] at hs
    exact ih.statements ctx body hctx hs.2
  | branch _ condition whenTrue whenFalse =>
    simp only [Statement.nodes, Region.runs_cons, Region.runs_append] at hs
    refine (ih.truth ctx condition hctx hs.2.1).bind fun b _ => ?_
    cases b with
    | true =>
      exact (ih.statement ctx whenTrue hctx hs.2.2.1).bind fun _ _ => Run.keeps_pure trivial
    | false =>
      cases whenFalse with
      | none => exact Run.keeps_pure trivial
      | some s => exact (ih.statement ctx s hctx hs.2.2.2).bind fun _ _ => Run.keeps_pure trivial
  | forLoop _ initializer condition iterator body =>
    simp only [Statement.nodes, Region.runs_cons, Region.runs_append] at hs
    obtain ⟨-, hinitializer, hcondition, hiterator, hbody⟩ := hs
    have hloop := keeps_loop ih hctx hcondition hiterator hbody
    cases initializer with
    | none => exact hloop
    | some s => exact (ih.statement ctx s hctx hinitializer).bind fun _ _ => hloop
  | whileLoop _ condition body =>
    simp only [Statement.nodes, Region.runs_cons, Region.runs_append] at hs
    exact keeps_loop ih hctx hs.2.1 (List.forall_mem_nil _) hs.2.2
  | empty => exact Run.keeps_pure trivial

private theorem keeps_rounds (hctx : R.context ctx) {condition : Option Expr}
    {iterator : Option Statement} {body : Statement}
    (hcondition : R.Runs (Expr.optionNodes condition))
    (hiterator : R.Runs (Statement.optionNodes iterator)) (hbody : R.Runs body.nodes) :
    R.Keeps st₀ (Value.Within R) (rounds (fuel + 1) ctx condition iterator body) := by
  have hrest : R.Keeps st₀ (Value.Within R) (nextRound fuel ctx condition iterator body) := by
    cases iterator with
    | none => exact ih.rounds ctx condition none body hctx hcondition hiterator hbody
    | some s =>
      exact (ih.statement ctx s hctx hiterator).bind fun _ _ =>
        ih.rounds ctx condition (some s) body hctx hcondition hiterator hbody
  -- what a round does after its condition: it ends the loop, or runs the body and goes on
  have hround : ∀ b : Bool, R.Keeps st₀ (Value.Within R)
      (round fuel ctx condition iterator body b) := by
    intro b
    cases b with
    | false => exact Run.keeps_pure trivial
    | true =>
      refine (ih.statement ctx body hctx hbody).attempt.bind fun r hr => ?_
      split
      · exact Run.keeps_pure trivial
      · exact hrest
      · exact hrest
      · exact Run.keeps_raise hr
  cases condition with
  | none =>
    rw [rounds_none]
    exact hround true
  | some e =>
    rw [rounds_some]
    exact (ih.truth ctx e hctx hcondition).bind fun b _ => hround b

private theorem keeps_oneRound (hctx : R.context ctx) {body : Statement} (hbody : R.Runs body.nodes) :
    R.Keeps st₀ (Value.Within R) (oneRound (fuel + 1) ctx body) := by
  refine (ih.statement ctx body hctx hbody).attempt.bind fun r hr => ?_
  split
  · exact Run.keeps_pure trivial
  · exact Run.keeps_pure trivial
  · exact Run.keeps_pure trivial
  · exact Run.keeps_raise hr

end

/-- What a walk reaches lies in its region. -/
theorem confined (hR : R.Fits st₀) : ∀ fuel, Confined R st₀ fuel := by
  intro fuel
  induction fuel with
  | zero =>
    constructor <;> intros <;> exact Run.keeps_cutOff
  | succ fuel ih =>
    constructor
    case expr => exact fun ctx e hctx he => keeps_expr ih hR hctx he
    case exprs => exact fun ctx es hctx hes => keeps_exprs ih hctx hes
    case call => exact fun mode callee args hcallee hargs => keeps_call ih hcallee hargs
    case apply => exact fun mode callable args hcallable hargs => keeps_apply ih hR hcallable hargs
    case quantify =>
      exact fun mode quantifier callable items hcallable hitems =>
        keeps_quantify ih hcallable hitems
    case code =>
      intro ctx code hctx hcode
      cases code with
      | expression e => exact ih.expr ctx e hctx hcode
      | statement s => exact ih.statement ctx s hctx hcode
    case statement => exact fun ctx s hctx hs => keeps_statement ih hR hctx hs
    case optional =>
      intro ctx e? hctx he
      cases e? with
      | none => exact Run.keeps_pure trivial
      | some e => exact ih.expr ctx e hctx he
    case truth =>
      intro ctx e hctx he
      refine (ih.expr ctx e hctx he).bind fun v hv => (keeps_snapshot hv).bind fun w _ => ?_
      exact keeps_ofValue fun _ _ => trivial
    case statements =>
      intro ctx ss hctx hss
      cases ss with
      | nil => exact Run.keeps_pure trivial
      | cons s rest =>
        simp only [Statement.listNodes, Region.runs_append] at hss
        exact (ih.statement ctx s hctx hss.1).bind fun _ _ => ih.statements ctx rest hctx hss.2
    case rounds =>
      exact fun ctx condition iterator body hctx hcondition hiterator hbody =>
        keeps_rounds ih hctx hcondition hiterator hbody
    case oneRound => exact fun ctx body hctx hbody => keeps_oneRound ih hctx hbody

end Walk

/-! ## Completion -/

/-- Whether a host binds names to data only, and to cells that hold data. -/
def Store.HoldsData (st : Store) (host : Nat) : Prop :=
  ∀ name v, (st.hosts[host]?.getD {}).find? name = some v →
    v.isData = true ∨ ∃ slot w, v = .cell slot ∧ st.slots[slot]? = some w ∧ w.isData = true

/-- What was made since a store, with functions of some kind and the contexts of speculative runs,
which reach the host through a shadow. -/
def Region.since (st : Store) (host : Nat) (body : Code → Prop) : Region where
  cell slot := st.slots.size ≤ slot
  table table := st.tables.size ≤ table
  context ctx := (∃ cursor, ctx.mode = .speculative cursor) ∧ ctx.env.host = host ∧
    ctx.env.isShadowed ∧ ∀ frame ∈ ctx.env.frames, st.tables.size ≤ frame.table
  body := body
  files := True

theorem Region.since_fits {st : Store} {host : Nat} {body : Code → Prop} (h : st.HoldsData host)
    (hbodies : ∀ code, body code → (Region.since st host body).Runs code.nodes) :
    (Region.since st host body).Fits st where
  cell _ hslot := hslot
  table _ htable := htable
  frames ctx hctx hnil := by
    obtain ⟨-, -, ⟨frame, hmem, -⟩, -⟩ := hctx
    simp [hnil] at hmem
  tables _ hctx := hctx.2.2.2
  bodies := hbodies
  push ctx kind table hctx htable := by
    obtain ⟨hmode, hhost, ⟨frame, hmem, hkind⟩, htables⟩ := hctx
    exact ⟨hmode, hhost, ⟨frame, List.mem_cons_of_mem _ hmem, hkind⟩,
      List.forall_mem_cons.2 ⟨htable, htables⟩⟩
  host ctx name v hctx hv := by
    obtain ⟨-, rfl, hshadow, -⟩ := hctx
    simp only [Store.hostValue?] at hv
    split at hv
    · next w hfound =>
      cases hv
      rcases h name v hfound with hdata | ⟨slot, w, rfl, hw, hdata⟩
      · exact .inl (Value.within_of_isData hdata)
      · refine .inr ⟨hshadow, ?_, fun other heq hother => ?_⟩
        · simpa [Store.snapshot, hw] using Value.within_of_isData hdata
        · cases heq
          exact absurd (Array.getElem?_eq_some_iff.1 hw).1 (Nat.not_lt.2 hother)
    · split at hv <;> cases hv
      exact .inl trivial

/-- Nothing was made yet where the region begins. -/
theorem Region.since_respects (st : Store) (host : Nat) (body : Code → Prop) :
    (Region.since st host body).Respects st st.beginRun.2 where
  slots_size := Nat.le_refl _
  tables_size := Nat.le_refl _
  hosts := rfl
  outside _ _ := rfl
  slots _ _ hslot hv := absurd (Array.getElem?_eq_some_iff.1 hv).1 (Nat.not_lt.2 hslot)
  tables _ _ htable hnames :=
    absurd (Array.getElem?_eq_some_iff.1 hnames).1 (Nat.not_lt.2 htable)

namespace Code

variable {fuel host cursor : Nat} {code : Code} {st st' : Store}
  {result : Except RunError (Option Suggestions)}

/-- The context of a speculative run has no frame yet, so it enters the region only behind its
shadow. -/
theorem keeps_behindShadow {body : Code → Prop} (run cursor : Nat) :
    (Region.since st host body).Keeps st (Region.since st host body).context
      (Walk.behindShadow ⟨.speculative cursor, run, ⟨[], host⟩⟩) := by
  refine Run.keeps_update fun st₁ h => ⟨?_, h.openFrame (by simp)⟩
  simp only [Store.openFrame_fst]
  exact ⟨⟨cursor, rfl⟩, rfl, ⟨_, List.mem_singleton_self _, rfl⟩,
    by simpa [Region.since] using h.tables_size⟩

/-- A speculative run at a host stays among what was made since it began. -/
theorem keeps_speculate (hhost : st.HoldsData host) (fuel run cursor : Nat) (code : Code) :
    (Region.since st host fun _ => True).Keeps st (Value.Within (Region.since st host fun _ => True))
      (speculate fuel ⟨.speculative cursor, run, ⟨[], host⟩⟩ code) := by
  have hall : ∀ nodes, (Region.since st host fun _ => True).Runs nodes := fun _ _ _ _ _ => trivial
  exact (keeps_behindShadow run cursor).bind fun ctx hctx => Walk.keeps_settleSpeculative
    ((Walk.confined (Region.since_fits hhost fun _ _ => hall _) fuel).code ctx code hctx (hall _))

/-- Looking for completions at a host that binds data changes no host and no cell that was there
before, however it ends. -/
theorem complete_keeps_host (hhost : st.HoldsData host)
    (h : code.complete fuel ⟨[], host⟩ cursor st = some (result, st')) :
    st'.hosts = st.hosts ∧ ∀ slot < st.slots.size, st'.slots[slot]? = st.slots[slot]? := by
  have hkeeps := keeps_speculate hhost fuel st.runs cursor code
  simp only [complete] at h
  split at h
  · cases h
  all_goals
    next st₁ hrun =>
    cases h
    have h₁ := (hkeeps (Region.since_respects st host _) hrun).1
    exact ⟨h₁.hosts, fun slot hslot => h₁.outside slot (Nat.not_le.2 hslot)⟩

/-- The cell `x` of a host keeps its value although the script calls a function that assigns to
`x`. -/
theorem complete_keeps_host_of_call :
    let st : Store := { slots := #[.boolean true], hosts := #[{ locals := [("x", .cell 0)] }] }
    let body : Statement := .block ⟨20, 32⟩
      [.assign ⟨22, 29⟩ .assign (.name ⟨22, 23⟩ "x") (.boolean ⟨26, 31⟩ false)]
    let code : Code := .statement (.block ⟨0, 38⟩
      [.declare ⟨0, 32⟩ "f" (some (.function ⟨8, 32⟩ [] body)),
        .expression ⟨33, 36⟩ (.binary ⟨33, 36⟩ .call (.name ⟨33, 34⟩ "f") (.null (.empty 36)))])
    ∃ result st', code.complete 20 ⟨[], 0⟩ 100 st = some (result, st') ∧
      st'.hosts = st.hosts ∧ ∀ slot < st.slots.size, st'.slots[slot]? = st.slots[slot]? := by
  intro st body code
  have hhost : st.HoldsData 0 := by
    intro name v h
    by_cases hx : name = "x"
    · subst hx
      cases h
      exact .inr ⟨0, .boolean true, rfl, rfl, rfl⟩
    · simp [Host.find?, st, Table.find?, hx] at h
  have hsome : (code.complete 20 ⟨[], 0⟩ 100 st).isSome = true := by decide +kernel
  obtain ⟨⟨result, st'⟩, h⟩ := Option.isSome_iff_exists.1 hsome
  exact ⟨result, st', h, complete_keeps_host hhost h⟩

end Code

end SearchScript
