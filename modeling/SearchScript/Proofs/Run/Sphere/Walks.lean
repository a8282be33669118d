import SearchScript.Proofs.Run.Errors
import SearchScript.Proofs.Run.Loops
import SearchScript.Proofs.Run.Outlive.Runs
import SearchScript.Proofs.Run.Sphere
import SearchScript.Proofs.Syntax.Jumps

/-!
# Runs stay inside their spheres

Whatever a program comes across, in either mode, lies inside the sphere of its context: every value
that it computes, every function that it makes or calls, and all that the store holds. And a part of
a program is left in few ways: with a value of the sphere, with a jump that the part has and that no
loop of the part takes, with completions if there are speculative runs in the sphere, and with the
errors of the sphere. There is one lemma for each step that is not a program, and an induction on
the steps that are left for those that are.

## Key definitions

- `Signal.Inside`: the ways in which a part of a program may be left
- `Sphere.Lawful`: a sphere that runs do not leave

## Key results

- `Walk.enclosed`: runs stay inside lawful spheres
- `Code.inside_evaluate`: what an evaluation at a host comes to
-/

namespace SearchScript

/-- The signal of a jump. -/
def Jump.signal : Jump → Signal
  | breakLoop => .breakLoop
  | continueLoop => .continueLoop

/-- The error of a run that ends with a jump. -/
def Jump.error : Jump → RunError
  | breakLoop => .breakOutsideLoop
  | continueLoop => .continueOutsideLoop

/-- Whether a part of a program may be left with a signal, if it has some jumps that no loop of it
takes. -/
def Signal.Inside (S : Sphere) (jumps : Jump → Bool) : Signal → Prop
  | .leave v => v.Inside S
  | .breakLoop => jumps .breakLoop = true
  | .continueLoop => jumps .continueLoop = true
  | .suggest _ => ∃ cursor, S.mode (.speculative cursor)
  | .fail e => S.error e

namespace Sphere

/-- Whether a step stays inside a sphere and ends with what `Q` asks for, or with a jump of some. -/
abbrev Keeps {α : Type} (S : Sphere) (jumps : Jump → Bool) (Q : α → Prop) (step : Run α) : Prop :=
  Run.Keeps S.Encloses (Signal.Inside S jumps) Q step

/-- Whether a sphere has all that comes up in runs of its contexts: the bodies of functions that are
made there, the errors of jumps that no loop of a body takes, and the errors of functions that are
called in the wrong mode if it has both modes. -/
structure Lawful (S : Sphere) : Prop extends S.Roams where
  mode : ∀ ctx, S.context ctx → S.mode ctx.mode
  bodies : ∀ body, S.body body → S.Makes body.nodes
  jumps : ∀ body, S.body body → ∀ jump, body.jumpsOut jump = true → S.error jump.error
  ordinary : ∀ e, e.isOrdinary = true → S.error e
  clash : ∀ cursor, S.mode .real → S.mode (.speculative cursor) →
    S.error .speculativeCall ∧ S.error .realCall

variable {α : Type} {S : Sphere} {J : Jump → Bool} {Q : α → Prop}

theorem Keeps.allow {J' : Jump → Bool} {step : Run α} (h : S.Keeps J Q step)
    (hle : ∀ jump, J jump = true → J' jump = true) : S.Keeps J' Q step := by
  intro st hst r st' heq
  obtain ⟨hst', hr⟩ := h hst heq
  refine ⟨hst', ?_⟩
  cases r with
  | ok a => exact hr
  | error s =>
    cases s with
    | breakLoop => exact hle _ hr
    | continueLoop => exact hle _ hr
    | leave | suggest | fail => exact hr

theorem Keeps.imp {Q' : α → Prop} {step : Run α} (h : S.Keeps J Q step)
    (hle : ∀ a, Q a → Q' a) : S.Keeps J Q' step := by
  intro st hst r st' heq
  obtain ⟨hst', hr⟩ := h hst heq
  refine ⟨hst', ?_⟩
  cases r with
  | ok a => exact hle a hr
  | error s => exact hr

/-- A part without jumps may stand wherever there are some. -/
theorem Keeps.any {step : Run α} (h : S.Keeps (fun _ => false) Q step) : S.Keeps J Q step :=
  h.allow fun _ hnever => nomatch hnever

theorem keeps_fail (hS : S.Lawful) {e : RunError} (h : e.isOrdinary = true) :
    S.Keeps J Q (Run.fail e : Run α) :=
  Run.keeps_fail (hS.ordinary e h)

theorem keeps_ofAnswer (hS : S.Lawful) {x : Except RunError α} (h : ∀ a, x = .ok a → Q a)
    (hx : Ordinary x) : S.Keeps J Q (Run.ofAnswer x) := by
  cases x with
  | ok a => exact Run.keeps_pure (h a rfl)
  | error e => exact keeps_fail hS (hx e rfl)

theorem keeps_ofValue (hS : S.Lawful) {x : Except ValueError α} (h : ∀ a, x = .ok a → Q a) :
    S.Keeps J Q (Run.ofValue x) := by
  cases x with
  | ok a => exact Run.keeps_pure (h a rfl)
  | error e => exact keeps_fail hS rfl

end Sphere

namespace Walk

open Sphere

variable {S : Sphere} {J : Jump → Bool} {ctx : Context} {mode : Mode} {v : Value}
  {args : List Value}

theorem inside_snapshot (hv : v.Inside S) : S.Keeps J (Value.Inside S) (Run.snapshot v) :=
  Run.keeps_read fun _ h => h.snapshot hv

/-- Data is inside every sphere. -/
theorem inside_ofAnswer (hS : S.Lawful) {x : Except RunError Value}
    (h : ∀ u, x = .ok u → u.isData = true) (hx : Ordinary x) :
    S.Keeps J (Value.Inside S) (Run.ofAnswer x) :=
  Sphere.keeps_ofAnswer hS (fun u hu => Value.inside_of_isData u (h u hu)) hx

/-! ## Names, members and operators -/

theorem inside_name (hS : S.Lawful) (hctx : S.context ctx) {span : Span} {text : String} :
    S.Keeps J (Value.Inside S) (name ctx span text) := by
  intro st h r st' heq
  unfold name at heq
  split at heq
  · next v st₁ hres =>
    cases heq
    obtain ⟨hv, h'⟩ := h.resolve hS.toRoams hctx hres
    exact ⟨h', hv⟩
  · split at heq
    · cases heq
      exact ⟨h, hS.ordinary _ rfl⟩
    · next cursor hmode =>
      split at heq <;> cases heq
      · exact ⟨h, cursor, hmode ▸ hS.mode ctx hctx⟩
      · exact ⟨h, hS.ordinary _ rfl⟩

theorem inside_newFunction {callable : Callable} (h : callable.Inside S) :
    S.Keeps J (Value.Inside S) (Run.update (·.newFunction callable)) :=
  Run.keeps_update fun _ hst => ⟨h, { hst with }⟩

theorem inside_memberOf (hS : S.Lawful) (hv : v.Inside S) {text : String} :
    S.Keeps J (Value.Inside S) (memberOf v text) := by
  refine (inside_snapshot hv).bind fun w hw =>
    (Sphere.keeps_ofValue hS fun m hm => Value.inside_of_memberOf hw hm).bind fun m hm => ?_
  cases m with
  | data w => exact Run.keeps_pure hm
  | function callable => exact inside_newFunction hm

theorem inside_namedMember (hS : S.Lawful) (hv : v.Inside S) {right : Expr} :
    S.Keeps J (Value.Inside S) (namedMember v right) := by
  unfold namedMember
  split
  · exact inside_memberOf hS hv
  · exact Sphere.keeps_fail hS rfl

theorem inside_member (hS : S.Lawful) (hctx : S.context ctx) (hv : v.Inside S)
    {left right : Expr} : S.Keeps J (Value.Inside S) (member ctx v left right) := by
  unfold member
  split
  · exact inside_namedMember hS hv
  · next cursor hmode =>
    split
    · exact (inside_snapshot hv).bind fun _ _ =>
        Run.keeps_raise ⟨cursor, hmode ▸ hS.mode ctx hctx⟩
    · exact inside_namedMember hS hv

theorem inside_unary (hS : S.Lawful) (hv : v.Inside S) {op : UnaryOp} :
    S.Keeps J (Value.Inside S) (unary op v) := by
  cases op with
  | plus => exact Run.keeps_pure hv
  | negate =>
    refine (inside_snapshot hv).bind fun w _ => Sphere.keeps_ofValue hS fun u hu => ?_
    cases w <;> cases hu <;> trivial
  | not =>
    refine (inside_snapshot hv).bind fun w _ => Sphere.keeps_ofValue hS fun u hu => ?_
    cases w <;> cases hu <;> trivial
  | bitNot =>
    refine (inside_snapshot hv).bind fun w _ => Sphere.keeps_ofValue hS fun u hu => ?_
    cases w <;> cases hu <;> trivial

theorem inside_binary (hS : S.Lawful) {w : Value} (hv : v.Inside S) (hw : w.Inside S)
    {op : BinaryOp} : S.Keeps J (Value.Inside S) (binary op v w) :=
  (inside_snapshot hv).bind fun _ hl => (inside_snapshot hw).bind fun _ _ =>
    Sphere.keeps_ofAnswer hS (fun _ h => Value.inside_of_binary hl h) Value.ordinary_binary

theorem inside_assign (hS : S.Lawful) {target : Value} (hv : v.Inside S) :
    S.Keeps J (fun _ => True) (assign target v) := by
  intro st h r st' heq
  unfold assign at heq
  split at heq
  · next st₁ hassign =>
    cases heq
    exact ⟨h.assign hv hassign, trivial⟩
  · cases heq
    exact ⟨h, hS.ordinary _ rfl⟩

theorem inside_declare {name : String} (hv : v.Inside S) :
    S.Keeps J (fun _ => True) (Run.modify fun st =>
      let (cell, st) := st.newCell v
      st.bind ctx.env name cell) := by
  refine Run.keeps_modify (fun st h => ?_) trivial
  obtain ⟨hcell, h'⟩ := h.newCell hv
  exact h'.bind hcell

/-! ## Calls of what is not made by a program -/

theorem inside_convert (hS : S.Lawful) {type : TypeName} (hargs : ∀ v ∈ args, v.Inside S) :
    S.Keeps J (Value.Inside S) (convert type args) := by
  cases args with
  | nil => cases type <;> exact Sphere.keeps_fail hS rfl
  | cons v rest =>
    have hv := hargs v List.mem_cons_self
    cases type <;>
      exact (inside_snapshot hv).bind fun _ _ =>
        (Sphere.keeps_ofValue (Q := fun _ => True) hS fun _ _ => trivial).bind fun _ _ =>
          Run.keeps_pure trivial

theorem inside_findFile (hS : S.Lawful) {files : Option FileStore}
    (hargs : ∀ v ∈ args, v.Inside S) :
    S.Keeps J (Value.Inside S) (findFile mode files args) := by
  cases args with
  | nil => exact Sphere.keeps_fail hS rfl
  | cons v rest =>
    refine (inside_snapshot (hargs v List.mem_cons_self)).bind fun w _ => ?_
    split
    · exact Sphere.keeps_fail hS rfl
    · exact inside_ofAnswer hS (fun _ h => isData_of_lookUp h) ordinary_lookUp
    · exact Run.keeps_pure trivial
    · exact Run.keeps_pure trivial
    · exact Sphere.keeps_fail hS rfl

theorem inside_holds (hS : S.Lawful) {items : List String} :
    S.Keeps J (Value.Inside S) (holds items args) :=
  (Run.keeps_read (Q := fun _ => True) fun _ _ => trivial).bind fun _ _ =>
    (Sphere.keeps_ofAnswer (Q := fun _ => True) hS (fun _ _ => trivial)
      ordinary_stringArgument).bind fun _ _ => Run.keeps_pure trivial

theorem inside_record (hargs : ∀ v ∈ args, v.Inside S) :
    S.Keeps J (Value.Inside S) (record args) :=
  (Run.keeps_modify (Q := fun _ => True) (fun _ h => { h with }) trivial).bind fun _ _ =>
    Run.keeps_pure (Value.inside_headD hargs)

theorem inside_predicate (hS : S.Lawful) {quantifier : Quantifier}
    (hargs : ∀ v ∈ args, v.Inside S) :
    S.Keeps J (Callable.Inside S) (predicate quantifier args) := by
  cases args with
  | nil => exact Sphere.keeps_fail hS rfl
  | cons v rest =>
    exact (inside_snapshot (hargs v List.mem_cons_self)).bind fun _ hw =>
      Sphere.keeps_ofValue hS fun _ h => Value.inside_of_requireFunction hw h

theorem inside_predicateAnswer (hS : S.Lawful) (hv : v.Inside S) :
    S.Keeps J (fun _ => True) (predicateAnswer v) := by
  refine (inside_snapshot hv).bind fun w _ => ?_
  split
  · exact Run.keeps_pure trivial
  · exact Sphere.keeps_fail hS rfl

/-! ## Functions -/

theorem inside_of_realOutcome {r : Except Signal Value}
    (hr : Run.Ends (Signal.Inside S J) (Value.Inside S) r) (h : realOutcome r = .ok v) :
    v.Inside S := by
  unfold realOutcome at h
  split at h <;> cases h <;> exact hr

/-- The errors of a real run whose jumps are those of a body. -/
theorem error_of_realOutcome (hS : S.Lawful) (hreal : S.mode .real) {e : RunError}
    {r : Except Signal Value} (hjumps : ∀ jump, J jump = true → S.error jump.error)
    (hr : Run.Ends (Signal.Inside S J) (Value.Inside S) r) (h : realOutcome r = .error e) :
    S.error e := by
  unfold realOutcome at h
  split at h <;> cases h
  · exact hjumps .breakLoop hr
  · exact hjumps .continueLoop hr
  · obtain ⟨cursor, hcursor⟩ := hr
    exact (hS.clash cursor hreal hcursor).1
  · exact hr

/-- A function that is called for real ends with no jump, and with no cell unless there are cells
that hold cells. -/
theorem read_settle (hS : S.Lawful) (hreal : S.mode .real) {J' : Jump → Bool}
    {step : Run Value} (hjumps : ∀ jump, J jump = true → S.error jump.error)
    (h : S.Keeps J (Value.Inside S) step) :
    S.Keeps J' (fun v => v.Inside S ∧ (¬S.nested → ∀ slot, v ≠ .cell slot)) (settle step) := by
  have hread : ∀ u : Value, u.Inside S → S.Keeps J'
      (fun v => v.Inside S ∧ (¬S.nested → ∀ slot, v ≠ .cell slot)) (Run.snapshot u) :=
    fun u hu => Run.keeps_read fun _ hst =>
      ⟨hst.snapshot hu, fun hflat slot => hst.snapshot_ne_cell hflat hu slot⟩
  refine h.attempt.bind fun r hr => ?_
  cases houtcome : realOutcome r with
  | ok u => exact (Run.keeps_pure (inside_of_realOutcome hr houtcome)).bind hread
  | error e => exact (Run.keeps_fail (Q := Value.Inside S)
      (error_of_realOutcome hS hreal hjumps hr houtcome)).bind hread

theorem inside_settle (hS : S.Lawful) (hreal : S.mode .real) {J' : Jump → Bool}
    {step : Run Value} (hjumps : ∀ jump, J jump = true → S.error jump.error)
    (h : S.Keeps J (Value.Inside S) step) : S.Keeps J' (Value.Inside S) (settle step) :=
  (read_settle hS hreal hjumps h).imp fun _ hv => hv.1

/-- A function that is called speculatively ends with no jump. -/
theorem inside_settleSpeculative {J' : Jump → Bool} {step : Run Value}
    (h : S.Keeps J (Value.Inside S) step) :
    S.Keeps J' (Value.Inside S) (settleSpeculative step) := by
  refine h.attempt.bind fun r hr => ?_
  cases r with
  | ok v => exact Run.keeps_pure hr
  | error s =>
    cases s with
    | leave v => exact Run.keeps_pure hr
    | breakLoop | continueLoop => exact Run.keeps_pure trivial
    | suggest found => exact Run.keeps_raise hr
    | fail e => exact Run.keeps_raise hr

theorem inside_enter (hS : S.Lawful) {closure : Closure} (hctx : S.context closure.context)
    (hargs : ∀ v ∈ args, v.Inside S) :
    S.Keeps J (fun ctx => S.context ctx ∧ ctx.mode = closure.context.mode)
      (enter closure args) := by
  refine Run.keeps_update fun st h => ?_
  obtain ⟨hnames, h'⟩ := h.bindParams closure.params [] hargs (List.forall_mem_nil _)
  exact ⟨⟨h'.context_openFrame hS.toRoams hctx (by rintro ⟨⟩), rfl⟩, h'.openFrame hnames⟩

theorem inside_behindShadow (hS : S.Roams) (hctx : S.context ctx) (hmode : ctx.mode ≠ .real) :
    S.Keeps J S.context (behindShadow ctx) :=
  Run.keeps_update fun _ h =>
    ⟨h.context_openFrame hS hctx fun _ => hmode, h.openFrame (List.forall_mem_nil _)⟩

/-! ## Programs -/

/-- Whether everything that runs with this fuel stays inside its sphere. -/
structure Enclosed (S : Sphere) (fuel : Nat) : Prop where
  expr : ∀ ctx e, S.context ctx → S.Makes e.nodes →
    S.Keeps (fun _ => false) (Value.Inside S) (Walk.expr fuel ctx e)
  exprs : ∀ ctx es, S.context ctx → (∀ e ∈ es, S.Makes e.nodes) →
    S.Keeps (fun _ => false) (fun vs => ∀ v ∈ vs, v.Inside S) (Walk.exprs fuel ctx es)
  call : ∀ mode callee args, S.mode mode → callee.Inside S → (∀ v ∈ args, v.Inside S) →
    S.Keeps (fun _ => false) (Value.Inside S) (Walk.call fuel mode callee args)
  apply : ∀ mode callable args, S.mode mode → callable.Inside S → (∀ v ∈ args, v.Inside S) →
    S.Keeps (fun _ => false) (Value.Inside S) (Walk.apply fuel mode callable args)
  quantify : ∀ mode quantifier callable items, S.mode mode → callable.Inside S →
    (∀ v ∈ items, v.Inside S) →
    S.Keeps (fun _ => false) (Value.Inside S) (Walk.quantify fuel mode quantifier callable items)
  code : ∀ ctx code, S.context ctx → S.Makes code.nodes →
    S.Keeps (code.jumpsOut ·) (Value.Inside S) (Walk.code fuel ctx code)
  statement : ∀ ctx s, S.context ctx → S.Makes s.nodes →
    S.Keeps (s.jumpsOut ·) (Value.Inside S) (Walk.statement fuel ctx s)
  optional : ∀ ctx e?, S.context ctx → S.Makes (Expr.optionNodes e?) →
    S.Keeps (fun _ => false) (Value.Inside S) (Walk.optional fuel ctx e?)
  truth : ∀ ctx e, S.context ctx → S.Makes e.nodes →
    S.Keeps (fun _ => false) (fun _ => True) (Walk.truth fuel ctx e)
  statements : ∀ ctx ss, S.context ctx → S.Makes (Statement.listNodes ss) →
    S.Keeps (Statement.anyJumpsOut · ss) (Value.Inside S) (Walk.statements fuel ctx ss)
  rounds : ∀ ctx condition iterator body, S.context ctx → S.Makes (Expr.optionNodes condition) →
    S.Makes (Statement.optionNodes iterator) → S.Makes body.nodes →
    S.Keeps (Statement.optionJumpsOut · iterator) (Value.Inside S)
      (Walk.rounds fuel ctx condition iterator body)
  oneRound : ∀ ctx body, S.context ctx → S.Makes body.nodes →
    S.Keeps (fun _ => false) (Value.Inside S) (Walk.oneRound fuel ctx body)

section

variable {fuel : Nat} (ih : Enclosed S fuel)
include ih

private theorem inside_expr (hS : S.Lawful) (hctx : S.context ctx) {e : Expr}
    (he : S.Makes e.nodes) :
    S.Keeps (fun _ => false) (Value.Inside S) (expr (fuel + 1) ctx e) := by
  have hmade := he (.expression e) (by unfold Expr.nodes; simp)
  cases e with
  | placeholder =>
    simp only [expr]
    split
    · exact Sphere.keeps_fail hS rfl
    · exact Run.keeps_pure trivial
  | name => exact inside_name hS hctx
  | typeName | number | boolean | string | null => exact Run.keeps_pure trivial
  | unary _ op operand =>
    simp only [Expr.nodes, makes_cons] at he
    exact (ih.expr ctx operand hctx he.2).bind fun v hv => inside_unary hS hv
  | ternary _ condition whenTrue whenFalse =>
    simp only [Expr.nodes, makes_cons, makes_append] at he
    refine (ih.expr ctx condition hctx he.2.1).bind fun v hv => ?_
    refine (inside_snapshot hv).bind fun c _ => ?_
    refine (Sphere.keeps_ofValue (Q := fun _ => True) hS fun _ _ => trivial).bind fun b _ => ?_
    cases b
    · exact ih.expr ctx whenFalse hctx he.2.2.2
    · exact ih.expr ctx whenTrue hctx he.2.2.1
  | lambda _ params body => exact inside_newFunction ⟨hctx, hmade _ rfl⟩
  | function _ params body => exact inside_newFunction ⟨hctx, hmade _ rfl⟩
  | binary _ op left right =>
    simp only [Expr.nodes, makes_cons, makes_append] at he
    refine (ih.expr ctx left hctx he.2.1).bind fun l hl => ?_
    split
    · exact inside_member hS hctx hl
    · have hargs : ∀ arg ∈ right.arguments, S.Makes arg.nodes := fun arg harg node hnode =>
        he.2.2 node (nodes_subset_of_mem_arguments harg hnode)
      exact (ih.exprs ctx right.arguments hctx hargs).bind fun args hargs =>
        ih.call ctx.mode l args (hS.mode ctx hctx) hl hargs
    · exact ih.expr ctx right hctx he.2.2
    · exact (ih.expr ctx right hctx he.2.2).bind fun r hr => inside_binary hS hl hr

private theorem inside_exprs (hctx : S.context ctx) {es : List Expr}
    (hes : ∀ e ∈ es, S.Makes e.nodes) :
    S.Keeps (fun _ => false) (fun vs => ∀ v ∈ vs, v.Inside S) (exprs (fuel + 1) ctx es) := by
  cases es with
  | nil => exact Run.keeps_pure (List.forall_mem_nil _)
  | cons e rest =>
    obtain ⟨he, hrest⟩ := List.forall_mem_cons.1 hes
    exact (ih.expr ctx e hctx he).bind fun v hv =>
      (ih.exprs ctx rest hctx hrest).bind fun vs hvs =>
        Run.keeps_pure (List.forall_mem_cons.2 ⟨hv, hvs⟩)

private theorem inside_call (hS : S.Lawful) (hmode : S.mode mode) {callee : Value}
    (hcallee : callee.Inside S) (hargs : ∀ v ∈ args, v.Inside S) :
    S.Keeps (fun _ => false) (Value.Inside S) (call (fuel + 1) mode callee args) := by
  refine (inside_snapshot hcallee).bind fun w hw => ?_
  split
  · exact ih.apply _ _ _ hmode hw hargs
  · exact inside_convert hS hargs
  · exact inside_findFile hS hargs
  · exact Sphere.keeps_fail hS rfl

/-- A function is called in its own mode, or both modes belong to the sphere. -/
private theorem inside_closure (hS : S.Lawful) (hmode : S.mode mode) {closure : Closure}
    (hclosure : S.context closure.context ∧ S.body closure.body)
    (hargs : ∀ v ∈ args, v.Inside S) :
    S.Keeps (fun _ => false) (Value.Inside S) (apply (fuel + 1) mode (.closure closure) args) := by
  obtain ⟨hctx, hbody⟩ := hclosure
  have hown := hS.mode _ hctx
  have hcode : ∀ ctx, S.context ctx →
      S.Keeps (closure.body.jumpsOut ·) (Value.Inside S) (code fuel ctx closure.body) :=
    fun ctx hctx => ih.code ctx closure.body hctx (hS.bodies _ hbody)
  simp only [apply]
  split
  · next cursor hspeculative =>
    rw [hspeculative] at hown
    exact Run.keeps_fail (hS.clash cursor hmode hown).2
  · next cursor hreal =>
    rw [hreal] at hown
    exact Run.keeps_fail (hS.clash cursor hown hmode).1
  · next hreal =>
    exact (inside_enter hS hctx hargs).bind fun ctx hctx =>
      inside_settle hS hmode (hS.jumps _ hbody) (hcode ctx hctx.1)
  · next cursor hspeculative =>
    refine (inside_enter hS hctx hargs).bind fun ctx hctx => ?_
    have hmode' : ctx.mode ≠ .real := by simp [hctx.2, hspeculative]
    exact (inside_behindShadow hS.toRoams hctx.1 hmode').bind fun ctx hctx =>
      inside_settleSpeculative (hcode ctx hctx)

private theorem inside_apply (hS : S.Lawful) (hmode : S.mode mode) {callable : Callable}
    (hcallable : callable.Inside S) (hargs : ∀ v ∈ args, v.Inside S) :
    S.Keeps (fun _ => false) (Value.Inside S) (apply (fuel + 1) mode callable args) := by
  cases callable with
  | text receiver function =>
    exact (Run.keeps_read (Q := fun _ => True) fun _ _ => trivial).bind fun _ _ =>
      inside_ofAnswer hS (fun _ h => Value.isData_of_textFunction h) TextFunction.ordinary_apply
  | holds items => exact inside_holds hS
  | quantifier quantifier items =>
    exact (inside_predicate hS hargs).bind fun predicate hpredicate =>
      ih.quantify _ _ _ _ hmode hpredicate (Value.allInside_iff.1 hcallable)
  | closure closure => exact inside_closure ih hS hmode hcallable hargs
  | recorder => exact inside_record hargs

private theorem inside_quantify (hS : S.Lawful) (hmode : S.mode mode) {quantifier : Quantifier}
    {callable : Callable} {items : List Value} (hcallable : callable.Inside S)
    (hitems : ∀ v ∈ items, v.Inside S) :
    S.Keeps (fun _ => false) (Value.Inside S)
      (quantify (fuel + 1) mode quantifier callable items) := by
  cases items with
  | nil => exact Run.keeps_pure trivial
  | cons item rest =>
    obtain ⟨hitem, hrest⟩ := List.forall_mem_cons.1 hitems
    refine (ih.apply mode callable [item] hmode hcallable (by simpa using hitem)).bind fun v hv =>
      (inside_predicateAnswer hS hv).bind fun answer _ => ?_
    split
    · exact Run.keeps_pure trivial
    · exact ih.quantify _ _ _ _ hmode hcallable hrest

private theorem inside_loop (hctx : S.context ctx) {condition : Option Expr}
    {iterator : Option Statement} {body : Statement}
    (hcondition : S.Makes (Expr.optionNodes condition))
    (hiterator : S.Makes (Statement.optionNodes iterator)) (hbody : S.Makes body.nodes) :
    S.Keeps (Statement.optionJumpsOut · iterator) (Value.Inside S)
      (loop fuel ctx condition iterator body) := by
  unfold loop
  split
  · exact ih.rounds ctx condition iterator body hctx hcondition hiterator hbody
  · exact (ih.oneRound ctx body hctx hbody).any

private theorem inside_statement (hS : S.Lawful) (hctx : S.context ctx) {s : Statement}
    (hs : S.Makes s.nodes) :
    S.Keeps (s.jumpsOut ·) (Value.Inside S) (statement (fuel + 1) ctx s) := by
  cases s with
  | expression _ e =>
    simp only [Statement.nodes, makes_cons] at hs
    exact (ih.expr ctx e hctx hs.2).any
  | assign _ op target value =>
    simp only [Statement.nodes, makes_cons, makes_append] at hs
    refine (ih.expr ctx target hctx hs.2.1).any.bind fun t ht =>
      (ih.expr ctx value hctx hs.2.2).any.bind fun v hv => ?_
    dsimp only
    split
    · exact (inside_binary hS ht hv).bind fun w hw =>
        (inside_assign hS hw).bind fun _ _ => Run.keeps_pure trivial
    · exact (inside_assign hS hv).bind fun _ _ => Run.keeps_pure trivial
  | declare _ name initializer =>
    simp only [Statement.nodes, makes_cons] at hs
    exact (ih.optional ctx initializer hctx hs.2).any.bind fun v hv =>
      (inside_declare hv).bind fun _ _ => Run.keeps_pure trivial
  | leave _ value =>
    simp only [Statement.nodes, makes_cons] at hs
    exact (ih.optional ctx value hctx hs.2).any.bind fun v hv =>
      (inside_snapshot hv).bind fun w hw => Run.keeps_raise hw
  | breakLoop => exact Run.keeps_raise (by simp [Signal.Inside, Statement.jumpsOut])
  | continueLoop => exact Run.keeps_raise (by simp [Signal.Inside, Statement.jumpsOut])
  | block _ body =>
    simp only [Statement.nodes, makes_cons] at hs
    exact ih.statements ctx body hctx hs.2
  | branch _ condition whenTrue whenFalse =>
    simp only [Statement.nodes, makes_cons, makes_append] at hs
    refine (ih.truth ctx condition hctx hs.2.1).any.bind fun b _ => ?_
    cases b with
    | true =>
      -- a jump out of either branch is one out of the statement
      have hbranch := (ih.statement ctx whenTrue hctx hs.2.2.1).allow
        fun jump (h : whenTrue.jumpsOut jump = true) =>
          Bool.or_eq_true_iff.2 (.inl h : _ ∨ Statement.optionJumpsOut jump whenFalse = true)
      exact hbranch.bind fun _ _ => Run.keeps_pure trivial
    | false =>
      cases whenFalse with
      | none => exact Run.keeps_pure trivial
      | some s =>
        have hbranch := (ih.statement ctx s hctx hs.2.2.2).allow
          fun jump (h : s.jumpsOut jump = true) =>
            Bool.or_eq_true_iff.2 (.inr h : whenTrue.jumpsOut jump = true ∨ _)
        exact hbranch.bind fun _ _ => Run.keeps_pure trivial
  | forLoop _ initializer condition iterator body =>
    simp only [Statement.nodes, makes_cons, makes_append] at hs
    obtain ⟨-, hinitializer, hcondition, hiterator, hbody⟩ := hs
    -- the loop takes the jumps of its body, so only the parts outside its rounds let one out
    have hloop := (inside_loop ih hctx hcondition hiterator hbody).allow
      fun jump (h : Statement.optionJumpsOut jump iterator = true) =>
        Bool.or_eq_true_iff.2 (.inr h : Statement.optionJumpsOut jump initializer = true ∨ _)
    cases initializer with
    | none => exact hloop
    | some s =>
      have hfirst := (ih.statement ctx s hctx hinitializer).allow
        fun jump (h : s.jumpsOut jump = true) =>
          Bool.or_eq_true_iff.2 (.inl h : _ ∨ Statement.optionJumpsOut jump iterator = true)
      exact hfirst.bind fun _ _ => hloop
  | whileLoop _ condition body =>
    simp only [Statement.nodes, makes_cons, makes_append] at hs
    exact inside_loop ih hctx hs.2.1 (List.forall_mem_nil _) hs.2.2
  | empty => exact Run.keeps_pure trivial

private theorem inside_rounds (hctx : S.context ctx) {condition : Option Expr}
    {iterator : Option Statement} {body : Statement}
    (hcondition : S.Makes (Expr.optionNodes condition))
    (hiterator : S.Makes (Statement.optionNodes iterator)) (hbody : S.Makes body.nodes) :
    S.Keeps (Statement.optionJumpsOut · iterator) (Value.Inside S)
      (rounds (fuel + 1) ctx condition iterator body) := by
  have hagain := ih.rounds ctx condition iterator body hctx hcondition hiterator hbody
  have hrest : S.Keeps (Statement.optionJumpsOut · iterator) (Value.Inside S)
      (nextRound fuel ctx condition iterator body) := by
    cases iterator with
    | none => exact hagain
    | some s => exact (ih.statement ctx s hctx hiterator).bind fun _ _ => hagain
  have hround : ∀ b : Bool, S.Keeps (Statement.optionJumpsOut · iterator) (Value.Inside S)
      (round fuel ctx condition iterator body b) := by
    intro b
    cases b with
    | false => exact Run.keeps_pure trivial
    | true =>
      refine (ih.statement ctx body hctx hbody).attempt.bind fun r hr => ?_
      cases r with
      | ok v => exact hrest
      | error s =>
        -- the loop takes the jumps of its body, and nothing else
        cases s with
        | breakLoop => exact Run.keeps_pure trivial
        | continueLoop => exact hrest
        | leave v => exact Run.keeps_raise hr
        | suggest found => exact Run.keeps_raise hr
        | fail e => exact Run.keeps_raise hr
  cases condition with
  | none =>
    rw [rounds_none]
    exact hround true
  | some e =>
    rw [rounds_some]
    exact (ih.truth ctx e hctx hcondition).any.bind fun b _ => hround b

private theorem inside_oneRound (hctx : S.context ctx) {body : Statement}
    (hbody : S.Makes body.nodes) :
    S.Keeps (fun _ => false) (Value.Inside S) (oneRound (fuel + 1) ctx body) := by
  refine (ih.statement ctx body hctx hbody).attempt.bind fun r hr => ?_
  cases r with
  | ok v => exact Run.keeps_pure trivial
  | error s =>
    cases s with
    | breakLoop | continueLoop => exact Run.keeps_pure trivial
    | leave v => exact Run.keeps_raise hr
    | suggest found => exact Run.keeps_raise hr
    | fail e => exact Run.keeps_raise hr

end

/-- Runs stay inside lawful spheres. -/
theorem enclosed (hS : S.Lawful) : ∀ fuel, Enclosed S fuel := by
  intro fuel
  induction fuel with
  | zero =>
    constructor <;> intros <;> exact Run.keeps_cutOff
  | succ fuel ih =>
    constructor
    case expr => exact fun ctx e hctx he => inside_expr ih hS hctx he
    case exprs => exact fun ctx es hctx hes => inside_exprs ih hctx hes
    case call =>
      exact fun mode callee args hmode hcallee hargs => inside_call ih hS hmode hcallee hargs
    case apply =>
      exact fun mode callable args hmode hcallable hargs =>
        inside_apply ih hS hmode hcallable hargs
    case quantify =>
      exact fun mode quantifier callable items hmode hcallable hitems =>
        inside_quantify ih hS hmode hcallable hitems
    case code =>
      intro ctx code hctx hcode
      cases code with
      | expression e => exact (ih.expr ctx e hctx hcode).any
      | statement s => exact ih.statement ctx s hctx hcode
    case statement => exact fun ctx s hctx hs => inside_statement ih hS hctx hs
    case optional =>
      intro ctx e? hctx he
      cases e? with
      | none => exact Run.keeps_pure trivial
      | some e => exact ih.expr ctx e hctx he
    case truth =>
      exact fun ctx e hctx he => (ih.expr ctx e hctx he).bind fun v hv =>
        (inside_snapshot hv).bind fun w _ => Sphere.keeps_ofValue hS fun _ _ => trivial
    case statements =>
      intro ctx ss hctx hss
      cases ss with
      | nil => exact Run.keeps_pure trivial
      | cons s rest =>
        simp only [Statement.listNodes, makes_append] at hss
        -- a jump out of one statement of a list is one out of the list
        have hfirst := (ih.statement ctx s hctx hss.1).allow
          fun jump (h : s.jumpsOut jump = true) =>
            Bool.or_eq_true_iff.2 (.inl h : _ ∨ Statement.anyJumpsOut jump rest = true)
        have hrest := (ih.statements ctx rest hctx hss.2).allow
          fun jump (h : Statement.anyJumpsOut jump rest = true) =>
            Bool.or_eq_true_iff.2 (.inr h : s.jumpsOut jump = true ∨ _)
        exact hfirst.bind fun _ _ => hrest
    case rounds =>
      exact fun ctx condition iterator body hctx hcondition hiterator hbody =>
        inside_rounds ih hctx hcondition hiterator hbody
    case oneRound => exact fun ctx body hctx hbody => inside_oneRound ih hctx hbody

end Walk

/-! ## Whole runs -/

namespace Sphere

open Walk

variable {st : Store} {host : Nat} {mode : Mode → Prop} {body : Code → Prop}
  {error : RunError → Prop}

/-- What a run at a host may come across has the laws of spheres, if the bodies and the errors suit
each other and there are the errors of both modes or one mode only. -/
theorem ofHost_lawful
    (hbodies : ∀ code, body code → (ofHost st host mode body error).Makes code.nodes)
    (hjumps : ∀ code, body code → ∀ jump, code.jumpsOut jump = true → error jump.error)
    (hordinary : ∀ e, e.isOrdinary = true → error e)
    (hclash : ∀ cursor, mode .real → mode (.speculative cursor) →
      error .speculativeCall ∧ error .realCall) :
    (ofHost st host mode body error).Lawful where
  toRoams := ofHost_roams
  mode _ hctx := hctx.1
  bodies := hbodies
  jumps := hjumps
  ordinary := hordinary
  clash := hclash

theorem everything_lawful {nested : Prop} : (everything nested).Lawful where
  tables _ _ _ _ := trivial
  host _ _ := trivial
  push _ _ _ _ _ _ := trivial
  mode _ _ := trivial
  bodies _ _ _ _ _ _ := trivial
  jumps _ _ _ _ := trivial
  ordinary _ _ := trivial
  clash _ _ _ := ⟨trivial, trivial⟩

end Sphere

namespace Code

open Sphere

variable {fuel host : Nat} {code : Code} {st st' : Store} {mode : Mode → Prop}
  {body : Code → Prop} {error : RunError → Prop}

/-- The context that a program is evaluated in at a host belongs to what the run may come across. -/
theorem context_start (hmode : mode .real) : (ofHost st host mode body error).context
    ⟨.real, st.runs, (start ⟨[], host⟩ st).1⟩ := by
  simp only [start, Store.openFrame_fst]
  exact ⟨hmode, rfl, List.forall_mem_singleton.2 ⟨Nat.le_refl _, by rintro ⟨⟩⟩⟩

/-- The store that a program is evaluated in at a host that gives no function. -/
theorem encloses_start (hhost : st.GivesNoFunction host) :
    (ofHost st host mode body error).Encloses (start ⟨[], host⟩ st).2 :=
  (ofHost_encloses hhost).openFrame (List.forall_mem_nil _)

/-- What an evaluation at a host comes to lies inside the sphere of its run, and so does the error
that it ends with. -/
theorem inside_evaluate {result : Except RunError Value} (hhost : st.GivesNoFunction host)
    (hS : (ofHost st host mode body error).Lawful) (hmode : mode .real)
    (hmade : (ofHost st host mode body error).Makes code.nodes)
    (hjumps : ∀ jump, code.jumpsOut jump = true → error jump.error)
    (h : code.evaluate fuel ⟨[], host⟩ st = some (result, st')) :
    ∃ σ, (ofHost st host mode body error).Encloses σ ∧ st' = σ.endRun ∧
      (∀ v, result = .ok v →
        ∃ u : Value, u.Inside (ofHost st host mode body error) ∧ v = σ.snapshot u) ∧
      ∀ e, result = .error e → error e := by
  rw [evaluate_eq_map] at h
  obtain ⟨⟨r, σ⟩, hcode, heq⟩ := Option.map_eq_some_iff.1 h
  obtain ⟨hσ, hr⟩ := (Walk.enclosed hS fuel).code _ code (context_start hmode) hmade
    (encloses_start hhost) hcode
  cases heq
  refine ⟨σ, hσ, rfl, fun v hv => ?_, fun e he => ?_⟩
  · obtain ⟨u, houtcome, rfl⟩ := Except.map_eq_ok_iff.1 hv
    exact ⟨u, Walk.inside_of_realOutcome hr houtcome, rfl⟩
  · exact Walk.error_of_realOutcome hS hmode hjumps hr (Except.map_eq_error_iff.1 he)

end Code

end SearchScript
