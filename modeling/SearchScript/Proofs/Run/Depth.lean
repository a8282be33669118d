import SearchScript.Proofs.Run.Fuel
import SearchScript.Proofs.Run.Stops
import SearchScript.Proofs.Syntax.Nodes

/-!
# How deep calls nest

A speculative run goes through the body of a loop once, so inside one call it comes to smaller and
smaller parts of the program. It goes on for ever only by calls inside of calls without end. Here
the calls are counted that a walk is inside of, on the way from a task to a part of it, and a walk
ends exactly if there is a bound on this number.

## Key definitions

- `Run.Settles`: with enough steps, a run ends, and always in the same way
- `Walk.Nests`: how many calls a walk enters on the way from a task to a part of it
- `Walk.NestsWithin`: a bound on the calls that a walk is inside of

## Key results

- `Walk.settles_of_leads`: a task ends if every part that a walk comes to does
- `Walk.Leads.endsIn`: a part of a task takes fewer steps than the task
- `Walk.exists_endsIn_iff`: a walk ends exactly if its calls nest within a bound
-/

namespace SearchScript

namespace Run

variable {α β : Type} {st : Store}

/-! ## Steps that end -/

/-- Whether a step ends in every store. -/
def Total (step : Run α) : Prop := ∀ st, ∃ outcome, step st = some outcome

theorem total_pure (a : α) : Total (Pure.pure a) := fun _ => ⟨_, rfl⟩

theorem total_raise (s : Signal) : Total (raise s : Run α) := fun _ => ⟨_, rfl⟩

theorem total_fail (e : RunError) : Total (fail e : Run α) := fun _ => ⟨_, rfl⟩

theorem total_read (f : Store → α) : Total (read f) := fun _ => ⟨_, rfl⟩

theorem total_update (f : Store → α × Store) : Total (update f) := fun _ => ⟨_, rfl⟩

theorem total_modify (f : Store → Store) : Total (modify f) := fun _ => ⟨_, rfl⟩

theorem total_ofAnswer (x : Except RunError α) : Total (ofAnswer x) := fun _ => by
  cases x <;> exact ⟨_, rfl⟩

theorem total_ofValue (x : Except ValueError α) : Total (ofValue x) := fun _ => by
  cases x <;> exact ⟨_, rfl⟩

theorem Total.bind {step : Run α} {next : α → Run β} (h : Total step) (hn : ∀ a, Total (next a)) :
    Total (step >>= next) := by
  intro st
  obtain ⟨⟨_ | a, st₁⟩, hstep⟩ := h st
  · exact ⟨_, bind_of_error hstep⟩
  · obtain ⟨outcome, hnext⟩ := hn a st₁
    exact ⟨outcome, (bind_of_ok hstep).trans hnext⟩

/-- Whether a step that is given a number of steps ends, if the number is large enough, and then
always in the same way. -/
def Settles (step : Nat → Run α) (st : Store) : Prop :=
  ∃ n outcome, ∀ m ≥ n, step m st = some outcome

theorem Total.settles {step : Run α} (h : Total step) : Settles (fun _ => step) st := by
  obtain ⟨outcome, hstep⟩ := h st
  exact ⟨0, outcome, fun _ _ => hstep⟩

/-- What takes one step more settles too. -/
theorem Settles.succ {step : Nat → Run α} (h : Settles (fun m => step (m + 1)) st) :
    Settles step st := by
  obtain ⟨n, outcome, hn⟩ := h
  refine ⟨n + 1, outcome, fun m hm => ?_⟩
  obtain ⟨m, rfl⟩ := Nat.exists_eq_add_of_le' (Nat.le_of_add_left_le hm)
  exact hn m (Nat.le_of_add_le_add_right hm)

/-- A sequence settles if its first step does, and its second one behind every value of the first. -/
theorem Settles.bind {step : Nat → Run α} {next : Nat → α → Run β} (h : Settles step st)
    (hn : ∀ fuel a st₁, step fuel st = some (.ok a, st₁) → Settles (fun m => next m a) st₁) :
    Settles (fun m => step m >>= next m) st := by
  obtain ⟨n, ⟨s | a, st₁⟩, hstep⟩ := h
  · exact ⟨n, (.error s, st₁), fun m hm => bind_of_error (hstep m hm)⟩
  · obtain ⟨n', outcome, hnext⟩ := hn n a st₁ (hstep n (Nat.le_refl n))
    refine ⟨max n n', outcome, fun m hm => ?_⟩
    exact (bind_of_ok (hstep m (Nat.le_trans (Nat.le_max_left n n') hm))).trans
      (hnext m (Nat.le_trans (Nat.le_max_right n n') hm))

/-- Behind a step that ends in every store, only the second one matters. -/
theorem Total.bind_settles {step : Run α} {next : Nat → α → Run β} (h : Total step)
    (hn : ∀ a st₁, step st = some (.ok a, st₁) → Settles (fun m => next m a) st₁) :
    Settles (fun m => step >>= next m) st :=
  Settles.bind h.settles fun _ => hn

theorem Settles.attempt {step : Nat → Run α} (h : Settles step st) :
    Settles (fun m => Run.attempt (step m)) st := by
  obtain ⟨n, ⟨r, st₁⟩, hstep⟩ := h
  exact ⟨n, (.ok r, st₁), fun m hm => attempt_of_some (hstep m hm)⟩

theorem Settles.settleSpeculative {step : Nat → Run Value} (h : Settles step st) :
    Settles (fun m => Walk.settleSpeculative (step m)) st := by
  refine h.attempt.bind fun _ r st₁ _ => Total.settles ?_
  split
  · exact total_pure _
  · exact total_pure _
  · exact total_pure _
  · exact total_pure _
  · exact total_raise _

end Run

namespace Walk

open Run

variable {ctx : Context} {v : Value} {args : List Value}

/-! ## What takes no steps -/

theorem total_name (span : Span) (text : String) : Total (name ctx span text) := by
  intro st
  unfold name
  split
  · exact ⟨_, rfl⟩
  · split
    · exact ⟨_, rfl⟩
    · split <;> exact ⟨_, rfl⟩

theorem total_memberOf (v : Value) (text : String) : Total (memberOf v text) :=
  (total_read _).bind fun u => (total_ofValue _).bind fun m => by
    cases m with
    | data u => exact total_pure u
    | function callable => exact total_update _

theorem total_namedMember (v : Value) (right : Expr) : Total (namedMember v right) := by
  unfold namedMember
  split
  · exact total_memberOf v _
  · exact total_fail _

theorem total_member (v : Value) (left right : Expr) : Total (member ctx v left right) := by
  unfold member
  split
  · exact total_namedMember v right
  · split
    · exact (total_read _).bind fun _ => total_raise _
    · exact total_namedMember v right

theorem total_unary (op : UnaryOp) (v : Value) : Total (unary op v) := by
  cases op with
  | plus => exact total_pure v
  | negate | not | bitNot => exact (total_read _).bind fun _ => total_ofValue _

theorem total_binary (op : BinaryOp) (v w : Value) : Total (binary op v w) :=
  (total_read _).bind fun _ => (total_read _).bind fun _ => total_ofAnswer _

theorem total_assign (target v : Value) : Total (assign target v) := by
  intro st
  unfold assign
  split <;> exact ⟨_, rfl⟩

theorem total_convert (type : TypeName) (args : List Value) : Total (convert type args) := by
  cases args with
  | nil => cases type <;> exact total_fail _
  | cons v rest =>
    cases type <;>
      exact (total_read _).bind fun _ => (total_ofValue _).bind fun _ => total_pure _

theorem total_findFile (mode : Mode) (files : Option FileStore) (args : List Value) :
    Total (findFile mode files args) := by
  cases args with
  | nil => exact total_fail _
  | cons v rest =>
    refine (total_read _).bind fun w => ?_
    split
    · exact total_fail _
    · exact total_ofAnswer _
    · exact total_pure _
    · exact total_pure _
    · exact total_fail _

theorem total_holds (items : List String) (args : List Value) : Total (holds items args) :=
  (total_read _).bind fun _ => (total_ofAnswer _).bind fun _ => total_pure _

theorem total_record (args : List Value) : Total (record args) :=
  (total_modify _).bind fun _ => total_pure _

theorem total_predicate (quantifier : Quantifier) (args : List Value) :
    Total (predicate quantifier args) := by
  cases args with
  | nil => exact total_fail _
  | cons v rest => exact (total_read _).bind fun _ => total_ofValue _

theorem total_predicateAnswer (v : Value) : Total (predicateAnswer v) := by
  refine (total_read _).bind fun w => ?_
  split
  · exact total_pure _
  · exact total_fail _

theorem total_makeClosure (params : List String) (body : Code) :
    Total (makeClosure ctx params body) := total_update _

/-! ## Tasks -/

/-- The mode that a task is carried out in. -/
def Task.mode : Task → Mode
  | .expr ctx _ | .exprs ctx _ | .statement ctx _ | .statements ctx _ => ctx.mode
  | .apply mode _ _ | .quantify mode _ _ _ => mode

/-- Whether a task is a call of a function. -/
def Task.isCall : Task → Bool
  | .apply _ _ _ => true
  | _ => false

/-- Whether a task ends within some number of steps. -/
def Task.EndsIn (fuel : Nat) (st : Store) : Task → Prop
  | .expr ctx e => (Walk.expr fuel ctx e st).isSome
  | .exprs ctx es => (Walk.exprs fuel ctx es st).isSome
  | .apply mode callable args => (Walk.apply fuel mode callable args st).isSome
  | .quantify mode quantifier callable items =>
    (Walk.quantify fuel mode quantifier callable items st).isSome
  | .statement ctx s => (Walk.statement fuel ctx s st).isSome
  | .statements ctx ss => (Walk.statements fuel ctx ss st).isSome

/-- Whether a task settles. -/
def Task.Settles (st : Store) : Task → Prop
  | .expr ctx e => Run.Settles (fun fuel => Walk.expr fuel ctx e) st
  | .exprs ctx es => Run.Settles (fun fuel => Walk.exprs fuel ctx es) st
  | .apply mode callable args => Run.Settles (fun fuel => Walk.apply fuel mode callable args) st
  | .quantify mode quantifier callable items =>
    Run.Settles (fun fuel => Walk.quantify fuel mode quantifier callable items) st
  | .statement ctx s => Run.Settles (fun fuel => Walk.statement fuel ctx s) st
  | .statements ctx ss => Run.Settles (fun fuel => Walk.statements fuel ctx ss) st

@[simp] theorem Task.mode_ofCode (ctx : Context) (code : Code) :
    (Task.ofCode ctx code).mode = ctx.mode := by
  cases code <;> rfl

theorem Task.not_endsIn_zero {task : Task} {st : Store} : ¬task.EndsIn 0 st := by
  cases task <;> exact Bool.false_ne_true

theorem Task.EndsIn.mono {task : Task} {st : Store} {fuel more : Nat} (h : task.EndsIn fuel st)
    (hle : fuel ≤ more) : task.EndsIn more st := by
  have hlonger := prolonged hle
  cases task with
  | expr ctx e => exact (hlonger.expr ctx e).isSome h
  | exprs ctx es => exact (hlonger.exprs ctx es).isSome h
  | apply mode callable args => exact (hlonger.apply mode callable args).isSome h
  | quantify mode quantifier callable items =>
    exact (hlonger.quantify mode quantifier callable items).isSome h
  | statement ctx s => exact (hlonger.statement ctx s).isSome h
  | statements ctx ss => exact (hlonger.statements ctx ss).isSome h

/-- What settles ends. -/
theorem Task.Settles.endsIn {task : Task} {st : Store} (h : task.Settles st) :
    ∃ fuel, task.EndsIn fuel st := by
  cases task <;>
  · obtain ⟨fuel, outcome, hends⟩ := h
    exact ⟨fuel, Option.isSome_of_eq_some (hends fuel (Nat.le_refl fuel))⟩

theorem Task.endsIn_ofCode {ctx : Context} {body : Code} {st : Store} {fuel : Nat}
    (h : (code fuel ctx body st).isSome) : (Task.ofCode ctx body).EndsIn fuel st := by
  cases fuel with
  | zero => cases h
  | succ fuel =>
    have hends : (Task.ofCode ctx body).EndsIn fuel st := by
      cases body <;> exact h
    exact hends.mono (Nat.le_succ fuel)

theorem isSome_code_of_endsIn {ctx : Context} {body : Code} {st : Store} {fuel : Nat}
    (h : (Task.ofCode ctx body).EndsIn fuel st) : (code (fuel + 1) ctx body st).isSome := by
  cases body <;> exact h

theorem isSome_settleSpeculative {step : Run Value} {st : Store} :
    (settleSpeculative step st).isSome ↔ (step st).isSome := by
  unfold settleSpeculative
  rw [isSome_bind, isSome_attempt, and_iff_left_iff_imp]
  rintro - (s | v) st₁ -
  · cases s <;> rfl
  · rfl

theorem Task.Settles.code {ctx : Context} {body : Code} {st : Store}
    (h : (Task.ofCode ctx body).Settles st) : Run.Settles (fun fuel => Walk.code fuel ctx body) st := by
  cases body with
  | expression e => exact Settles.succ h
  | statement s => exact Settles.succ h

/-! ## Fewer steps -/

section

variable {start next stop : Task × Store} {fuel : Nat}

/-- The parts of a speculative task are carried out speculatively. -/
theorem Leads.speculative (h : Leads start next) (hmode : start.1.mode ≠ .real) :
    next.1.mode ≠ .real := by
  cases h with
  | body hclosure henter hshadow =>
    -- the body runs in the mode of the function, which no frame changes
    cases henter
    cases hshadow
    simpa using hclosure
  | _ => exact hmode

private theorem endsIn_optional {ctx : Context} {e : Expr} {st : Store}
    (h : (optional fuel ctx (some e) st).isSome) : (Task.expr ctx e).EndsIn fuel st := by
  cases fuel with
  | zero => cases h
  | succ fuel =>
    have hends : (Task.expr ctx e).EndsIn fuel st := h
    exact hends.mono (Nat.le_succ fuel)

private theorem endsIn_truth {ctx : Context} {e : Expr} {st : Store}
    (h : (truth fuel ctx e st).isSome) : (Task.expr ctx e).EndsIn fuel st := by
  cases fuel with
  | zero => cases h
  | succ fuel =>
    have hends : (Task.expr ctx e).EndsIn fuel st := (isSome_bind.1 h).1
    exact hends.mono (Nat.le_succ fuel)

private theorem endsIn_call {mode : Mode} {callee : Value} {args : List Value} {st : Store}
    {id : Nat} {callable : Callable} (hcallee : st.snapshot callee = .function id callable)
    (h : (call fuel mode callee args st).isSome) :
    (Task.apply mode callable args).EndsIn fuel st := by
  cases fuel with
  | zero => cases h
  | succ fuel =>
    have hrest := (isSome_bind.1 h).2 (st.snapshot callee) st rfl
    rw [hcallee] at hrest
    have hends : (Task.apply mode callable args).EndsIn fuel st := hrest
    exact hends.mono (Nat.le_succ fuel)

private theorem loop_of_isSome {ctx : Context} {condition : Option Expr}
    {iterator : Option Statement} {body : Statement} {st : Store} (hmode : ctx.mode ≠ .real)
    (h : (loop fuel ctx condition iterator body st).isSome) :
    (statement fuel ctx body st).isSome := by
  unfold loop at h
  cases hctx : ctx.mode with
  | real => exact absurd hctx hmode
  | speculative cursor =>
    rw [hctx] at h
    cases fuel with
    | zero => cases h
    | succ fuel =>
      have hbody := isSome_attempt.1 (isSome_bind.1 h).1
      exact ((prolonged (Nat.le_succ fuel)).statement ctx body).isSome hbody

/-- A part of a task takes fewer steps than the task. -/
theorem Leads.endsIn (h : Leads start next) (hmode : start.1.mode ≠ .real)
    (hstart : start.1.EndsIn (fuel + 1) start.2) : next.1.EndsIn fuel next.2 := by
  cases h with
  -- the first part of a task comes first among its steps
  | operand | condition | left | first | item | target | initializer | firstStatement =>
    exact (isSome_bind.1 hstart).1
  | expression | block => exact hstart
  | test => exact endsIn_truth (isSome_bind.1 hstart).1
  | declared | returned => exact endsIn_optional (isSome_bind.1 hstart).1
  -- another part comes behind what is known to have ended
  | @choice _ _ _ _ _ _ _ _ _ chosen hc hchosen =>
    have hrest := lasting_expr.isSome_next hc hstart
    have hrest := (isSome_bind.1 hrest).2 _ _ rfl
    have hrest := (isSome_bind.1 hrest).2 chosen _ (by rw [hchosen]; rfl)
    cases chosen <;> exact hrest
  | @right _ _ _ op _ _ _ _ _ hmember hcall hl =>
    have hrest := lasting_expr.isSome_next hl hstart
    cases op with
    | member => exact absurd rfl hmember
    | call => exact absurd rfl hcall
    | group => exact hrest
    | _ => exact (isSome_bind.1 hrest).1
  | arguments he | others he | value he =>
    exact (isSome_bind.1 (lasting_expr.isSome_next he hstart)).1
  | callee hl hargs hcallee =>
    have hrest := lasting_expr.isSome_next hl hstart
    exact endsIn_call hcallee (lasting_exprs.isSome_next hargs hrest)
  | predicate hpredicate => exact (isSome_bind.1 hstart).2 _ _ hpredicate
  | @body cursor closure _ _ _ _ _ _ hclosure henter hshadow =>
    simp only [Task.EndsIn, apply] at hstart
    cases hcontext : closure.context.mode with
    | real => exact absurd hcontext hclosure
    | speculative cursor' =>
      rw [hcontext] at hstart
      have hrest := (isSome_bind.1 hstart).2 _ _ henter
      have hrest := (isSome_bind.1 hrest).2 _ _ hshadow
      exact Task.endsIn_ofCode (isSome_attempt.1 (isSome_bind.1 hrest).1)
  | otherItems happly hanswer hdecisive =>
    have hrest := lasting_apply.isSome_next happly hstart
    have hrest := (isSome_bind.1 hrest).2 _ _ hanswer
    rwa [if_neg (by simpa using hdecisive)] at hrest
  | whenTrue ht | whenFalse ht =>
    exact (isSome_bind.1 (lasting_truth.isSome_next ht hstart)).1
  | otherStatements hs => exact lasting_statement.isSome_next hs hstart
  -- a loop runs its body once, behind the initializer
  | forBody hs => exact loop_of_isSome hmode (lasting_statement.isSome_next hs hstart)
  | bareForBody | whileBody => exact loop_of_isSome hmode hstart

/-! ## Parts that end -/

/-- Whether every part that a walk comes to from a task settles. -/
def PartsSettle (start : Task × Store) : Prop := ∀ next, Leads start next → next.1.Settles next.2

variable {st : Store}

private theorem settles_expr {e : Expr} (h : PartsSettle (.expr ctx e, st)) :
    Run.Settles (fun fuel => expr fuel ctx e) st := by
  refine Settles.succ ?_
  cases e with
  | placeholder span =>
    simp only [expr]
    cases ctx.mode with
    | real => exact (total_fail _).settles
    | speculative => exact (total_pure _).settles
  | name span text => exact (total_name span text).settles
  | typeName | number | boolean | string | null => exact (total_pure _).settles
  | lambda _ params body => exact (total_makeClosure params (.expression body)).settles
  | function _ params body => exact (total_makeClosure params (.statement body)).settles
  | unary _ op operand => exact (h _ .operand).bind fun _ v _ _ => (total_unary op v).settles
  | ternary _ condition whenTrue whenFalse =>
    refine (h _ .condition).bind fun _ v st₁ hcondition => ?_
    refine (total_read _).bind_settles fun c st₂ hread => ?_
    refine (total_ofValue _).bind_settles fun chosen st₃ hchosen => ?_
    cases hread
    obtain ⟨hchosen, rfl⟩ := of_ofValue_eq_ok hchosen
    have hchoice := h _ (.choice hcondition hchosen)
    cases chosen <;> exact hchoice
  | binary _ op left right =>
    refine (h _ .left).bind fun _ l st₁ hleft => ?_
    cases op with
    | member => exact (total_member l left right).settles
    | call =>
      -- of what can be called, only a function has parts that run
      refine (h _ (.arguments hleft)).bind fun _ args st₂ hargs => Settles.succ ?_
      refine (total_read _).bind_settles fun callee st₃ hread => ?_
      cases hread
      split
      · next hcallee => exact h _ (.callee hleft hargs hcallee)
      · exact (total_convert _ _).settles
      · exact (total_findFile _ _ _).settles
      · exact (total_fail _).settles
    | group => exact h _ (.right (by simp) (by simp) hleft)
    | _ =>
      exact (h _ (.right (by simp) (by simp) hleft)).bind fun _ r _ _ =>
        (total_binary _ l r).settles

private theorem settles_exprs {es : List Expr} (h : PartsSettle (.exprs ctx es, st)) :
    Run.Settles (fun fuel => exprs fuel ctx es) st := by
  refine Settles.succ ?_
  cases es with
  | nil => exact (total_pure _).settles
  | cons e rest =>
    refine (h _ .first).bind fun _ v st₁ he => ?_
    exact (h _ (.others he)).bind fun _ _ _ _ => (total_pure _).settles

private theorem settles_apply {mode : Mode} (hmode : mode ≠ .real) {callable : Callable}
    (h : PartsSettle (.apply mode callable args, st)) :
    Run.Settles (fun fuel => apply fuel mode callable args) st := by
  refine Settles.succ ?_
  cases callable with
  | text receiver function => exact ((total_read _).bind fun _ => total_ofAnswer _).settles
  | holds items => exact (total_holds items args).settles
  | recorder => exact (total_record args).settles
  | quantifier quantifier items =>
    exact (total_predicate quantifier args).bind_settles fun _ _ hpredicate =>
      h _ (.predicate hpredicate)
  | closure closure =>
    simp only [apply]
    split
    · exact (total_fail _).settles
    · exact (total_fail _).settles
    · exact absurd rfl hmode
    · next hclosure =>
      refine (total_update _).bind_settles fun ctx st₁ henter => ?_
      refine (total_update _).bind_settles fun ctx' st₂ hshadow => ?_
      exact (h _ (.body (by simp [hclosure]) henter hshadow)).code.settleSpeculative

private theorem settles_quantify {mode : Mode} {quantifier : Quantifier} {callable : Callable}
    {items : List Value} (h : PartsSettle (.quantify mode quantifier callable items, st)) :
    Run.Settles (fun fuel => quantify fuel mode quantifier callable items) st := by
  refine Settles.succ ?_
  cases items with
  | nil => exact (total_pure _).settles
  | cons item rest =>
    refine (h _ .item).bind fun _ v st₁ happly => ?_
    refine (total_predicateAnswer v).bind_settles fun answer st₂ hanswer => ?_
    by_cases hdecisive : answer = quantifier.decisive
    · simp only [if_pos (beq_iff_eq.2 hdecisive)]
      exact (total_pure _).settles
    · simp only [if_neg (mt beq_iff_eq.1 hdecisive)]
      exact h _ (.otherItems happly hanswer hdecisive)

private theorem settles_optional {e? : Option Expr}
    (h : ∀ e, e? = some e → Run.Settles (fun fuel => expr fuel ctx e) st) :
    Run.Settles (fun fuel => optional fuel ctx e?) st := by
  refine Settles.succ ?_
  cases e? with
  | none => exact (total_pure _).settles
  | some e => exact h e rfl

private theorem settles_truth {e : Expr} (h : Run.Settles (fun fuel => expr fuel ctx e) st) :
    Run.Settles (fun fuel => truth fuel ctx e) st :=
  Settles.succ <| h.bind fun _ _ _ _ => ((total_read _).bind fun _ => total_ofValue _).settles

/-- A speculative run goes through the body of a loop once. -/
private theorem settles_loop (hmode : ctx.mode ≠ .real) {condition : Option Expr}
    {iterator : Option Statement} {body : Statement}
    (h : Run.Settles (fun fuel => statement fuel ctx body) st) :
    Run.Settles (fun fuel => loop fuel ctx condition iterator body) st := by
  unfold loop
  cases hctx : ctx.mode with
  | real => exact absurd hctx hmode
  | speculative cursor =>
    refine Settles.succ (h.attempt.bind fun _ r st₁ _ => Total.settles ?_)
    split
    · exact total_pure _
    · exact total_pure _
    · exact total_pure _
    · exact total_raise _

private theorem settles_statement (hmode : ctx.mode ≠ .real) {s : Statement}
    (h : PartsSettle (.statement ctx s, st)) :
    Run.Settles (fun fuel => statement fuel ctx s) st := by
  refine Settles.succ ?_
  cases s with
  | expression _ e => exact h _ .expression
  | assign _ op target value =>
    refine (h _ .target).bind fun _ t st₁ htarget => ?_
    -- once both sides have values, the rest of the assignment takes no step
    refine (h _ (.value htarget)).bind fun _ v st₂ _ => Total.settles ?_
    cases op.binaryOp? with
    | none => exact (total_assign t v).bind fun _ => total_pure _
    | some op =>
      exact (total_binary op t v).bind fun u => (total_assign t u).bind fun _ => total_pure _
  | declare _ name initializer =>
    refine (settles_optional ?_).bind fun _ _ _ _ =>
      ((total_modify _).bind fun _ => total_pure _).settles
    rintro e rfl
    exact h _ .declared
  | leave _ value =>
    refine (settles_optional ?_).bind fun _ _ _ _ =>
      ((total_read _).bind fun _ => total_raise _).settles
    rintro e rfl
    exact h _ .returned
  | breakLoop | continueLoop => exact (total_raise _).settles
  | empty => exact (total_pure _).settles
  | block _ body => exact h _ .block
  | branch _ condition whenTrue whenFalse =>
    -- only the branch that is taken has to settle
    refine (settles_truth (h _ .test)).bind fun _ b st₁ htruth => ?_
    cases b with
    | true => exact (h _ (.whenTrue htruth)).bind fun _ _ _ _ => (total_pure _).settles
    | false =>
      cases whenFalse with
      | none => exact (total_pure _).settles
      | some s => exact (h _ (.whenFalse htruth)).bind fun _ _ _ _ => (total_pure _).settles
  | forLoop _ initializer condition iterator body =>
    cases initializer with
    | none => exact settles_loop hmode (h _ .bareForBody)
    | some s =>
      refine (h _ .initializer).bind fun _ v st₁ hs => ?_
      exact settles_loop hmode (h _ (.forBody hs))
  | whileLoop _ condition body => exact settles_loop hmode (h _ .whileBody)

private theorem settles_statements {ss : List Statement}
    (h : PartsSettle (.statements ctx ss, st)) :
    Run.Settles (fun fuel => statements fuel ctx ss) st := by
  refine Settles.succ ?_
  cases ss with
  | nil => exact (total_pure _).settles
  | cons s rest =>
    refine (h _ .firstStatement).bind fun _ v st₁ hs => ?_
    exact h _ (.otherStatements hs)

/-- A speculative task ends if every part that a walk comes to from it does. -/
theorem settles_of_leads (hmode : start.1.mode ≠ .real) (h : PartsSettle start) :
    start.1.Settles start.2 := by
  obtain ⟨task, st⟩ := start
  cases task with
  | expr ctx e => exact settles_expr h
  | exprs ctx es => exact settles_exprs h
  | apply mode callable args => exact settles_apply hmode h
  | quantify mode quantifier callable items => exact settles_quantify h
  | statement ctx s => exact settles_statement hmode h
  | statements ctx ss => exact settles_statements h

/-! ## Calls inside of calls -/

/-- How many calls a walk enters on the way from a task to a part of it. -/
inductive Nests : Nat → Task × Store → Task × Store → Prop
  | here {start : Task × Store} : Nests 0 start start
  | part {depth : Nat} {start next stop : Task × Store} : start.1.isCall = false → Leads start next →
      Nests depth next stop → Nests depth start stop
  | call {depth : Nat} {start next stop : Task × Store} : start.1.isCall = true → Leads start next →
      Nests depth next stop → Nests (depth + 1) start stop

/-- Whether a walk is never inside of more calls than so many. -/
def NestsWithin (depth : Nat) (start : Task × Store) : Prop :=
  ∀ ⦃entered stop⦄, Nests entered start stop → entered ≤ depth

/-- A walk is inside of no more calls than it takes steps. -/
theorem nestsWithin_of_endsIn (hmode : start.1.mode ≠ .real)
    (h : start.1.EndsIn fuel start.2) : NestsWithin fuel start := by
  intro entered stop hnests
  induction hnests generalizing fuel with
  | here => exact Nat.zero_le fuel
  | part _ hleads _ ih =>
    cases fuel with
    | zero => exact absurd h Task.not_endsIn_zero
    | succ fuel =>
      exact Nat.le_succ_of_le (ih (hleads.speculative hmode) (hleads.endsIn hmode h))
  | call _ hleads _ ih =>
    cases fuel with
    | zero => exact absurd h Task.not_endsIn_zero
    | succ fuel => exact Nat.succ_le_succ (ih (hleads.speculative hmode) (hleads.endsIn hmode h))

/-- The size of what is left of a task, but for the calls in it. Lists count one more than the nodes in
them, and nodes count twice, so that a list is larger than its only item and smaller than its
block. -/
def Task.size : Task → Nat
  | .expr _ e => 2 * e.nodes.length
  | .exprs _ es => 2 * (es.flatMap Expr.nodes).length + 1
  | .apply _ _ _ => 0
  | .quantify _ _ _ items => items.length + 1
  | .statement _ s => 2 * s.nodes.length
  | .statements _ ss => 2 * (Statement.listNodes ss).length + 1

theorem length_flatMap_parts_le (e : Expr) :
    (e.parts.flatMap Expr.nodes).length ≤ e.nodes.length := by
  induction e using Expr.parts.induct with
  | case1 _ left right ihl ihr =>
    simp only [Expr.parts, List.flatMap_append, List.length_append, Expr.nodes, List.length_cons]
    omega
  | case2 e hgroup =>
    have hparts : e.parts = [e] := by
      unfold Expr.parts
      split
      · next h => exact (hgroup _ _ _ rfl).elim
      · rfl
    simp [hparts]

theorem length_flatMap_arguments_le (e : Expr) :
    (e.arguments.flatMap Expr.nodes).length ≤ e.nodes.length := by
  unfold Expr.arguments
  split
  · exact Nat.zero_le _
  · exact length_flatMap_parts_le e

/-- Inside a call, a walk comes to smaller and smaller parts. -/
theorem Leads.size_lt (h : Leads start next) (hcall : start.1.isCall = false) :
    next.1.size < start.1.size := by
  cases h with
  | predicate | body => cases hcall
  | @arguments _ _ _ l r =>
    have hparts := length_flatMap_arguments_le r
    simp only [Task.size, Expr.nodes, List.length_cons, List.length_append]
    omega
  | @choice _ _ _ _ _ _ _ _ _ chosen =>
    simp only [Task.size, Expr.nodes, List.length_cons, List.length_append]
    split <;> omega
  | @others _ _ e =>
    have hnodes : 0 < e.nodes.length := by
      unfold Expr.nodes
      exact Nat.succ_pos _
    simp only [Task.size, List.flatMap_cons, List.length_append]
    omega
  | @otherStatements _ _ s =>
    have hnodes : 0 < s.nodes.length := by
      unfold Statement.nodes
      exact Nat.succ_pos _
    simp only [Task.size, Statement.listNodes, List.length_append]
    omega
  | operand | condition | left | right | callee | first | item | otherItems =>
    simp only [Task.size, Expr.nodes, List.flatMap_cons, List.length_cons, List.length_append]
    omega
  | _ =>
    simp only [Task.size, Statement.nodes, Statement.listNodes, Statement.optionNodes,
      Expr.optionNodes, List.length_cons, List.length_append]
    omega

theorem NestsWithin.part {depth : Nat} (h : NestsWithin depth start)
    (hcall : start.1.isCall = false) (hleads : Leads start next) : NestsWithin depth next :=
  fun _ _ hnests => h (.part hcall hleads hnests)

/-- Inside of a call, one call less may be entered. -/
theorem NestsWithin.call {depth : Nat} (h : NestsWithin depth start)
    (hcall : start.1.isCall = true) (hleads : Leads start next) :
    ∃ less, depth = less + 1 ∧ NestsWithin less next := by
  cases depth with
  | zero => exact absurd (h (.call hcall hleads .here)) (Nat.not_succ_le_zero 0)
  | succ less =>
    exact ⟨less, rfl, fun _ _ hnests => Nat.le_of_succ_le_succ (h (.call hcall hleads hnests))⟩

theorem NestsWithin.mono {depth more : Nat} (h : NestsWithin depth start) (hle : depth ≤ more) :
    NestsWithin more start :=
  fun _ _ hnests => Nat.le_trans (h hnests) hle

theorem NestsWithin.of_parts {depth : Nat} (hcall : start.1.isCall = false)
    (h : ∀ next, Leads start next → NestsWithin depth next) : NestsWithin depth start := by
  rintro _ _ (_ | ⟨_, hleads, hnests⟩ | ⟨hcall', _, _⟩)
  · exact Nat.zero_le depth
  · exact h _ hleads hnests
  · exact absurd (hcall.symm.trans hcall') Bool.false_ne_true

theorem NestsWithin.of_call {depth : Nat}
    (h : ∀ next, Leads start next → NestsWithin depth next) : NestsWithin (depth + 1) start := by
  rintro _ _ (_ | ⟨_, hleads, hnests⟩ | ⟨_, hleads, hnests⟩)
  · exact Nat.zero_le _
  · exact Nat.le_succ_of_le (h _ hleads hnests)
  · exact Nat.succ_le_succ (h _ hleads hnests)

/-- A walk whose calls nest within a bound ends: the bound gets smaller with each call, and what is
left of the program inside the call with each other step. -/
theorem settles_of_nestsWithin {start : Task × Store} {depth : Nat} (hmode : start.1.mode ≠ .real)
    (h : NestsWithin depth start) : start.1.Settles start.2 := by
  refine settles_of_leads hmode fun next hleads => ?_
  have hnext := hleads.speculative hmode
  cases hcall : start.1.isCall with
  | true =>
    -- the body of a function may be larger than the call, but one call less may be entered in it
    obtain ⟨less, rfl, hless⟩ := h.call hcall hleads
    exact settles_of_nestsWithin hnext hless
  | false =>
    have hsize := hleads.size_lt hcall
    exact settles_of_nestsWithin hnext (h.part hcall hleads)
termination_by (depth, start.1.size)

/-- A speculative task ends exactly if the calls in it nest within a bound. -/
theorem exists_endsIn_iff (hmode : start.1.mode ≠ .real) :
    (∃ fuel, start.1.EndsIn fuel start.2) ↔ ∃ depth, NestsWithin depth start := by
  constructor
  · rintro ⟨fuel, h⟩
    exact ⟨fuel, nestsWithin_of_endsIn hmode h⟩
  · rintro ⟨depth, h⟩
    exact (settles_of_nestsWithin hmode h).endsIn

end

end Walk

end SearchScript
