import Mathlib.Logic.Relation
import SearchScript.Proofs.Run.Loops
import SearchScript.Proofs.Run.Visible

/-!
# Where a speculative run stops

A speculative run that finds completions stops at one expression: at a name that it cannot look up,
or at a member access whose left operand has its value. `Walk.Leads` says how a walk comes from a
task to a part of it, with the store that it has by then; the place where the run stops is reached
by such steps, in the environment and the store that are active there.

## Key definitions

- `Walk.Leads`: a walk that is busy with a task comes to a part of it
- `Walk.Offers`: the completions that are found at an expression
- `Walk.Stops`: a walk comes to an expression where completions are found

## Key results

- `Walk.stops_of_code`: a walk that ends with completions comes to where they are found
- `Walk.Leads.kept`: on the way there, stable invariants are kept
-/

namespace SearchScript

/-- Whether a signal offers no completions. -/
def Signal.OffersNothing (s : Signal) : Prop := ∀ found, s ≠ .suggest found

theorem Signal.offersNothing_fail (e : RunError) : Signal.OffersNothing (.fail e) := by
  rintro found ⟨⟩

namespace Walk

/-- What a walk is busy with. -/
inductive Task where
  | expr (ctx : Context) (e : Expr)
  | exprs (ctx : Context) (es : List Expr)
  | apply (mode : Mode) (callable : Callable) (args : List Value)
  | quantify (mode : Mode) (quantifier : Quantifier) (callable : Callable) (items : List Value)
  | statement (ctx : Context) (s : Statement)
  | statements (ctx : Context) (ss : List Statement)

/-- The task of running an expression or a statement. -/
def Task.ofCode (ctx : Context) : Code → Task
  | .expression e => .expr ctx e
  | .statement s => .statement ctx s

/-- A speculative walk that is busy with a task in one store comes to a part of it in another: what
stands in front of that part was run in between. -/
inductive Leads : Task × Store → Task × Store → Prop
  -- expressions
  | operand {ctx span op operand st} :
      Leads (.expr ctx (.unary span op operand), st) (.expr ctx operand, st)
  | condition {ctx span c a b st} :
      Leads (.expr ctx (.ternary span c a b), st) (.expr ctx c, st)
  | choice {n ctx span c a b st v st₁ chosen} :
      expr n ctx c st = some (.ok v, st₁) → (st₁.snapshot v).requireBoolean = .ok chosen →
      Leads (.expr ctx (.ternary span c a b), st) (.expr ctx (if chosen then a else b), st₁)
  | left {ctx span op l r st} :
      Leads (.expr ctx (.binary span op l r), st) (.expr ctx l, st)
  | right {n ctx span op l r st v st₁} :
      op ≠ .member → op ≠ .call → expr n ctx l st = some (.ok v, st₁) →
      Leads (.expr ctx (.binary span op l r), st) (.expr ctx r, st₁)
  | arguments {n ctx span l r st v st₁} :
      expr n ctx l st = some (.ok v, st₁) →
      Leads (.expr ctx (.binary span .call l r), st) (.exprs ctx r.arguments, st₁)
  | callee {n m ctx span l r st v st₁ args st₂ id callable} :
      expr n ctx l st = some (.ok v, st₁) → exprs m ctx r.arguments st₁ = some (.ok args, st₂) →
      st₂.snapshot v = .function id callable →
      Leads (.expr ctx (.binary span .call l r), st) (.apply ctx.mode callable args, st₂)
  | first {ctx e rest st} : Leads (.exprs ctx (e :: rest), st) (.expr ctx e, st)
  | others {n ctx e rest st v st₁} : expr n ctx e st = some (.ok v, st₁) →
      Leads (.exprs ctx (e :: rest), st) (.exprs ctx rest, st₁)
  -- functions
  | predicate {mode quantifier items args st callable st₁} :
      Walk.predicate quantifier args st = some (.ok callable, st₁) →
      Leads (.apply mode (.quantifier quantifier items) args, st)
        (.quantify mode quantifier callable items, st₁)
  | body {cursor closure args st ctx st₁ ctx' st₂} :
      closure.context.mode ≠ .real → enter closure args st = some (.ok ctx, st₁) →
      behindShadow ctx st₁ = some (.ok ctx', st₂) →
      Leads (.apply (.speculative cursor) (.closure closure) args, st)
        (.ofCode ctx' closure.body, st₂)
  | item {mode quantifier callable item rest st} :
      Leads (.quantify mode quantifier callable (item :: rest), st)
        (.apply mode callable [item], st)
  | otherItems {n mode quantifier callable item rest st v st₁ answer st₂} :
      apply n mode callable [item] st = some (.ok v, st₁) →
      predicateAnswer v st₁ = some (.ok answer, st₂) → answer ≠ quantifier.decisive →
      Leads (.quantify mode quantifier callable (item :: rest), st)
        (.quantify mode quantifier callable rest, st₂)
  -- statements
  | expression {ctx span e st} : Leads (.statement ctx (.expression span e), st) (.expr ctx e, st)
  | target {ctx span op target value st} :
      Leads (.statement ctx (.assign span op target value), st) (.expr ctx target, st)
  | value {n ctx span op target value st v st₁} : expr n ctx target st = some (.ok v, st₁) →
      Leads (.statement ctx (.assign span op target value), st) (.expr ctx value, st₁)
  | declared {ctx span name e st} :
      Leads (.statement ctx (.declare span name (some e)), st) (.expr ctx e, st)
  | returned {ctx span e st} :
      Leads (.statement ctx (.leave span (some e)), st) (.expr ctx e, st)
  | block {ctx span body st} :
      Leads (.statement ctx (.block span body), st) (.statements ctx body, st)
  | test {ctx span c s s? st} : Leads (.statement ctx (.branch span c s s?), st) (.expr ctx c, st)
  | whenTrue {n ctx span c s s? st st₁} : truth n ctx c st = some (.ok true, st₁) →
      Leads (.statement ctx (.branch span c s s?), st) (.statement ctx s, st₁)
  | whenFalse {n ctx span c s s' st st₁} : truth n ctx c st = some (.ok false, st₁) →
      Leads (.statement ctx (.branch span c s (some s')), st) (.statement ctx s', st₁)
  | initializer {ctx span s c i body st} :
      Leads (.statement ctx (.forLoop span (some s) c i body), st) (.statement ctx s, st)
  | forBody {n ctx span s c i body st v st₁} : statement n ctx s st = some (.ok v, st₁) →
      Leads (.statement ctx (.forLoop span (some s) c i body), st) (.statement ctx body, st₁)
  | bareForBody {ctx span c i body st} :
      Leads (.statement ctx (.forLoop span none c i body), st) (.statement ctx body, st)
  | whileBody {ctx span c body st} :
      Leads (.statement ctx (.whileLoop span c body), st) (.statement ctx body, st)
  | firstStatement {ctx s rest st} :
      Leads (.statements ctx (s :: rest), st) (.statement ctx s, st)
  | otherStatements {n ctx s rest st v st₁} : statement n ctx s st = some (.ok v, st₁) →
      Leads (.statements ctx (s :: rest), st) (.statements ctx rest, st₁)

/-- The completions that are found at an expression: at a name that cannot be looked up, or at a
member access whose left operand has its value. -/
inductive Offers : Task × Store → Suggestions → Prop
  | name {ctx cursor span typed st} :
      ctx.mode = .speculative cursor → span.touches cursor = true →
      st.resolve? ctx.env typed = none →
      Offers (.expr ctx (.name span typed), st)
        ⟨rankChoices typed (st.visibleNames ctx.env), span⟩
  | member {n ctx cursor span left right v st st₁} :
      ctx.mode = .speculative cursor → expr n ctx left st = some (.ok v, st₁) →
      left.span.stop ≤ cursor → cursor ≤ right.span.stop →
      Offers (.expr ctx (.binary span .member left right), st)
        ⟨offeredMembers (st₁.snapshot v) right, right.span⟩

/-- Whether a walk comes to an expression where these completions are found. -/
def Stops (start : Task × Store) (found : Suggestions) : Prop :=
  ∃ stop, Relation.ReflTransGen Leads start stop ∧ Offers stop found

variable {start next : Task × Store} {found : Suggestions} {I : Store → Prop}

theorem Stops.head (h : Stops next found) (hleads : Leads start next) : Stops start found := by
  obtain ⟨stop, hreaches, hoffers⟩ := h
  exact ⟨stop, .head hleads hreaches, hoffers⟩

theorem Offers.stops (h : Offers start found) : Stops start found := ⟨start, .refl, h⟩

/-- On the way from a task to a part of it, stable invariants are kept. -/
theorem Leads.kept (hI : Store.Stable I) (h : Leads start next) (hstart : I start.2) :
    I next.2 := by
  have hkept := Walk.kept hI
  have hfails : ∀ e : RunError, True := fun _ => trivial
  cases h with
  | choice he => exact ((hkept _).expr _ _).store hstart he
  | right _ _ he => exact ((hkept _).expr _ _).store hstart he
  | arguments he => exact ((hkept _).expr _ _).store hstart he
  | callee he hes => exact ((hkept _).exprs _ _).store (((hkept _).expr _ _).store hstart he) hes
  | others he => exact ((hkept _).expr _ _).store hstart he
  | predicate hp => exact Run.Kept.store (kept_predicate hfails) hstart hp
  | body _ henter hshadow =>
    exact Run.Kept.store (kept_behindShadow hI) (Run.Kept.store (kept_enter hI) hstart henter)
      hshadow
  | otherItems ha hp =>
    exact Run.Kept.store (kept_predicateAnswer hfails) (((hkept _).apply _ _ _).store hstart ha) hp
  | value he => exact ((hkept _).expr _ _).store hstart he
  | whenTrue ht => exact ((hkept _).truth _ _).store hstart ht
  | whenFalse ht => exact ((hkept _).truth _ _).store hstart ht
  | forBody hs => exact ((hkept _).statement _ _).store hstart hs
  | otherStatements hs => exact ((hkept _).statement _ _).store hstart hs
  | _ => exact hstart

/-- Wherever a walk comes, stable invariants are kept. -/
theorem kept_of_reaches (hI : Store.Stable I) (h : Relation.ReflTransGen Leads start next)
    (hstart : I start.2) : I next.2 := by
  induction h with
  | refl => exact hstart
  | tail _ hleads ih => exact hleads.kept hI ih

/-! ## Coming to the stop -/

/-- A step that offers nothing does not end with completions. -/
theorem absurd_of_kept {α : Type} {step : Run α} {st st' : Store}
    (h : Run.Kept (fun _ => True) Signal.OffersNothing step)
    (heq : step st = some (.error (.suggest found), st')) : False :=
  (h trivial heq).2 found rfl

/-- Whether all that runs speculatively with this fuel and ends with completions comes to where they
are found. -/
structure Traced (fuel : Nat) : Prop where
  expr : ∀ {ctx e st found st'}, ctx.mode ≠ .real →
    Walk.expr fuel ctx e st = some (.error (.suggest found), st') → Stops (.expr ctx e, st) found
  exprs : ∀ {ctx es st found st'}, ctx.mode ≠ .real →
    Walk.exprs fuel ctx es st = some (.error (.suggest found), st') →
    Stops (.exprs ctx es, st) found
  call : ∀ {mode callee args st found st'}, mode ≠ .real →
    Walk.call fuel mode callee args st = some (.error (.suggest found), st') →
    ∃ id callable, st.snapshot callee = .function id callable ∧
      Stops (.apply mode callable args, st) found
  apply : ∀ {mode callable args st found st'}, mode ≠ .real →
    Walk.apply fuel mode callable args st = some (.error (.suggest found), st') →
    Stops (.apply mode callable args, st) found
  quantify : ∀ {mode quantifier callable items st found st'}, mode ≠ .real →
    Walk.quantify fuel mode quantifier callable items st = some (.error (.suggest found), st') →
    Stops (.quantify mode quantifier callable items, st) found
  code : ∀ {ctx code st found st'}, ctx.mode ≠ .real →
    Walk.code fuel ctx code st = some (.error (.suggest found), st') →
    Stops (.ofCode ctx code, st) found
  statement : ∀ {ctx s st found st'}, ctx.mode ≠ .real →
    Walk.statement fuel ctx s st = some (.error (.suggest found), st') →
    Stops (.statement ctx s, st) found
  optional : ∀ {ctx e? st found st'}, ctx.mode ≠ .real →
    Walk.optional fuel ctx e? st = some (.error (.suggest found), st') →
    ∃ e, e? = some e ∧ Stops (.expr ctx e, st) found
  truth : ∀ {ctx e st found st'}, ctx.mode ≠ .real →
    Walk.truth fuel ctx e st = some (.error (.suggest found), st') → Stops (.expr ctx e, st) found
  statements : ∀ {ctx ss st found st'}, ctx.mode ≠ .real →
    Walk.statements fuel ctx ss st = some (.error (.suggest found), st') →
    Stops (.statements ctx ss, st) found
  oneRound : ∀ {ctx body st found st'}, ctx.mode ≠ .real →
    Walk.oneRound fuel ctx body st = some (.error (.suggest found), st') →
    Stops (.statement ctx body, st) found

theorem offers_of_name {ctx : Context} {span : Span} {text : String} {st st' : Store}
    (h : name ctx span text st = some (.error (.suggest found), st')) :
    Offers (.expr ctx (.name span text), st) found := by
  unfold name at h
  split at h
  · cases h
  · next hres =>
    split at h
    · cases h
    · next cursor hmode =>
      split at h <;> cases h
      next htouches => exact .name hmode htouches hres

theorem offers_of_member {n : Nat} {ctx : Context} {span : Span} {left right : Expr} {v : Value}
    {st st₁ st' : Store} (hleft : expr n ctx left st = some (.ok v, st₁))
    (h : member ctx v left right st₁ = some (.error (.suggest found), st')) :
    Offers (.expr ctx (.binary span .member left right), st) found := by
  have hnamed : Run.Kept (fun _ => True) Signal.OffersNothing (namedMember v right) :=
    kept_namedMember Signal.offersNothing_fail fun _ _ _ => trivial
  cases hmode : ctx.mode with
  | real =>
    simp only [member, hmode] at h
    exact (absurd_of_kept hnamed h).elim
  | speculative cursor =>
    simp only [member, hmode] at h
    by_cases hcursor : left.span.stop ≤ cursor ∧ cursor ≤ right.span.stop
    · rw [if_pos hcursor] at h
      cases h
      exact .member hmode hleft hcursor.1 hcursor.2
    · rw [if_neg hcursor] at h
      exact (absurd_of_kept hnamed h).elim

/-- A function that is called speculatively ends with completions if its body does. -/
theorem code_of_settleSpeculative {step : Run Value} {st st' : Store}
    (h : settleSpeculative step st = some (.error (.suggest found), st')) :
    step st = some (.error (.suggest found), st') := by
  rcases Run.of_bind_eq_error h with h | ⟨r, st₁, hattempt, h⟩
  · obtain ⟨r, hr, -⟩ := Run.attempt_eq_some h
    cases hr
  · obtain ⟨r', ⟨⟩, hstep⟩ := Run.attempt_eq_some hattempt
    cases r with
    | ok v => cases h
    | error s =>
      cases s <;> cases h
      exact hstep

section

variable {fuel : Nat} (ih : Traced fuel) {ctx : Context} {mode : Mode} {st st' : Store}
include ih

private theorem stops_of_expr (hctx : ctx.mode ≠ .real) {e : Expr}
    (h : expr (fuel + 1) ctx e st = some (.error (.suggest found), st')) :
    Stops (.expr ctx e, st) found := by
  cases e with
  | placeholder =>
    simp only [expr] at h
    cases hmode : ctx.mode <;> rw [hmode] at h <;> cases h
  | name span text => exact (offers_of_name h).stops
  | typeName | number | boolean | string | null => cases h
  | lambda | function => cases h
  | unary _ op operand =>
    rcases Run.of_bind_eq_error h with h | ⟨v, st₁, -, h⟩
    · exact (ih.expr hctx h).head .operand
    · exact (absurd_of_kept (kept_unary Signal.offersNothing_fail) h).elim
  | ternary _ condition whenTrue whenFalse =>
    rcases Run.of_bind_eq_error h with h | ⟨v, st₁, hcondition, h⟩
    · exact (ih.expr hctx h).head .condition
    · rcases Run.of_bind_eq_error h with h | ⟨c, _, ⟨⟩, h⟩
      · cases h
      rcases Run.of_bind_eq_error h with h | ⟨chosen, st₂, hchosen, h⟩
      · exact (absurd_of_kept (Run.kept_ofValue Signal.offersNothing_fail) h).elim
      · obtain ⟨hchosen, rfl⟩ := Run.of_ofValue_eq_ok hchosen
        cases chosen with
        | true => exact (ih.expr hctx h).head (.choice hcondition hchosen)
        | false => exact (ih.expr hctx h).head (.choice hcondition hchosen)
  | binary _ op left right =>
    rcases Run.of_bind_eq_error h with h | ⟨v, st₁, hleft, h⟩
    · exact (ih.expr hctx h).head .left
    -- a member may offer completions itself, a call may run into them, any other operator only
    -- finds them in its operands
    · cases op with
      | member => exact (offers_of_member hleft h).stops
      | call =>
        rcases Run.of_bind_eq_error h with h | ⟨args, st₂, hargs, h⟩
        · exact (ih.exprs hctx h).head (.arguments hleft)
        · obtain ⟨id, callable, hcallee, hstops⟩ := ih.call hctx h
          exact hstops.head (.callee hleft hargs hcallee)
      | group => exact (ih.expr hctx h).head (.right (by simp) (by simp) hleft)
      | _ =>
        rcases Run.of_bind_eq_error h with h | ⟨w, st₂, -, h⟩
        · exact (ih.expr hctx h).head (.right (by simp) (by simp) hleft)
        · exact (absurd_of_kept (kept_binary Signal.offersNothing_fail) h).elim

private theorem stops_of_apply (hmode : mode ≠ .real) {callable : Callable} {args : List Value}
    (h : apply (fuel + 1) mode callable args st = some (.error (.suggest found), st')) :
    Stops (.apply mode callable args, st) found := by
  cases callable with
  | text receiver function =>
    have hkept : Run.Kept (fun _ => True) Signal.OffersNothing
        (apply (fuel + 1) mode (.text receiver function) args) :=
      Run.kept_read.bind fun _ => Run.kept_ofAnswer Signal.offersNothing_fail
    exact (absurd_of_kept hkept h).elim
  | holds items => exact (absurd_of_kept (kept_holds Signal.offersNothing_fail) h).elim
  | quantifier quantifier items =>
    rcases Run.of_bind_eq_error h with h | ⟨callable, st₁, hpredicate, h⟩
    · exact (absurd_of_kept (kept_predicate Signal.offersNothing_fail) h).elim
    · exact (ih.quantify hmode h).head (.predicate hpredicate)
  | closure closure =>
    cases hclosure : closure.context.mode with
    | real =>
      cases mode with
      | real => exact absurd rfl hmode
      | speculative cursor =>
        simp only [apply, hclosure] at h
        cases h
    | speculative cursor' =>
      cases mode with
      | real => exact absurd rfl hmode
      | speculative cursor =>
        simp only [apply, hclosure] at h
        rcases Run.of_bind_eq_error h with h | ⟨ctx, st₁, henter, h⟩
        · cases h
        rcases Run.of_bind_eq_error h with h | ⟨ctx', st₂, hshadow, h⟩
        · cases h
        -- the body runs in the mode of the function, which no frame changes
        have hctx' : ctx'.mode ≠ .real := by
          cases henter
          cases hshadow
          simp [hclosure]
        have hbody := code_of_settleSpeculative h
        exact (ih.code hctx' hbody).head (.body (by simp [hclosure]) henter hshadow)
  | recorder =>
    exact (absurd_of_kept (kept_record fun _ _ _ => trivial) h).elim

private theorem stops_of_quantify (hmode : mode ≠ .real) {quantifier : Quantifier}
    {callable : Callable} {items : List Value}
    (h : quantify (fuel + 1) mode quantifier callable items st =
      some (.error (.suggest found), st')) :
    Stops (.quantify mode quantifier callable items, st) found := by
  cases items with
  | nil => cases h
  | cons item rest =>
    rcases Run.of_bind_eq_error h with h | ⟨v, st₁, happly, h⟩
    · exact (ih.apply hmode h).head .item
    rcases Run.of_bind_eq_error h with h | ⟨answer, st₂, hanswer, h⟩
    · exact (absurd_of_kept (kept_predicateAnswer Signal.offersNothing_fail) h).elim
    · by_cases hdecisive : answer = quantifier.decisive
      · rw [if_pos (by simpa using hdecisive)] at h
        cases h
      · rw [if_neg (by simpa using hdecisive)] at h
        exact (ih.quantify hmode h).head (.otherItems happly hanswer hdecisive)

private theorem body_of_loop (hctx : ctx.mode ≠ .real) {condition : Option Expr}
    {iterator : Option Statement} {body : Statement}
    (h : loop fuel ctx condition iterator body st = some (.error (.suggest found), st')) :
    Stops (.statement ctx body, st) found := by
  unfold loop at h
  -- a speculative run goes through the body once
  cases hmode : ctx.mode with
  | real => exact absurd hmode hctx
  | speculative cursor =>
    rw [hmode] at h
    exact ih.oneRound hctx h

private theorem stops_of_statement (hctx : ctx.mode ≠ .real) {s : Statement}
    (h : statement (fuel + 1) ctx s st = some (.error (.suggest found), st')) :
    Stops (.statement ctx s, st) found := by
  cases s with
  | expression _ e => exact (ih.expr hctx h).head .expression
  | assign _ op target value =>
    rcases Run.of_bind_eq_error h with h | ⟨t, st₁, htarget, h⟩
    · exact (ih.expr hctx h).head .target
    rcases Run.of_bind_eq_error h with h | ⟨v, st₂, hvalue, h⟩
    · exact (ih.expr hctx h).head (.value htarget)
    -- an assignment offers nothing itself, with or without an operator
    · have hassign : ∀ w, Run.Kept (fun _ => True) Signal.OffersNothing (assign t w) := fun _ =>
        kept_assign Store.stable_true Signal.offersNothing_fail
      refine (absurd_of_kept ?_ h).elim
      dsimp only
      split
      · exact (kept_binary Signal.offersNothing_fail).bind fun w => (hassign w).bind fun _ =>
          Run.kept_pure
      · exact (hassign v).bind fun _ => Run.kept_pure
  | declare _ name initializer =>
    rcases Run.of_bind_eq_error h with h | ⟨v, st₁, -, h⟩
    · obtain ⟨e, rfl, hstops⟩ := ih.optional hctx h
      exact hstops.head .declared
    · cases h
  | leave _ value =>
    rcases Run.of_bind_eq_error h with h | ⟨v, st₁, -, h⟩
    · obtain ⟨e, rfl, hstops⟩ := ih.optional hctx h
      exact hstops.head .returned
    · cases h
  | breakLoop | continueLoop => cases h
  | block _ body => exact (ih.statements hctx h).head .block
  | branch _ condition whenTrue whenFalse =>
    rcases Run.of_bind_eq_error h with h | ⟨b, st₁, htruth, h⟩
    · exact (ih.truth hctx h).head .test
    cases b with
    | true =>
      rcases Run.of_bind_eq_error h with h | ⟨v, st₂, -, h⟩
      · exact (ih.statement hctx h).head (.whenTrue htruth)
      · cases h
    | false =>
      cases whenFalse with
      | none => cases h
      | some s =>
        rcases Run.of_bind_eq_error h with h | ⟨v, st₂, -, h⟩
        · exact (ih.statement hctx h).head (.whenFalse htruth)
        · cases h
  | forLoop _ initializer condition iterator body =>
    cases initializer with
    | none => exact (body_of_loop ih hctx h).head .bareForBody
    | some s =>
      rcases Run.of_bind_eq_error h with h | ⟨v, st₁, hs, h⟩
      · exact (ih.statement hctx h).head .initializer
      · exact (body_of_loop ih hctx h).head (.forBody hs)
  | whileLoop _ condition body => exact (body_of_loop ih hctx h).head .whileBody
  | empty => cases h

private theorem stops_of_oneRound (hctx : ctx.mode ≠ .real) {body : Statement}
    (h : oneRound (fuel + 1) ctx body st = some (.error (.suggest found), st')) :
    Stops (.statement ctx body, st) found := by
  rcases Run.of_bind_eq_error h with h | ⟨r, st₁, hattempt, h⟩
  · obtain ⟨r, hr, -⟩ := Run.attempt_eq_some h
    cases hr
  · obtain ⟨_, ⟨⟩, hstep⟩ := Run.attempt_eq_some hattempt
    cases r with
    | ok v => cases h
    | error s =>
      cases s <;> cases h
      exact ih.statement hctx hstep

end

/-- A speculative walk that ends with completions comes to where they are found. -/
theorem traced : ∀ fuel, Traced fuel := by
  intro fuel
  induction fuel with
  | zero =>
    constructor
    all_goals
      intros
      contradiction
  | succ fuel ih =>
    constructor
    case expr => exact fun hctx h => stops_of_expr ih hctx h
    case exprs =>
      intro ctx es st found st' hctx h
      cases es with
      | nil => cases h
      | cons e rest =>
        rcases Run.of_bind_eq_error h with h | ⟨v, st₁, he, h⟩
        · exact (ih.expr hctx h).head .first
        rcases Run.of_bind_eq_error h with h | ⟨vs, st₂, -, h⟩
        · exact (ih.exprs hctx h).head (.others he)
        · cases h
    case call =>
      intro mode callee args st found st' hmode h
      rcases Run.of_bind_eq_error h with h | ⟨v, st₁, hread, h⟩
      · cases h
      -- reading the callee leaves the store, and only a function is run
      have hcallee : st.snapshot callee = v ∧ st = st₁ := by
        cases hread
        exact ⟨rfl, rfl⟩
      obtain ⟨hcallee, rfl⟩ := hcallee
      cases v with
      | function id callable => exact ⟨id, callable, hcallee, ih.apply hmode h⟩
      | constructor =>
        exact (absurd_of_kept (kept_convert Signal.offersNothing_fail) h).elim
      | fileConstructor =>
        exact (absurd_of_kept (kept_findFile Signal.offersNothing_fail) h).elim
      | _ => cases h
    case apply => exact fun hmode h => stops_of_apply ih hmode h
    case quantify => exact fun hmode h => stops_of_quantify ih hmode h
    case code =>
      intro ctx code st found st' hctx h
      cases code with
      | expression e => exact ih.expr hctx h
      | statement s => exact ih.statement hctx h
    case statement => exact fun hctx h => stops_of_statement ih hctx h
    case optional =>
      intro ctx e? st found st' hctx h
      cases e? with
      | none => cases h
      | some e => exact ⟨e, rfl, ih.expr hctx h⟩
    case truth =>
      intro ctx e st found st' hctx h
      rcases Run.of_bind_eq_error h with h | ⟨v, st₁, -, h⟩
      · exact ih.expr hctx h
      rcases Run.of_bind_eq_error h with h | ⟨u, _, ⟨⟩, h⟩
      · cases h
      · exact (absurd_of_kept (Run.kept_ofValue Signal.offersNothing_fail) h).elim
    case statements =>
      intro ctx ss st found st' hctx h
      cases ss with
      | nil => cases h
      | cons s rest =>
        rcases Run.of_bind_eq_error h with h | ⟨v, st₁, hs, h⟩
        · exact (ih.statement hctx h).head .firstStatement
        · exact (ih.statements hctx h).head (.otherStatements hs)
    case oneRound => exact fun hctx h => stops_of_oneRound ih hctx h

end Walk

end SearchScript
