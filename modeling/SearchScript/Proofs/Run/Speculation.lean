import Mathlib.Data.List.Forall2
import SearchScript.Proofs.Parse.Shape
import SearchScript.Proofs.Run.Mirror
import SearchScript.Proofs.Syntax.Nodes

/-!
# A speculative run does what the real run does

Where a program has no loops and makes no functions, the speculative mode differs from the real one
only in the copies that its shadow makes. So the two runs go step by step through stores that mirror
each other, up to an assignment to what is no cell: there the real run fails, but the speculative
one may assign to a copy.

## Key results

- `Walk.follows`: each part of a program is followed step by step
- `Code.speculate_follows`: a whole speculative run behind its shadow follows the real run
-/

namespace SearchScript

/-- Whether a real step and a speculative step are left for the same reason. -/
def Signal.Alike : Signal → Signal → Prop
  | .leave v, .leave w => v = w ∧ v.IsClosed
  | .breakLoop, .breakLoop => True
  | .continueLoop, .continueLoop => True
  | .fail e, .fail e' => e = e'
  | _, _ => False

/-- Whether a step fails because it assigned to what is no cell. -/
def Signal.IsMisassignment (s : Signal) : Prop :=
  ∃ type, s = .fail (.value (.invalidOperation type .assign))

/-- The errors of a real run that a speculative run need not have: a jump out of the program, and
an assignment to what is no cell. -/
def RunError.isRealOnly : RunError → Bool
  | .breakOutsideLoop | .continueOutsideLoop => true
  | .value (.invalidOperation _ .assign) => true
  | _ => false

namespace Run

variable {α β γ δ : Type}

/-- Whether a real step and a speculative step end in the same way. -/
def Alike (Q : α → β → Prop) : Except Signal α → Except Signal β → Prop
  | .ok a, .ok b => Q a b
  | .error s, .error s' => s.Alike s'
  | _, _ => False

/-- Whether a step ends with an assignment to what is no cell. -/
def Misassigned : Except Signal α → Prop
  | .ok _ => False
  | .error s => s.IsMisassignment

/-- Whether a speculative step follows a real one: from mirroring stores, the mirror being no
shorter than `W`, it ends in the same way and in mirroring stores. -/
def Follows (st₀ : Store) (host : Nat) (W : List Value) (Q : List Value → α → β → Prop)
    (real : Run α) (speculative : Run β) : Prop :=
  ∀ ⦃W₁ σ τ⦄, W <+: W₁ → Mirror st₀ host W₁ σ τ → ∀ ⦃r σ'⦄, real σ = some (r, σ') →
    Misassigned r ∨ ∃ r' τ' W', speculative τ = some (r', τ') ∧ W₁ <+: W' ∧
      Mirror st₀ host W' σ' τ' ∧ Alike (Q W') r r'

variable {st₀ : Store} {host : Nat} {W : List Value}

theorem Follows.bind {P : List Value → α → β → Prop} {Q : List Value → γ → δ → Prop}
    {x : Run α} {y : Run β} {f : α → Run γ} {g : β → Run δ} (h : Follows st₀ host W P x y)
    (hn : ∀ W', W <+: W' → ∀ a b, P W' a b → Follows st₀ host W' Q (f a) (g b)) :
    Follows st₀ host W Q (x >>= f) (y >>= g) := by
  intro W₁ σ τ hW hm r σ' hrun
  change Run.bind x f σ = _ at hrun
  unfold Run.bind at hrun
  split at hrun
  · cases hrun
  -- both first steps end with values, and the second steps go on from there
  · next a σ₁ hx =>
    rcases h hW hm hx with hbad | ⟨r', τ₁, W', hy, hW', hm', halike⟩
    · exact hbad.elim
    · cases r' with
      | error s => cases halike
      | ok b =>
        rcases hn W' (hW.trans hW') a b halike (List.prefix_refl W') hm' hrun with
          hbad | ⟨r'', τ₂, W'', hg, hW'', hm'', halike'⟩
        · exact .inl hbad
        · refine .inr ⟨r'', τ₂, W'', ?_, hW'.trans hW'', hm'', halike'⟩
          change Run.bind y g τ = _
          unfold Run.bind
          rw [hy]
          exact hg
  -- both first steps end with signals
  · next s σ₁ hx =>
    cases hrun
    rcases h hW hm hx with hbad | ⟨r', τ₁, W', hy, hW', hm', halike⟩
    · exact .inl hbad
    · cases r' with
      | ok b => cases halike
      | error s' =>
        refine .inr ⟨.error s', τ₁, W', ?_, hW', hm', halike⟩
        change Run.bind y g τ = _
        unfold Run.bind
        rw [hy]

theorem follows_pure {Q : List Value → α → β → Prop} {a : α} {b : β}
    (h : ∀ W', W <+: W' → Q W' a b) :
    Follows st₀ host W Q (Pure.pure a : Run α) (Pure.pure b : Run β) := by
  rintro W₁ σ τ hW hm r σ' ⟨⟩
  exact .inr ⟨_, _, W₁, rfl, List.prefix_refl W₁, hm, h W₁ hW⟩

theorem follows_cutOff {Q : List Value → α → β → Prop} {y : Run β} :
    Follows st₀ host W Q cutOff y := by
  rintro W₁ σ τ hW hm r σ' ⟨⟩

theorem follows_raise {Q : List Value → α → β → Prop} {s s' : Signal} (h : s.Alike s') :
    Follows st₀ host W Q (raise s : Run α) (raise s' : Run β) := by
  rintro W₁ σ τ hW hm r σ' ⟨⟩
  exact .inr ⟨_, _, W₁, rfl, List.prefix_refl W₁, hm, h⟩

theorem follows_fail {Q : List Value → α → β → Prop} {e : RunError} :
    Follows st₀ host W Q (fail e : Run α) (fail e : Run β) :=
  follows_raise rfl

theorem follows_ofAnswer {Q : List Value → α → α → Prop} {x : Except RunError α}
    (h : ∀ a, x = .ok a → ∀ W', Q W' a a) : Follows st₀ host W Q (ofAnswer x) (ofAnswer x) := by
  cases x with
  | ok a => exact follows_pure fun W' _ => h a rfl W'
  | error e => exact follows_fail

theorem follows_ofValue {Q : List Value → α → α → Prop} {x : Except ValueError α}
    (h : ∀ a, x = .ok a → ∀ W', Q W' a a) : Follows st₀ host W Q (ofValue x) (ofValue x) := by
  cases x with
  | ok a => exact follows_pure fun W' _ => h a rfl W'
  | error e => exact follows_fail

/-- Reading gives the same value, which leads nowhere. -/
theorem follows_snapshot {v w : Value} (h : Mirror.Image st₀ W v w) :
    Follows st₀ host W (fun _ v w => v = w ∧ v.IsClosed) (snapshot v) (snapshot w) := by
  rintro W₁ σ τ hW hm r σ' ⟨⟩
  obtain ⟨hsame, hclosed⟩ := hm.snapshot (h.mono hW)
  exact .inr ⟨_, _, W₁, rfl, List.prefix_refl W₁, hm, hsame.symm, hclosed⟩

end Run

namespace Walk

open Run Mirror

variable {st₀ : Store} {host run cursor : Nat} {W : List Value} {v w : Value}

/-- The context of a real run that has opened one frame. -/
def realContext (st₀ : Store) (host run : Nat) : Context :=
  ⟨.real, run, ⟨[⟨.scope, st₀.tables.size⟩], host⟩⟩

/-- The context of a speculative run that has opened one frame. -/
def shadowContext (st₀ : Store) (host run cursor : Nat) : Context :=
  ⟨.speculative cursor, run, ⟨[⟨.shadow, st₀.tables.size⟩], host⟩⟩

theorem follows_name (hdata : st₀.HoldsData host) (honce : st₀.BindsOnce host) {span : Span}
    {text : String} (hname : text ≠ "File") (hspan : span.stop < cursor) :
    Follows st₀ host W (Image st₀) (name (realContext st₀ host run) span text)
      (name (shadowContext st₀ host run cursor) span text) := by
  intro W₁ σ τ hW hm r σ' hrun
  have htouch : span.touches cursor = false := by
    simp only [Span.touches, Bool.and_eq_false_iff, decide_eq_false_iff_not]
    omega
  rcases hm.resolve hdata honce hname with ⟨v, w, τ', W', hσ, hτ, hW', hm', himage⟩ | ⟨hσ, hτ⟩
  · simp only [name, realContext, hσ] at hrun
    cases hrun
    exact .inr ⟨.ok w, τ', W', by simp only [name, shadowContext, hτ], hW', hm', himage⟩
  · simp only [name, realContext, hσ] at hrun
    cases hrun
    refine .inr ⟨.error (.fail (.noSuchValue text)), τ, W₁, ?_, List.prefix_refl W₁, hm, rfl⟩
    simp only [name, shadowContext, hτ, htouch]
    rfl

theorem follows_newFunction {callable : Callable} (h : callable.Within .none) :
    Follows st₀ host W (Image st₀) (Run.update (·.newFunction callable))
      (Run.update (·.newFunction callable)) := by
  rintro W₁ σ τ hW hm r σ' ⟨⟩
  refine .inr ⟨_, _, W₁, rfl, List.prefix_refl W₁,
    { hm with functions := congrArg (· + 1) hm.functions }, ?_⟩
  change Image st₀ W₁ (.function σ.functions callable) (.function τ.functions callable)
  rw [hm.functions]
  exact .of_closed h

theorem follows_memberOf (hv : Image st₀ W v w) {text : String} :
    Follows st₀ host W (Image st₀) (memberOf v text) (memberOf w text) := by
  refine (follows_snapshot hv).bind fun W' _ u u' hu => ?_
  obtain ⟨rfl, hclosed⟩ := hu
  refine Follows.bind (P := fun _ m m' => m = m' ∧ m.Within .none)
    (follows_ofValue fun m hm _ => ⟨rfl, ?_⟩) fun W'' _ m m' hm => ?_
  · unfold Value.memberOf at hm
    split at hm <;> cases hm
    next hfound => exact Value.within_of_member? hclosed hfound
  · obtain ⟨rfl, hm⟩ := hm
    cases m with
    | data u => exact follows_pure fun _ _ => .of_closed hm
    | function callable => exact follows_newFunction hm

theorem follows_member {left right : Expr} (hright : right.span.stop < cursor)
    (hv : Image st₀ W v w) :
    Follows st₀ host W (Image st₀) (member (realContext st₀ host run) v left right)
      (member (shadowContext st₀ host run cursor) w left right) := by
  have hout : ¬(left.span.stop ≤ cursor ∧ cursor ≤ right.span.stop) := by omega
  simp only [member, realContext, shadowContext, hout, if_false]
  unfold namedMember
  split
  · exact follows_memberOf hv
  · exact follows_fail

/-- An operation that reads its operand first follows itself. -/
theorem follows_withSnapshot {α : Type} {Q : List Value → α → α → Prop} {f : Value → Run α}
    (hv : Image st₀ W v w) (h : ∀ W' u, u.IsClosed → Follows st₀ host W' Q (f u) (f u)) :
    Follows st₀ host W Q (Run.snapshot v >>= f) (Run.snapshot w >>= f) := by
  refine (follows_snapshot hv).bind fun W' _ u u' hu => ?_
  obtain ⟨rfl, hclosed⟩ := hu
  exact h W' u hclosed

theorem follows_unary (hv : Image st₀ W v w) {op : UnaryOp} :
    Follows st₀ host W (Image st₀) (unary op v) (unary op w) := by
  cases op with
  | plus => exact follows_pure fun _ hW => hv.mono hW
  | negate =>
    refine follows_withSnapshot hv fun W' u _ => follows_ofValue fun x hx _ => .of_closed ?_
    cases u <;> cases hx <;> trivial
  | not =>
    refine follows_withSnapshot hv fun W' u _ => follows_ofValue fun x hx _ => .of_closed ?_
    cases u <;> cases hx <;> trivial
  | bitNot =>
    refine follows_withSnapshot hv fun W' u _ => follows_ofValue fun x hx _ => .of_closed ?_
    cases u <;> cases hx <;> trivial

theorem follows_binary {u u' : Value} (hv : Image st₀ W v w) (hu : Image st₀ W u u')
    {op : BinaryOp} : Follows st₀ host W (Image st₀) (binary op v u) (binary op w u') := by
  refine (follows_snapshot hv).bind fun W' hW l l' hl => ?_
  obtain ⟨rfl, hclosed⟩ := hl
  refine follows_withSnapshot (hu.mono hW) fun W'' r _ => follows_ofAnswer fun x hx _ => ?_
  exact .of_closed (Value.within_of_binary hclosed hx)

/-- An assignment to a cell is followed; one to anything else fails. -/
theorem follows_assign {u u' : Value} (ht : Image st₀ W v w) (hu : Image st₀ W u u') :
    Follows st₀ host W (fun _ _ _ => True) (assign v u) (assign w u') := by
  intro W₁ σ τ hW hm r σ' hrun
  cases v with
  | cell slot =>
    obtain ⟨τ', hτ, hm'⟩ := hm.assign (ht.mono hW) (hu.mono hW)
    cases hrun
    exact .inr ⟨.ok (), τ', W₁, by simp only [assign, hτ], List.prefix_refl W₁, hm', trivial⟩
  | _ =>
    cases hrun
    exact .inl ⟨_, rfl⟩

theorem follows_declare (hdata : st₀.HoldsData host) (hv : Image st₀ W v w)
    {name : String} :
    Follows st₀ host W (fun _ _ _ => True)
      (Run.modify fun st =>
        let (cell, st) := st.newCell v
        st.bind (realContext st₀ host run).env name cell)
      (Run.modify fun st =>
        let (cell, st) := st.newCell w
        st.bind (shadowContext st₀ host run cursor).env name cell) := by
  rintro W₁ σ τ hW hm r σ' ⟨⟩
  exact .inr ⟨_, _, _, rfl, List.prefix_append W₁ _, hm.declare hdata (hv.mono hW), trivial⟩

/-! ## Calls -/

/-- Whether the arguments of two calls are images, one by one. -/
def Images (st₀ : Store) (W : List Value) (vs ws : List Value) : Prop :=
  List.Forall₂ (Image st₀ W) vs ws

theorem follows_convert {type : TypeName} {vs ws : List Value} (h : Images st₀ W vs ws) :
    Follows st₀ host W (Image st₀) (convert type vs) (convert type ws) := by
  cases h with
  | nil => cases type <;> exact follows_fail
  | cons hv _ =>
    cases type <;>
      refine follows_withSnapshot hv fun W' u _ => ?_ <;>
      refine Follows.bind (P := fun _ a b => a = b) (follows_ofValue fun _ _ _ => rfl)
        fun W'' _ a b hab => ?_ <;>
      cases hab <;>
      exact follows_pure fun _ _ => .of_closed trivial

theorem follows_snapshots {vs ws : List Value} (h : Images st₀ W vs ws) :
    Follows st₀ host W (fun _ us us' => us = us') (Run.read fun st => vs.map st.snapshot)
      (Run.read fun st => ws.map st.snapshot) := by
  rintro W₁ σ τ hW hm r σ' ⟨⟩
  refine .inr ⟨_, _, W₁, rfl, List.prefix_refl W₁, hm, ?_⟩
  induction h with
  | nil => rfl
  | cons hv _ ih => exact congrArg₂ List.cons (hm.snapshot (hv.mono hW)).1.symm ih

theorem follows_holds {items : List String} {vs ws : List Value} (h : Images st₀ W vs ws) :
    Follows st₀ host W (Image st₀) (holds items vs) (holds items ws) := by
  refine (follows_snapshots h).bind fun W' _ us us' hus => ?_
  cases hus
  refine Follows.bind (P := fun _ a b => a = b) (follows_ofAnswer fun _ _ _ => rfl)
    fun W'' _ a b hab => ?_
  cases hab
  exact follows_pure fun _ _ => .of_closed trivial

theorem follows_record {vs ws : List Value} (h : Images st₀ W vs ws) :
    Follows st₀ host W (Image st₀) (record vs) (record ws) := by
  refine Follows.bind (P := fun _ _ _ => True) ?_ fun W' hW _ _ _ => follows_pure fun W'' hW' => ?_
  · rintro W₁ σ τ hW hm r σ' ⟨⟩
    exact .inr ⟨_, _, W₁, rfl, List.prefix_refl W₁, { hm with }, trivial⟩
  · cases h with
    | nil => exact .of_closed trivial
    | cons hv _ => exact hv.mono (hW.trans hW')

theorem follows_predicate {quantifier : Quantifier} {vs ws : List Value}
    (h : Images st₀ W vs ws) :
    Follows st₀ host W (fun _ f g => f = g ∧ f.Within .none) (predicate quantifier vs)
      (predicate quantifier ws) := by
  cases h with
  | nil => exact follows_fail
  | cons hv _ =>
    refine follows_withSnapshot hv fun W' u hu => follows_ofValue fun f hf _ => ⟨rfl, ?_⟩
    cases u <;> cases hf
    exact hu

theorem follows_predicateAnswer (hv : Image st₀ W v w) :
    Follows st₀ host W (fun _ a b => a = b) (predicateAnswer v) (predicateAnswer w) := by
  refine follows_withSnapshot hv fun W' u _ => ?_
  split
  · exact follows_pure fun _ _ => rfl
  · exact follows_fail

/-! ## Programs -/

/-- Whether the parts of a program are straight, end in front of the cursor and are all there. -/
def Ready (cursor : Nat) (nodes : List Code) : Prop :=
  ∀ node ∈ nodes, node.isStraight = true ∧ node.isPlaceholder = false ∧ node.span.stop < cursor

theorem ready_append {as bs : List Code} :
    Ready cursor (as ++ bs) ↔ Ready cursor as ∧ Ready cursor bs :=
  List.forall_mem_append

theorem ready_cons {node : Code} {nodes : List Code} :
    Ready cursor (node :: nodes) ↔
      (node.isStraight = true ∧ node.isPlaceholder = false ∧ node.span.stop < cursor) ∧
        Ready cursor nodes :=
  List.forall_mem_cons

/-- Whether everything that runs for real with this fuel is followed by the speculative run. -/
structure Followed (st₀ : Store) (host run cursor fuel : Nat) : Prop where
  expr : ∀ W e, Ready cursor e.nodes →
    Follows st₀ host W (Image st₀) (Walk.expr fuel (realContext st₀ host run) e)
      (Walk.expr fuel (shadowContext st₀ host run cursor) e)
  exprs : ∀ W es, (∀ e ∈ es, Ready cursor e.nodes) →
    Follows st₀ host W (Images st₀) (Walk.exprs fuel (realContext st₀ host run) es)
      (Walk.exprs fuel (shadowContext st₀ host run cursor) es)
  call : ∀ W v w vs ws, Image st₀ W v w → Images st₀ W vs ws →
    Follows st₀ host W (Image st₀) (Walk.call fuel .real v vs)
      (Walk.call fuel (.speculative cursor) w ws)
  apply : ∀ W callable vs ws, callable.Within .none → Images st₀ W vs ws →
    Follows st₀ host W (Image st₀) (Walk.apply fuel .real callable vs)
      (Walk.apply fuel (.speculative cursor) callable ws)
  quantify : ∀ W quantifier callable items, callable.Within .none → Value.allData items = true →
    Follows st₀ host W (Image st₀) (Walk.quantify fuel .real quantifier callable items)
      (Walk.quantify fuel (.speculative cursor) quantifier callable items)
  code : ∀ W code, Ready cursor code.nodes →
    Follows st₀ host W (Image st₀) (Walk.code fuel (realContext st₀ host run) code)
      (Walk.code fuel (shadowContext st₀ host run cursor) code)
  statement : ∀ W s, Ready cursor s.nodes →
    Follows st₀ host W (Image st₀) (Walk.statement fuel (realContext st₀ host run) s)
      (Walk.statement fuel (shadowContext st₀ host run cursor) s)
  optional : ∀ W e?, Ready cursor (Expr.optionNodes e?) →
    Follows st₀ host W (Image st₀) (Walk.optional fuel (realContext st₀ host run) e?)
      (Walk.optional fuel (shadowContext st₀ host run cursor) e?)
  truth : ∀ W e, Ready cursor e.nodes →
    Follows st₀ host W (fun _ a b => a = b) (Walk.truth fuel (realContext st₀ host run) e)
      (Walk.truth fuel (shadowContext st₀ host run cursor) e)
  statements : ∀ W ss, Ready cursor (Statement.listNodes ss) →
    Follows st₀ host W (Image st₀) (Walk.statements fuel (realContext st₀ host run) ss)
      (Walk.statements fuel (shadowContext st₀ host run cursor) ss)

section

variable {fuel : Nat} (ih : Followed st₀ host run cursor fuel)
include ih

private theorem follows_expr (hdata : st₀.HoldsData host) (honce : st₀.BindsOnce host) {e : Expr}
    (he : Ready cursor e.nodes) :
    Follows st₀ host W (Image st₀) (expr (fuel + 1) (realContext st₀ host run) e)
      (expr (fuel + 1) (shadowContext st₀ host run cursor) e) := by
  have hnode := he (.expression e) (by unfold Expr.nodes; simp)
  cases e with
  -- what is ready has all its parts, and makes no functions
  | placeholder => simp [Code.isPlaceholder] at hnode
  | lambda | function => simp [Code.isStraight] at hnode
  | name span text =>
    exact follows_name hdata honce (by simpa [Code.isStraight] using hnode.1) hnode.2.2
  | typeName | number | boolean | string | null =>
    exact follows_pure fun _ _ => .of_closed trivial
  | unary _ op operand =>
    simp only [Expr.nodes, ready_cons] at he
    exact (ih.expr W operand he.2).bind fun W' _ v w hv => follows_unary hv
  | ternary _ condition whenTrue whenFalse =>
    simp only [Expr.nodes, ready_cons, ready_append] at he
    refine (ih.expr W condition he.2.1).bind fun W₁ _ v w hv =>
      (follows_snapshot hv).bind fun W₂ _ u u' hu => ?_
    -- both runs read the same value, so they choose the same branch
    obtain ⟨rfl, -⟩ := hu
    refine Follows.bind (P := fun _ a b => a = b) (follows_ofValue fun _ _ _ => rfl)
      fun W₃ _ a b hab => ?_
    subst hab
    cases a
    · exact ih.expr W₃ whenFalse he.2.2.2
    · exact ih.expr W₃ whenTrue he.2.2.1
  | binary _ op left right =>
    simp only [Expr.nodes, ready_cons, ready_append] at he
    have hright := (he.2.2 (.expression right) (by unfold Expr.nodes; simp)).2.2
    refine (ih.expr W left he.2.1).bind fun W₁ _ l l' hl => ?_
    -- a member access, a call, a group, or an operator of two values
    split
    · exact follows_member hright hl
    · refine (ih.exprs W₁ right.arguments fun arg harg node hnode =>
        he.2.2 node (nodes_subset_of_mem_arguments harg hnode)).bind fun W₂ hW vs ws hargs => ?_
      exact ih.call W₂ l l' vs ws (hl.mono hW) hargs
    · exact ih.expr W₁ right he.2.2
    · exact (ih.expr W₁ right he.2.2).bind fun W₂ hW r r' hr => follows_binary (hl.mono hW) hr

private theorem follows_exprs {es : List Expr} (hes : ∀ e ∈ es, Ready cursor e.nodes) :
    Follows st₀ host W (Images st₀) (exprs (fuel + 1) (realContext st₀ host run) es)
      (exprs (fuel + 1) (shadowContext st₀ host run cursor) es) := by
  cases es with
  | nil => exact follows_pure fun _ _ => .nil
  | cons e rest =>
    obtain ⟨he, hrest⟩ := List.forall_mem_cons.1 hes
    refine (ih.expr W e he).bind fun W₁ _ v w hv =>
      (ih.exprs W₁ rest hrest).bind fun W₂ hW vs ws hvs => follows_pure fun W₃ hW' => ?_
    exact .cons (hv.mono (hW.trans hW')) (hvs.imp fun _ _ h => h.mono hW')

private theorem follows_call {vs ws : List Value} (hv : Image st₀ W v w)
    (hargs : Images st₀ W vs ws) :
    Follows st₀ host W (Image st₀) (call (fuel + 1) .real v vs)
      (call (fuel + 1) (.speculative cursor) w ws) := by
  refine (follows_snapshot hv).bind fun W' hW u u' hu => ?_
  obtain ⟨rfl, hclosed⟩ := hu
  have hargs' : Images st₀ W' vs ws := hargs.imp fun _ _ h => h.mono hW
  cases u with
  | function id callable => exact ih.apply W' callable vs ws hclosed hargs'
  | constructor type => exact follows_convert hargs'
  | fileConstructor files => exact hclosed.elim
  | _ => exact follows_fail

private theorem follows_apply {callable : Callable} {vs ws : List Value}
    (hcallable : callable.Within .none) (hargs : Images st₀ W vs ws) :
    Follows st₀ host W (Image st₀) (apply (fuel + 1) .real callable vs)
      (apply (fuel + 1) (.speculative cursor) callable ws) := by
  cases callable with
  | text receiver function =>
    refine (follows_snapshots hargs).bind fun W' _ us us' hus => ?_
    subst hus
    refine follows_ofAnswer fun x hx _ => .of_closed ?_
    exact Value.within_of_isData (Value.isData_of_textFunction hx)
  | holds items => exact follows_holds hargs
  | quantifier quantifier items =>
    refine (follows_predicate hargs).bind fun W' _ f g hf => ?_
    obtain ⟨rfl, hf⟩ := hf
    exact ih.quantify W' quantifier f items hf hcallable
  | closure closure => exact hcallable.1.elim
  | recorder => exact follows_record hargs

private theorem follows_quantify {quantifier : Quantifier} {callable : Callable}
    {items : List Value} (hcallable : callable.Within .none)
    (hitems : Value.allData items = true) :
    Follows st₀ host W (Image st₀) (quantify (fuel + 1) .real quantifier callable items)
      (quantify (fuel + 1) (.speculative cursor) quantifier callable items) := by
  cases items with
  | nil => exact follows_pure fun _ _ => .of_closed trivial
  | cons item rest =>
    simp only [Value.allData, Bool.and_eq_true] at hitems
    obtain ⟨hitem, hrest⟩ := hitems
    have himage : Image st₀ W item item := .of_closed (Value.within_of_isData hitem)
    refine (ih.apply W callable [item] [item] hcallable (.cons himage .nil)).bind
      fun W₁ _ v w hv => (follows_predicateAnswer hv).bind fun W₂ _ a b hab => ?_
    subst hab
    split
    · exact follows_pure fun _ _ => .of_closed trivial
    · exact ih.quantify W₂ quantifier callable rest hcallable hrest

private theorem follows_statement (hdata : st₀.HoldsData host) {s : Statement}
    (hs : Ready cursor s.nodes) :
    Follows st₀ host W (Image st₀) (statement (fuel + 1) (realContext st₀ host run) s)
      (statement (fuel + 1) (shadowContext st₀ host run cursor) s) := by
  have hnode := hs (.statement s) (by unfold Statement.nodes; simp)
  cases s with
  -- what is ready has no loops
  | forLoop | whileLoop => simp [Code.isStraight] at hnode
  | expression _ e =>
    simp only [Statement.nodes, ready_cons] at hs
    exact ih.expr W e hs.2
  | assign _ op target value =>
    simp only [Statement.nodes, ready_cons, ready_append] at hs
    refine (ih.expr W target hs.2.1).bind fun W₁ _ t t' ht =>
      (ih.expr W₁ value hs.2.2).bind fun W₂ hW v w hv => ?_
    dsimp only
    -- with an operator, or without
    split
    · refine (follows_binary (ht.mono hW) hv).bind fun W₃ hW' u u' hu => ?_
      exact (follows_assign (ht.mono (hW.trans hW')) hu).bind fun _ _ _ _ _ =>
        follows_pure fun _ _ => .of_closed trivial
    · exact (follows_assign (ht.mono hW) hv).bind fun _ _ _ _ _ =>
        follows_pure fun _ _ => .of_closed trivial
  | declare _ name initializer =>
    simp only [Statement.nodes, ready_cons] at hs
    exact (ih.optional W initializer hs.2).bind fun W₁ _ v w hv =>
      (follows_declare hdata hv).bind fun _ _ _ _ _ => follows_pure fun _ _ => .of_closed trivial
  | leave _ value =>
    simp only [Statement.nodes, ready_cons] at hs
    exact (ih.optional W value hs.2).bind fun W₁ _ v w hv =>
      follows_withSnapshot hv fun _ u hu => follows_raise ⟨rfl, hu⟩
  | breakLoop => exact follows_raise trivial
  | continueLoop => exact follows_raise trivial
  | block _ body =>
    simp only [Statement.nodes, ready_cons] at hs
    exact ih.statements W body hs.2
  | branch _ condition whenTrue whenFalse =>
    simp only [Statement.nodes, ready_cons, ready_append] at hs
    refine (ih.truth W condition hs.2.1).bind fun W₁ _ a b hab => ?_
    subst hab
    cases a with
    | true =>
      exact (ih.statement W₁ whenTrue hs.2.2.1).bind fun _ _ _ _ _ =>
        follows_pure fun _ _ => .of_closed trivial
    | false =>
      cases whenFalse with
      | none => exact follows_pure fun _ _ => .of_closed trivial
      | some s =>
        exact (ih.statement W₁ s hs.2.2.2).bind fun _ _ _ _ _ =>
          follows_pure fun _ _ => .of_closed trivial
  | empty => exact follows_pure fun _ _ => .of_closed trivial

end

/-- Each part of a straight program is followed step by step. -/
theorem follows (hdata : st₀.HoldsData host) (honce : st₀.BindsOnce host) :
    ∀ fuel, Followed st₀ host run cursor fuel := by
  intro fuel
  induction fuel with
  | zero => constructor <;> intros <;> exact follows_cutOff
  | succ fuel ih =>
    constructor
    case expr => exact fun W e he => follows_expr ih hdata honce he
    case exprs => exact fun W es hes => follows_exprs ih hes
    case call => exact fun W v w vs ws hv hargs => follows_call ih hv hargs
    case apply => exact fun W callable vs ws hcallable hargs => follows_apply ih hcallable hargs
    case quantify =>
      exact fun W quantifier callable items hcallable hitems =>
        follows_quantify ih hcallable hitems
    case code =>
      intro W code hcode
      cases code with
      | expression e => exact ih.expr W e hcode
      | statement s => exact ih.statement W s hcode
    case statement => exact fun W s hs => follows_statement ih hdata hs
    case optional =>
      intro W e? he
      cases e? with
      | none => exact follows_pure fun _ _ => .of_closed trivial
      | some e => exact ih.expr W e he
    case truth =>
      intro W e he
      -- values that stand for one another have the same truth
      exact (ih.expr W e he).bind fun W₁ _ v w hv =>
        follows_withSnapshot hv fun _ u _ => follows_ofValue fun _ _ _ => rfl
    case statements =>
      intro W ss hss
      cases ss with
      | nil => exact follows_pure fun _ _ => .of_closed trivial
      | cons s rest =>
        simp only [Statement.listNodes, ready_append] at hss
        exact (ih.statement W s hss.1).bind fun W₁ _ _ _ _ => ih.statements W₁ rest hss.2

end Walk

namespace Code

open Run Mirror

variable {st₀ : Store} {host : Nat}

/-- When both runs have opened their frames, no cell was made yet. -/
theorem mirror_openFrame (st₀ : Store) (host : Nat) :
    Mirror st₀ host [] (st₀.beginRun.2.openFrame st₀.runs .scope [] ⟨[], host⟩).2
      (st₀.beginRun.2.openFrame st₀.runs .shadow [] ⟨[], host⟩).2 where
  hosts := by simp [Store.beginRun]
  functions := by simp
  tables := by simp [Store.beginRun]
  grown := by simp [Store.beginRun]
  size := by simp [Store.beginRun]
  outside := by simp [Store.beginRun]
  cells := by simp
  closed := by simp
  known := by simp
  once := by simp
  bound := by simp [Store.beginRun, Store.table, Table.find?]
  free := by simp [Store.beginRun, Store.table, Table.find?]

variable {st₀ : Store} {host fuel cursor : Nat} {code : Code}

/-- The speculative run behind a shadow ends like the real run in its scope. -/
theorem code_follows (hdata : st₀.HoldsData host) (honce : st₀.BindsOnce host)
    (hready : Walk.Ready cursor code.nodes) :
    ∀ ⦃r σ⦄, Walk.code fuel (Walk.realContext st₀ host st₀.runs) code
      (st₀.beginRun.2.openFrame st₀.runs .scope [] ⟨[], host⟩).2 = some (r, σ) →
    Misassigned r ∨ ∃ r' τ W', Walk.code fuel (Walk.shadowContext st₀ host st₀.runs cursor) code
      (st₀.beginRun.2.openFrame st₀.runs .shadow [] ⟨[], host⟩).2 = some (r', τ) ∧
        Mirror st₀ host W' σ τ ∧ Alike (Image st₀ W') r r' := by
  intro r σ hrun
  rcases (Walk.follows hdata honce fuel).code [] code hready (List.prefix_refl _)
    (mirror_openFrame st₀ host) hrun with hbad | ⟨r', τ, W', hτ, -, hm, halike⟩
  · exact .inl hbad
  · exact .inr ⟨r', τ, W', hτ, hm, halike⟩

/-- The stages of a real run: its scope, the program, and its end. -/
theorem evaluate_eq_some {r : Except RunError Value} {σ : Store}
    (h : code.evaluate fuel ⟨[], host⟩ st₀ = some (r, σ)) :
    ∃ r₁ σ₁, Walk.code fuel (Walk.realContext st₀ host st₀.runs) code
      (st₀.beginRun.2.openFrame st₀.runs .scope [] ⟨[], host⟩).2 = some (r₁, σ₁) ∧
        r = (Walk.realOutcome r₁).map σ₁.snapshot := by
  simp only [evaluate, Store.openFrame_fst] at h
  split at h
  · cases h
  · next r₁ σ₁ hrun =>
    refine ⟨r₁, σ₁, hrun, ?_⟩
    split at h <;>
    · next hr =>
      cases h
      rw [hr]
      rfl

/-- The stages of a speculative run: its shadow, the program, and its end. -/
theorem speculate_eq (st₀ : Store) (host fuel cursor : Nat) (code : Code) :
    speculate fuel ⟨.speculative cursor, st₀.runs, ⟨[], host⟩⟩ code st₀.beginRun.2 =
      Walk.settleSpeculative (Walk.code fuel (Walk.shadowContext st₀ host st₀.runs cursor) code)
        (st₀.beginRun.2.openFrame st₀.runs .shadow [] ⟨[], host⟩).2 := by
  simp only [speculate, Walk.behindShadow, Store.openFrame_fst]
  rfl

/-- How a speculative run ends: by a value, also a returned one, or for a reason to stop. -/
def speculativeOutcome : Except Signal Value → Except Signal Value
  | .error (.leave v) => .ok v
  | .error .breakLoop | .error .continueLoop => .ok .null
  | r => r

theorem settleSpeculative_eq {step : Run Value} {st st' : Store} {r : Except Signal Value}
    (h : step st = some (r, st')) :
    Walk.settleSpeculative step st = some (speculativeOutcome r, st') := by
  change Run.bind (Run.attempt step) _ st = _
  simp only [Run.bind, Run.attempt, h]
  rcases r with s | v
  · cases s <;> rfl
  · rfl

/-- A speculative run ends with the value of the real run, or fails with its error. -/
theorem speculate_follows (hdata : st₀.HoldsData host) (honce : st₀.BindsOnce host)
    (hready : Walk.Ready cursor code.nodes) {r : Except RunError Value} {σ : Store}
    (h : code.evaluate fuel ⟨[], host⟩ st₀ = some (r, σ)) :
    (∃ e, r = .error e ∧ e.isRealOnly = true) ∨
    ∃ r' τ, speculate fuel ⟨.speculative cursor, st₀.runs, ⟨[], host⟩⟩ code st₀.beginRun.2 =
      some (r', τ) ∧ r'.map τ.snapshot = r.mapError .fail := by
  obtain ⟨r₁, σ₁, hreal, rfl⟩ := evaluate_eq_some h
  rw [speculate_eq]
  rcases code_follows hdata honce hready hreal with hbad | ⟨r', τ, W, hτ, hm, halike⟩
  -- the real run fails with an error that the speculative run does not know
  · cases r₁ with
    | ok v => exact hbad.elim
    | error s =>
      obtain ⟨type, rfl⟩ := hbad
      exact .inl ⟨_, rfl, rfl⟩
  · rw [settleSpeculative_eq hτ]
    cases r₁ with
    | ok v =>
      cases r' with
      | error s => exact halike.elim
      | ok w => exact .inr ⟨.ok w, τ, rfl, congrArg Except.ok (hm.snapshot halike).1⟩
    | error s =>
      cases r' with
      | ok w => exact halike.elim
      | error s' =>
        cases s with
        | leave v =>
          cases s' <;> try exact halike.elim
          obtain ⟨rfl, hclosed⟩ := halike
          exact .inr ⟨.ok v, τ, rfl, congrArg Except.ok (hm.snapshot (.of_closed hclosed)).1⟩
        -- a jump that leaves the program is an error in the real run only
        | breakLoop => exact .inl ⟨_, rfl, rfl⟩
        | continueLoop => exact .inl ⟨_, rfl, rfl⟩
        | suggest found => exact halike.elim
        | fail e =>
          cases s' <;> try exact halike.elim
          cases halike
          exact .inr ⟨.error (.fail e), τ, rfl, rfl⟩

/-- What is strictly read has its nodes in the shape that the strict parser makes. -/
theorem shaped_of_parse {isScript : Bool} {source : String}
    (h : Code.parse .strict isScript source = .ok code) : Shaped code.nodes := by
  unfold Code.parse at h
  split at h
  · cases hs : Statement.parseScript .strict source with
    | error e => simp [hs, Except.map] at h
    | ok s =>
      simp only [hs, Except.map, Except.ok.injEq] at h
      exact h ▸ (Statement.shaped_of_parseScript hs).1
  · cases he : Expr.parse .strict source with
    | error e => simp [he, Except.map] at h
    | ok e =>
      simp only [he, Except.map, Except.ok.injEq] at h
      exact h ▸ (Expr.shaped_of_parse he).1

/-- Looking for completions behind all of a program without loops and functions comes to the end of
the program as evaluating it does: with the same value and nothing found, or with the same error. -/
theorem complete_follows_evaluate {isScript : Bool} {source : String}
    (hparse : Code.parse .strict isScript source = .ok code)
    (hstraight : ∀ node ∈ code.nodes, node.isStraight = true)
    (hcursor : ∀ node ∈ code.nodes, node.span.stop < cursor)
    (hdata : st₀.HoldsData host) (honce : st₀.BindsOnce host)
    {r : Except RunError Value} {σ : Store}
    (heval : code.evaluate fuel ⟨[], host⟩ st₀ = some (r, σ))
    (hreal : ∀ e, r = .error e → e.isRealOnly = false) :
    (∃ r' τ, speculate fuel ⟨.speculative cursor, st₀.runs, ⟨[], host⟩⟩ code st₀.beginRun.2 =
      some (r', τ) ∧ r'.map τ.snapshot = r.mapError .fail) ∧
    ∃ τ, code.complete fuel ⟨[], host⟩ cursor st₀ = some (r.map fun _ => none, τ) := by
  have hready : Walk.Ready cursor code.nodes := fun node hnode =>
    ⟨hstraight node hnode, isPlaceholder_of_isShaped (shaped_of_parse hparse node hnode),
      hcursor node hnode⟩
  rcases speculate_follows hdata honce hready heval with ⟨e, he, hbad⟩ | ⟨r', τ, hrun, hsame⟩
  · exact absurd (hreal e he) (by simp [hbad])
  · refine ⟨⟨r', τ, hrun, hsame⟩, τ.endRun, ?_⟩
    -- the completion ends as the speculative run did
    have hbegin : st₀.beginRun = (st₀.runs, st₀.beginRun.2) := rfl
    unfold complete
    rw [hbegin]
    simp only [hrun]
    cases r with
    | ok v =>
      cases r' with
      | ok w => rfl
      | error s => cases hsame
    | error e =>
      cases r' with
      | ok w => cases hsame
      | error s => cases hsame; rfl

/-- A script that declares a name, calls a method, assigns to a cell of the host and returns. -/
theorem complete_follows_evaluate_of_return :
    let st : Store := { slots := #[.string "b"], hosts := #[{ locals := [("x", .cell 0)] }] }
    let source := "let y = x; x += \"a\"; if (x.contains(y)) return x; y = 2;"
    ∃ code r σ, Code.parse .strict true source = .ok code ∧
      code.evaluate 20 ⟨[], 0⟩ st = some (r, σ) ∧
      (∃ r' τ, speculate 20 ⟨.speculative 100, st.runs, ⟨[], 0⟩⟩ code st.beginRun.2 =
        some (r', τ) ∧ r'.map τ.snapshot = r.mapError .fail) ∧
      ∃ τ, code.complete 20 ⟨[], 0⟩ 100 st = some (r.map fun _ => none, τ) := by
  intro st source
  have hdata : ∀ name v, (st.hosts[0]?.getD ({} : Host)).find? name = some v →
      name = "x" ∧ v = .cell 0 := by
    intro name v h
    by_cases hx : name = "x"
    · subst hx
      cases h
      exact ⟨rfl, rfl⟩
    · simp [Host.find?, st, Table.find?, hx] at h
  have hruns : (Code.parse .strict true source).toOption.any (fun code =>
      code.nodes.all (fun node => node.isStraight && decide (node.span.stop < 100)) &&
        (code.evaluate 20 ⟨[], 0⟩ st).any (·.1.isOk)) = true := by decide +kernel
  cases hcode : Code.parse .strict true source with
  | error e => simp [hcode, Except.toOption] at hruns
  | ok code =>
    simp only [hcode, Except.toOption, Option.any_some, Bool.and_eq_true, List.all_eq_true,
      decide_eq_true_eq] at hruns
    obtain ⟨hnodes, heval⟩ := hruns
    obtain ⟨⟨r, σ⟩, hrun, hok⟩ := (Option.any_eq_true _ _).1 heval
    refine ⟨code, r, σ, rfl, hrun, complete_follows_evaluate hcode (fun n h => (hnodes n h).1)
      (fun n h => (hnodes n h).2) ?_ ?_ hrun ?_⟩
    · intro name v h
      obtain ⟨-, rfl⟩ := hdata name v h
      exact .inr ⟨0, .string "b", rfl, rfl, rfl⟩
    · intro name name' slot h h'
      rw [(hdata _ _ h).1, (hdata _ _ h').1]
    · rintro e rfl
      simp [Except.isOk, Except.toBool] at hok

end Code

end SearchScript
