import SearchScript.Proofs.Run.Parts
import SearchScript.Proofs.Run.Sphere.Walks

/-!
# The course of a real run

A real run goes from one stage to the next: it is busy with a task, or with the rounds of a loop.
`Walk.Proceeds` says how it comes from a stage to a part of it, with the store that it has by then.
So what holds of every store that a run has on its way can be said of the stages that it comes to.

## Key definitions

- `Walk.Stage`, `Walk.Proceeds`: what a real run is busy with, and how it goes on
- `Code.Visits`: the stages that the evaluation of a program comes to, with their stores

## Key results

- `Walk.kept_of_proceeds`: on the way, stable invariants are kept
- `Walk.inside_of_proceeds`: on the way, a run stays inside its sphere
-/

namespace SearchScript

open Relation (ReflTransGen)

namespace Walk

/-- What a real run is busy with: a task, or the rounds of a loop that are left. -/
inductive Stage where
  | task (task : Task)
  | rounds (ctx : Context) (condition : Option Expr) (iterator : Option Statement)
      (body : Statement)

/-- Whether a task is a loop. -/
def Task.isLoop : Task → Bool
  | .statement _ (.forLoop _ _ _ _ _) | .statement _ (.whileLoop _ _ _) => true
  | _ => false

/-- Whether the condition of a loop lets another round begin, with the store that it has then. -/
inductive Passes (ctx : Context) (st : Store) : Option Expr → Store → Prop
  | always : Passes ctx st none st
  | holds {n e st'} : truth n ctx e st = some (.ok true, st') → Passes ctx st (some e) st'

/-- Whether the body of a loop comes to its end, also by going on with the next round. -/
inductive Completes (ctx : Context) (body : Statement) (st : Store) : Store → Prop
  | ended {n v st'} : statement n ctx body st = some (.ok v, st') → Completes ctx body st st'
  | continued {n st'} : statement n ctx body st = some (.error .continueLoop, st') →
      Completes ctx body st st'

/-- Whether a loop steps on to its next round. -/
inductive Advances (ctx : Context) (st : Store) : Option Statement → Store → Prop
  | bare : Advances ctx st none st
  | iterated {n s v st'} : statement n ctx s st = some (.ok v, st') → Advances ctx st (some s) st'

/-- A real walk that is at a stage in one store comes to a part of it in another: what stands in
front of that part was run in between. -/
inductive Proceeds : Stage × Store → Stage × Store → Prop
  /-- What is no loop and no call of a function goes on as in a speculative walk. -/
  | part {task st task' st'} : task.isLoop = false → Leads (task, st) (task', st') →
      Proceeds (.task task, st) (.task task', st')
  | body {closure args st ctx st₁} :
      closure.context.mode = .real → enter closure args st = some (.ok ctx, st₁) →
      Proceeds (.task (.apply .real (.closure closure) args), st)
        (.task (.ofCode ctx closure.body), st₁)
  | initializer {ctx span s c i b st} :
      Proceeds (.task (.statement ctx (.forLoop span (some s) c i b)), st)
        (.task (.statement ctx s), st)
  | initialized {n ctx span s c i b st v st₁} : statement n ctx s st = some (.ok v, st₁) →
      Proceeds (.task (.statement ctx (.forLoop span (some s) c i b)), st) (.rounds ctx c i b, st₁)
  | bare {ctx span c i b st} :
      Proceeds (.task (.statement ctx (.forLoop span none c i b)), st) (.rounds ctx c i b, st)
  | whileRounds {ctx span e b st} :
      Proceeds (.task (.statement ctx (.whileLoop span e b)), st) (.rounds ctx (some e) none b, st)
  | test {ctx e i b st} : Proceeds (.rounds ctx (some e) i b, st) (.task (.expr ctx e), st)
  | round {ctx c i b st st₁} : Passes ctx st c st₁ →
      Proceeds (.rounds ctx c i b, st) (.task (.statement ctx b), st₁)
  | iterator {ctx c s b st st₁ st₂} : Passes ctx st c st₁ → Completes ctx b st₁ st₂ →
      Proceeds (.rounds ctx c (some s) b, st) (.task (.statement ctx s), st₂)
  | again {ctx c i b st st₁ st₂ st₃} : Passes ctx st c st₁ → Completes ctx b st₁ st₂ →
      Advances ctx st₂ i st₃ → Proceeds (.rounds ctx c i b, st) (.rounds ctx c i b, st₃)

/-! ## Invariants of the store -/

section

variable {I : Store → Prop} {ctx : Context} {st st' : Store} {start next : Stage × Store}

theorem Passes.kept (hI : Store.Stable I) {c : Option Expr} (h : Passes ctx st c st')
    (hst : I st) : I st' := by
  cases h with
  | always => exact hst
  | holds ht => exact ((Walk.kept hI _).truth _ _).store hst ht

theorem Completes.kept (hI : Store.Stable I) {b : Statement} (h : Completes ctx b st st')
    (hst : I st) : I st' := by
  cases h with
  | ended hb => exact ((Walk.kept hI _).statement _ _).store hst hb
  | continued hb => exact ((Walk.kept hI _).statement _ _).store hst hb

theorem Advances.kept (hI : Store.Stable I) {i : Option Statement} (h : Advances ctx st i st')
    (hst : I st) : I st' := by
  cases h with
  | bare => exact hst
  | iterated hs => exact ((Walk.kept hI _).statement _ _).store hst hs

/-- From a stage to a part of it, stable invariants are kept. -/
theorem Proceeds.kept (hI : Store.Stable I) (h : Proceeds start next) (hstart : I start.2) :
    I next.2 := by
  cases h with
  | part _ hleads => exact hleads.kept hI hstart
  | body _ henter => exact Run.Kept.store (kept_enter hI) hstart henter
  | initialized hs => exact ((Walk.kept hI _).statement _ _).store hstart hs
  | round hpasses => exact hpasses.kept hI hstart
  | iterator hpasses hbody => exact hbody.kept hI (hpasses.kept hI hstart)
  | again hpasses hbody hadvances =>
    exact hadvances.kept hI (hbody.kept hI (hpasses.kept hI hstart))
  | initializer | bare | whileRounds | test => exact hstart

/-- Wherever a real walk comes, stable invariants are kept. -/
theorem kept_of_proceeds (hI : Store.Stable I) (h : ReflTransGen Proceeds start next)
    (hstart : I start.2) : I next.2 := by
  induction h with
  | refl => exact hstart
  | tail _ hproceeds ih => exact hproceeds.kept hI ih

end

/-! ## Spheres -/

section

variable {S : Sphere} {ctx : Context} {st st' : Store}

/-- Whether a task is about what belongs to a sphere. -/
def Task.Inside (S : Sphere) : Task → Prop
  | .expr ctx e => S.context ctx ∧ S.Makes (Code.expression e).nodes
  | .exprs ctx es => S.context ctx ∧ ∀ e ∈ es, S.Makes (Code.expression e).nodes
  | .apply mode callable args => S.mode mode ∧ callable.Inside S ∧ ∀ v ∈ args, v.Inside S
  | .quantify mode _ callable items => S.mode mode ∧ callable.Inside S ∧ ∀ v ∈ items, v.Inside S
  | .statement ctx s => S.context ctx ∧ S.Makes (Code.statement s).nodes
  | .statements ctx ss => S.context ctx ∧ ∀ s ∈ ss, S.Makes (Code.statement s).nodes

/-- Whether a stage is about what belongs to a sphere. -/
def Stage.Inside (S : Sphere) : Stage → Prop
  | .task t => t.Inside S
  | .rounds ctx condition iterator body => S.context ctx ∧
      S.Makes (Expr.optionNodes condition) ∧ S.Makes (Statement.optionNodes iterator) ∧
      S.Makes body.nodes

theorem Task.inside_ofCode {code : Code} (hctx : S.context ctx) (hcode : S.Makes code.nodes) :
    (Task.ofCode ctx code).Inside S := by
  cases code with
  | expression e => exact ⟨hctx, hcode⟩
  | statement s => exact ⟨hctx, hcode⟩

/-- What the parts of a node make, the node makes. -/
theorem makes_of_mem_children {node child : Code} (h : S.Makes node.nodes)
    (hchild : child ∈ node.children) : S.Makes child.nodes :=
  fun part hpart => h part (node.closed_nodes child (Code.mem_nodes_of_mem_children hchild) hpart)

theorem makes_of_mem_arguments {span : Span} {callee args arg : Expr}
    (h : S.Makes (Code.expression (.binary span .call callee args)).nodes)
    (harg : arg ∈ args.arguments) : S.Makes (Code.expression arg).nodes := by
  have hargs : S.Makes (Code.expression args).nodes :=
    makes_of_mem_children h (by simp [Code.children])
  exact fun part hpart => hargs part (nodes_subset_of_mem_arguments harg hpart)

variable (hS : S.Lawful)
include hS

theorem inside_of_expr {n : Nat} {e : Expr} {r : Except Signal Value} (hctx : S.context ctx)
    (he : S.Makes (Code.expression e).nodes) (hst : S.Encloses st)
    (h : Walk.expr n ctx e st = some (r, st')) :
    S.Encloses st' ∧ Run.Ends (Signal.Inside S fun _ => false) (Value.Inside S) r :=
  (enclosed hS n).expr ctx e hctx he hst h

theorem encloses_of_statement {n : Nat} {s : Statement} {r : Except Signal Value}
    (hctx : S.context ctx) (hs : S.Makes (Code.statement s).nodes) (hst : S.Encloses st)
    (h : Walk.statement n ctx s st = some (r, st')) : S.Encloses st' :=
  ((enclosed hS n).statement ctx s hctx hs hst h).1

theorem encloses_of_truth {n : Nat} {e : Expr} {r : Except Signal Bool}
    (hctx : S.context ctx) (he : S.Makes (Code.expression e).nodes) (hst : S.Encloses st)
    (h : Walk.truth n ctx e st = some (r, st')) : S.Encloses st' :=
  ((enclosed hS n).truth ctx e hctx he hst h).1

/-- From a task that is no loop to a part of it, a walk stays inside its sphere. -/
theorem Leads.inside {start next : Task × Store} (h : Leads start next)
    (hloop : start.1.isLoop = false) (hstart : start.1.Inside S) (hst : S.Encloses start.2) :
    next.1.Inside S ∧ S.Encloses next.2 := by
  cases h with
  -- the first part of a task begins in the same store
  | operand | condition | left | target | declared | returned | test | expression =>
    exact ⟨⟨hstart.1, makes_of_mem_children hstart.2 (by simp [Code.children])⟩, hst⟩
  | first => exact ⟨⟨hstart.1, hstart.2 _ List.mem_cons_self⟩, hst⟩
  | firstStatement => exact ⟨⟨hstart.1, hstart.2 _ List.mem_cons_self⟩, hst⟩
  | block =>
    exact ⟨⟨hstart.1, fun s hs => makes_of_mem_children hstart.2 (List.mem_map_of_mem hs)⟩, hst⟩
  -- another part begins where an earlier one ended
  | @choice _ _ _ c a b _ _ _ chosen he =>
    obtain ⟨hctx, hmade⟩ := hstart
    have hc : S.Makes (Code.expression c).nodes :=
      makes_of_mem_children hmade (by simp [Code.children])
    refine ⟨⟨hctx, ?_⟩, (inside_of_expr hS hctx hc hst he).1⟩
    cases chosen <;> exact makes_of_mem_children hmade (by simp [Code.children])
  | @right _ _ _ _ l _ _ _ _ _ _ he =>
    obtain ⟨hctx, hmade⟩ := hstart
    have hl : S.Makes (Code.expression l).nodes :=
      makes_of_mem_children hmade (by simp [Code.children])
    exact ⟨⟨hctx, makes_of_mem_children hmade (by simp [Code.children])⟩,
      (inside_of_expr hS hctx hl hst he).1⟩
  | @value _ _ _ _ target _ _ _ _ he =>
    obtain ⟨hctx, hmade⟩ := hstart
    have ht : S.Makes (Code.expression target).nodes :=
      makes_of_mem_children hmade (by simp [Code.children])
    exact ⟨⟨hctx, makes_of_mem_children hmade (by simp [Code.children])⟩,
      (inside_of_expr hS hctx ht hst he).1⟩
  | @arguments _ _ _ l _ _ _ _ he =>
    obtain ⟨hctx, hmade⟩ := hstart
    have hl : S.Makes (Code.expression l).nodes :=
      makes_of_mem_children hmade (by simp [Code.children])
    exact ⟨⟨hctx, fun arg harg => makes_of_mem_arguments hmade harg⟩,
      (inside_of_expr hS hctx hl hst he).1⟩
  | @callee _ _ _ _ l _ _ _ _ _ _ _ _ he hes hcallee =>
    obtain ⟨hctx, hmade⟩ := hstart
    have hl : S.Makes (Code.expression l).nodes :=
      makes_of_mem_children hmade (by simp [Code.children])
    obtain ⟨hst₁, hv⟩ := inside_of_expr hS hctx hl hst he
    obtain ⟨hst₂, hargs⟩ := (enclosed hS _).exprs _ _ hctx
      (fun arg harg => makes_of_mem_arguments hmade harg) hst₁ hes
    have hfunction := hst₂.snapshot hv
    rw [hcallee] at hfunction
    exact ⟨⟨hS.mode _ hctx, hfunction, hargs⟩, hst₂⟩
  | others he =>
    obtain ⟨hctx, hes⟩ := hstart
    obtain ⟨he', hrest⟩ := List.forall_mem_cons.1 hes
    exact ⟨⟨hctx, hrest⟩, (inside_of_expr hS hctx he' hst he).1⟩
  | otherStatements hs =>
    obtain ⟨hctx, hss⟩ := hstart
    obtain ⟨hs', hrest⟩ := List.forall_mem_cons.1 hss
    exact ⟨⟨hctx, hrest⟩, encloses_of_statement hS hctx hs' hst hs⟩
  | @whenTrue _ _ _ c _ _ _ _ ht =>
    obtain ⟨hctx, hmade⟩ := hstart
    have hc : S.Makes (Code.expression c).nodes :=
      makes_of_mem_children hmade (by simp [Code.children])
    exact ⟨⟨hctx, makes_of_mem_children hmade (by simp [Code.children])⟩,
      encloses_of_truth hS hctx hc hst ht⟩
  | @whenFalse _ _ _ c _ _ _ _ ht =>
    obtain ⟨hctx, hmade⟩ := hstart
    have hc : S.Makes (Code.expression c).nodes :=
      makes_of_mem_children hmade (by simp [Code.children])
    exact ⟨⟨hctx, makes_of_mem_children hmade (by simp [Code.children])⟩,
      encloses_of_truth hS hctx hc hst ht⟩
  | initializer | forBody | bareForBody | whileBody => cases hloop
  -- functions
  | predicate hpredicate =>
    obtain ⟨hmode, hitems, hargs⟩ := hstart
    obtain ⟨hst₁, hcallable⟩ :=
      inside_predicate (J := fun _ => false) hS hargs hst hpredicate
    exact ⟨⟨hmode, hcallable, Value.allInside_iff.1 hitems⟩, hst₁⟩
  | body hmode henter hshadow =>
    obtain ⟨-, ⟨hctx, hbody⟩, hargs⟩ := hstart
    obtain ⟨hst₁, hentered, hsame⟩ :=
      inside_enter (J := fun _ => false) hS hctx hargs hst henter
    obtain ⟨hst₂, hbehind⟩ := inside_behindShadow (J := fun _ => false) hS.toRoams hentered
      (hsame ▸ hmode) hst₁ hshadow
    exact ⟨Task.inside_ofCode hbehind (hS.bodies _ hbody), hst₂⟩
  | item =>
    obtain ⟨hmode, hcallable, hitems⟩ := hstart
    have hitem := (List.forall_mem_cons.1 hitems).1
    exact ⟨⟨hmode, hcallable, by simpa using hitem⟩, hst⟩
  | @otherItems _ _ _ _ item _ _ _ _ _ _ happly hanswer =>
    obtain ⟨hmode, hcallable, hitems⟩ := hstart
    obtain ⟨hitem, hrest⟩ := List.forall_mem_cons.1 hitems
    have hargs : ∀ v ∈ [item], v.Inside S := by simpa using hitem
    obtain ⟨hst₁, hv⟩ := (enclosed hS _).apply _ _ _ hmode hcallable hargs hst happly
    have hst₂ := (inside_predicateAnswer (J := fun _ => false) hS hv hst₁ hanswer).1
    exact ⟨⟨hmode, hcallable, hrest⟩, hst₂⟩

theorem Passes.encloses {c : Option Expr} (h : Passes ctx st c st') (hctx : S.context ctx)
    (hc : S.Makes (Expr.optionNodes c)) (hst : S.Encloses st) : S.Encloses st' := by
  cases h with
  | always => exact hst
  | holds ht => exact encloses_of_truth hS hctx hc hst ht

theorem Completes.encloses {b : Statement} (h : Completes ctx b st st') (hctx : S.context ctx)
    (hb : S.Makes b.nodes) (hst : S.Encloses st) : S.Encloses st' := by
  cases h with
  | ended hrun => exact encloses_of_statement hS hctx hb hst hrun
  | continued hrun => exact encloses_of_statement hS hctx hb hst hrun

theorem Advances.encloses {i : Option Statement} (h : Advances ctx st i st')
    (hctx : S.context ctx) (hi : S.Makes (Statement.optionNodes i)) (hst : S.Encloses st) :
    S.Encloses st' := by
  cases h with
  | bare => exact hst
  | iterated hs => exact encloses_of_statement hS hctx hi hst hs

/-- From a stage to a part of it, a real walk stays inside its sphere. -/
theorem Proceeds.inside {start next : Stage × Store} (h : Proceeds start next)
    (hstart : start.1.Inside S) (hst : S.Encloses start.2) :
    next.1.Inside S ∧ S.Encloses next.2 := by
  -- each step hands on a part of what it comes from, and the store it has by then is still inside
  cases h with
  | part hloop hleads => exact hleads.inside hS hloop hstart hst
  | body _ henter =>
    obtain ⟨-, ⟨hctx, hbody⟩, hargs⟩ := hstart
    obtain ⟨hst₁, hentered, -⟩ := inside_enter (J := fun _ => false) hS hctx hargs hst henter
    exact ⟨Task.inside_ofCode hentered (hS.bodies _ hbody), hst₁⟩
  | initializer =>
    exact ⟨⟨hstart.1, makes_of_mem_children hstart.2 List.mem_cons_self⟩, hst⟩
  | initialized hs =>
    obtain ⟨hctx, hmade⟩ := hstart
    have hs' := makes_of_mem_children hmade List.mem_cons_self
    simp only [Code.nodes, Statement.nodes, Sphere.makes_cons, Sphere.makes_append] at hmade
    exact ⟨⟨hctx, hmade.2.2⟩, encloses_of_statement hS hctx hs' hst hs⟩
  | bare =>
    obtain ⟨hctx, hmade⟩ := hstart
    simp only [Code.nodes, Statement.nodes, Sphere.makes_cons, Sphere.makes_append] at hmade
    exact ⟨⟨hctx, hmade.2.2⟩, hst⟩
  | whileRounds =>
    obtain ⟨hctx, hmade⟩ := hstart
    simp only [Code.nodes, Statement.nodes, Sphere.makes_cons, Sphere.makes_append] at hmade
    exact ⟨⟨hctx, hmade.2.1, List.forall_mem_nil _, hmade.2.2⟩, hst⟩
  | test => exact ⟨⟨hstart.1, hstart.2.1⟩, hst⟩
  | round hpasses =>
    obtain ⟨hctx, hc, -, hb⟩ := hstart
    exact ⟨⟨hctx, hb⟩, hpasses.encloses hS hctx hc hst⟩
  | iterator hpasses hbody =>
    obtain ⟨hctx, hc, hi, hb⟩ := hstart
    exact ⟨⟨hctx, hi⟩, hbody.encloses hS hctx hb (hpasses.encloses hS hctx hc hst)⟩
  | again hpasses hbody hadvances =>
    obtain ⟨hctx, hc, hi, hb⟩ := hstart
    have hround := hbody.encloses hS hctx hb (hpasses.encloses hS hctx hc hst)
    exact ⟨⟨hctx, hc, hi, hb⟩, hadvances.encloses hS hctx hi hround⟩

/-- Wherever a real walk comes, it stays inside its sphere. -/
theorem inside_of_proceeds {start next : Stage × Store} (h : ReflTransGen Proceeds start next)
    (hstart : start.1.Inside S) (hst : S.Encloses start.2) :
    next.1.Inside S ∧ S.Encloses next.2 := by
  induction h with
  | refl => exact ⟨hstart, hst⟩
  | tail _ hproceeds ih => exact hproceeds.inside hS ih.1 ih.2

end

end Walk

/-- Whether the evaluation of a program at a host comes to a stage, with some store. -/
def Code.Visits (code : Code) (host : Nat) (st : Store) (stage : Walk.Stage) (σ : Store) : Prop :=
  ReflTransGen Walk.Proceeds
    (.task (.ofCode ⟨.real, st.runs, (Code.start ⟨[], host⟩ st).1⟩ code),
      (Code.start ⟨[], host⟩ st).2)
    (stage, σ)

end SearchScript
