import SearchScript.Proofs.Completion.Offered
import SearchScript.Proofs.Run.Confinement
import SearchScript.Proofs.Syntax.Nesting

/-!
# What a run comes to is part of the program

A speculative run of a program makes all its functions from nodes of the program, for the cursor
that it looks for. At a host that binds data there are no others to call. So whatever the run is
busy with is part of the program, and the completions that it finds are those at a node of the
program, for the cursor that was asked about.

## Key definitions

- `Walk.Task.Within`: a task is about what belongs to a region
- `Region.ofProgram`: what a speculative run of a program may reach

## Key results

- `Walk.Leads.within`, `Walk.within_of_reaches`: a walk stays busy with what belongs to its region
- `Code.exists_node_of_complete`: completions are found at a node of the program
-/

namespace SearchScript

open Relation (ReflTransGen)

/-- A node is among its nodes. -/
theorem Code.self_mem_nodes (node : Code) : node ∈ node.nodes := by
  rw [nodes_eq]
  exact List.mem_cons_self

/-- A part of a node is among its nodes. -/
theorem Code.mem_nodes_of_mem_children {node child : Code} (h : child ∈ node.children) :
    child ∈ node.nodes := by
  rw [nodes_eq]
  exact List.mem_cons_of_mem _ (List.mem_flatMap.2 ⟨child, h, child.self_mem_nodes⟩)

/-- Whether a kind of nodes suits what is run in a region: the parts of such a node are of the kind,
the functions that it makes are of the region, and so are their bodies of the kind. -/
structure Region.Covers (R : Region) (kind : Code → Prop) : Prop where
  parts : ∀ node, kind node → ∀ part ∈ node.nodes, kind part
  runs : ∀ node, kind node → R.Runs node.nodes
  bodies : ∀ body, R.body body → kind body

namespace Walk

variable {R : Region} {kind : Code → Prop} {st₀ : Store} {start next : Task × Store}

/-- Whether a task is about what belongs to a region: nodes of a kind in contexts of the region, and
functions and values of the region. -/
def Task.Within (R : Region) (kind : Code → Prop) : Task → Prop
  | .expr ctx e => R.context ctx ∧ kind (.expression e)
  | .exprs ctx es => R.context ctx ∧ ∀ e ∈ es, kind (.expression e)
  | .apply _ callable args => callable.Within R ∧ ∀ v ∈ args, v.Within R
  | .quantify _ _ callable items => callable.Within R ∧ Value.allData items = true
  | .statement ctx s => R.context ctx ∧ kind (.statement s)
  | .statements ctx ss => R.context ctx ∧ ∀ s ∈ ss, kind (.statement s)

theorem Task.within_ofCode {ctx : Context} {code : Code} (hctx : R.context ctx)
    (hcode : kind code) : (Task.ofCode ctx code).Within R kind := by
  cases code with
  | expression e => exact ⟨hctx, hcode⟩
  | statement s => exact ⟨hctx, hcode⟩

/-- The arguments of a call are parts of it. -/
theorem kind_of_mem_arguments (hkind : R.Covers kind) {span : Span} {callee args arg : Expr}
    (hcall : kind (.expression (.binary span .call callee args))) (h : arg ∈ args.arguments) :
    kind (.expression arg) := by
  have hargs : kind (.expression args) :=
    hkind.parts _ hcall _ (Code.mem_nodes_of_mem_children (by simp [Code.children]))
  exact hkind.parts _ hargs _ (nodes_subset_of_mem_arguments h (Code.expression arg).self_mem_nodes)

/-- On the way from a task to a part of it, a walk stays in its region. -/
theorem Leads.within (hR : R.Fits st₀) (hkind : R.Covers kind) (h : Leads start next)
    (hstart : start.1.Within R kind) (hst : R.Respects st₀ start.2) :
    next.1.Within R kind ∧ R.Respects st₀ next.2 := by
  have hchild : ∀ {node child : Code}, kind node → child ∈ node.children → kind child :=
    fun hnode hmem => hkind.parts _ hnode _ (Code.mem_nodes_of_mem_children hmem)
  have hexpr : ∀ {n ctx e st r st'}, R.context ctx → kind (.expression e) →
      R.Respects st₀ st → Walk.expr n ctx e st = some (r, st') →
      R.Respects st₀ st' ∧ Run.Ends (Signal.Within R) (Value.Within R) r :=
    fun {n ctx e _ _ _} hctx he h heq =>
      (confined hR n).expr ctx e hctx (hkind.runs (.expression e) he) h heq
  cases h with
  -- the first part of a task begins in the same store
  | operand | condition | left | target | declared | returned | test | expression | whileBody
  | initializer | bareForBody =>
    exact ⟨⟨hstart.1, hchild hstart.2 (by simp [Code.children])⟩, hst⟩
  | first => exact ⟨⟨hstart.1, hstart.2 _ List.mem_cons_self⟩, hst⟩
  | firstStatement => exact ⟨⟨hstart.1, hstart.2 _ List.mem_cons_self⟩, hst⟩
  | block => exact ⟨⟨hstart.1, fun s hs => hchild hstart.2 (List.mem_map_of_mem hs)⟩, hst⟩
  -- another part begins where an earlier one ended
  | @choice _ _ _ c a b _ _ _ chosen he =>
    obtain ⟨hctx, hnode⟩ := hstart
    refine ⟨⟨hctx, ?_⟩, (hexpr hctx (hchild hnode (by simp [Code.children])) hst he).1⟩
    cases chosen <;> exact hchild hnode (by simp [Code.children])
  | right _ _ he =>
    obtain ⟨hctx, hnode⟩ := hstart
    exact ⟨⟨hctx, hchild hnode (by simp [Code.children])⟩,
      (hexpr hctx (hchild hnode (by simp [Code.children])) hst he).1⟩
  | value he =>
    obtain ⟨hctx, hnode⟩ := hstart
    exact ⟨⟨hctx, hchild hnode (by simp [Code.children])⟩,
      (hexpr hctx (hchild hnode (by simp [Code.children])) hst he).1⟩
  | arguments he =>
    obtain ⟨hctx, hnode⟩ := hstart
    exact ⟨⟨hctx, fun arg harg => kind_of_mem_arguments hkind hnode harg⟩,
      (hexpr hctx (hchild hnode (by simp [Code.children])) hst he).1⟩
  | callee he hes hcallee =>
    obtain ⟨hctx, hnode⟩ := hstart
    obtain ⟨hst₁, hv⟩ := hexpr hctx (hchild hnode (by simp [Code.children])) hst he
    obtain ⟨hst₂, hargs⟩ := (confined hR _).exprs _ _ hctx
      (fun arg harg => hkind.runs _ (kind_of_mem_arguments hkind hnode harg)) hst₁ hes
    have hfunction := hst₂.snapshot hv
    rw [hcallee] at hfunction
    exact ⟨⟨hfunction, hargs⟩, hst₂⟩
  | others he =>
    obtain ⟨hctx, hes⟩ := hstart
    obtain ⟨he', hrest⟩ := List.forall_mem_cons.1 hes
    exact ⟨⟨hctx, hrest⟩, (hexpr hctx he' hst he).1⟩
  | otherStatements hs =>
    obtain ⟨hctx, hss⟩ := hstart
    obtain ⟨hs', hrest⟩ := List.forall_mem_cons.1 hss
    exact ⟨⟨hctx, hrest⟩, ((confined hR _).statement _ _ hctx (hkind.runs _ hs') hst hs).1⟩
  | whenTrue ht =>
    obtain ⟨hctx, hnode⟩ := hstart
    have hcondition := hkind.runs _ (hchild hnode (List.mem_cons_self))
    exact ⟨⟨hctx, hchild hnode (by simp [Code.children])⟩,
      ((confined hR _).truth _ _ hctx hcondition hst ht).1⟩
  | whenFalse ht =>
    obtain ⟨hctx, hnode⟩ := hstart
    have hcondition := hkind.runs _ (hchild hnode (List.mem_cons_self))
    exact ⟨⟨hctx, hchild hnode (by simp [Code.children])⟩,
      ((confined hR _).truth _ _ hctx hcondition hst ht).1⟩
  | forBody hs =>
    obtain ⟨hctx, hnode⟩ := hstart
    have hinitializer := hkind.runs _ (hchild hnode (List.mem_cons_self))
    exact ⟨⟨hctx, hchild hnode (by simp [Code.children])⟩,
      ((confined hR _).statement _ _ hctx hinitializer hst hs).1⟩
  -- functions
  | predicate hpredicate =>
    obtain ⟨hitems, hargs⟩ := hstart
    obtain ⟨hst₁, hcallable⟩ := keeps_predicate hargs hst hpredicate
    exact ⟨⟨hcallable, hitems⟩, hst₁⟩
  | body _ henter hshadow =>
    obtain ⟨⟨hctx, hbody⟩, hargs⟩ := hstart
    obtain ⟨hst₁, hentered⟩ := keeps_enter hR hctx hargs hst henter
    obtain ⟨hst₂, hbehind⟩ := keeps_behindShadow hR hentered hst₁ hshadow
    exact ⟨Task.within_ofCode hbehind (hkind.bodies _ hbody), hst₂⟩
  | item =>
    obtain ⟨hcallable, hitems⟩ := hstart
    simp only [Value.allData, Bool.and_eq_true] at hitems
    exact ⟨⟨hcallable, by simpa using Value.within_of_isData hitems.1⟩, hst⟩
  | @otherItems _ _ _ _ item _ _ _ _ _ _ happly hanswer =>
    obtain ⟨hcallable, hitems⟩ := hstart
    simp only [Value.allData, Bool.and_eq_true] at hitems
    have hitem : ∀ v ∈ [item], v.Within R := by simpa using Value.within_of_isData hitems.1
    obtain ⟨hst₁, hv⟩ := (confined hR _).apply _ _ _ hcallable hitem hst happly
    exact ⟨⟨hcallable, hitems.2⟩, (keeps_predicateAnswer hv hst₁ hanswer).1⟩

/-- Wherever a walk comes, it stays in its region. -/
theorem within_of_reaches (hR : R.Fits st₀) (hkind : R.Covers kind)
    (h : ReflTransGen Leads start next) (hstart : start.1.Within R kind)
    (hst : R.Respects st₀ start.2) : next.1.Within R kind ∧ R.Respects st₀ next.2 := by
  induction h with
  | refl => exact ⟨hstart, hst⟩
  | tail _ hleads ih => exact hleads.within hR hkind ih.1 ih.2

end Walk

/-! ## Programs at a host -/

/-- What a speculative run of a program may reach at a host: what was made since it began, with
contexts that look for the same cursor and functions from the program. -/
def Region.ofProgram (st : Store) (host cursor : Nat) (code : Code) : Region :=
  let R := Region.since st host (· ∈ code.nodes)
  { R with context := fun ctx => ctx.mode = .speculative cursor ∧ R.context ctx }

namespace Code

variable {fuel host cursor : Nat} {code : Code} {st st' : Store} {found : Suggestions}

theorem mem_nodes_of_functionBody? {node body : Code} (h : node.functionBody? = some body) :
    body ∈ node.nodes := by
  unfold functionBody? at h
  split at h <;> cases h <;> exact mem_nodes_of_mem_children (by simp [children])

/-- A host that binds data gives a run nothing to call but the function that looks files up. -/
theorem ofProgram_fits (h : st.HoldsData host) (cursor : Nat) (code : Code) :
    (Region.ofProgram st host cursor code).Fits st := by
  have hbodies : ∀ body ∈ code.nodes,
      (Region.since st host (· ∈ code.nodes)).Runs body.nodes := by
    intro body hbody node hnode made hmade
    have hmem : made ∈ body.nodes := closed_nodes body node hnode (mem_nodes_of_functionBody? hmade)
    exact closed_nodes code body hbody hmem
  have hfits := Region.since_fits h hbodies
  refine ⟨hfits.cell, hfits.table, fun ctx hctx => hfits.frames ctx hctx.2,
    fun ctx hctx => hfits.tables ctx hctx.2, hfits.bodies,
    fun ctx kind table hctx htable => ⟨hctx.1, hfits.push ctx kind table hctx.2 htable⟩,
    fun ctx name v hctx hv => ?_⟩
  obtain ⟨-, -, rfl, hshadow, -⟩ := hctx
  simp only [Store.hostValue?] at hv
  split at hv
  · next w hfound =>
    cases hv
    rcases h name v hfound with hdata | ⟨slot, w, rfl, hw, hdata⟩
    · exact .inl (Value.within_of_isData hdata)
    -- a cell of the host is outside, but the data that it holds lies within
    · have hsnapshot : st.snapshot (.cell slot) = w := by
        simp only [Store.snapshot, hw, Option.getD_some]
      refine .inr ⟨hshadow, hsnapshot ▸ Value.within_of_isData hdata, ?_⟩
      rintro other ⟨⟩ hother
      exact absurd (Array.getElem?_eq_some_iff.1 hw).1 (Nat.not_lt.2 hother)
  · split at hv <;> cases hv
    exact .inl trivial

/-- The nodes of a program suit the region of the program. -/
theorem ofProgram_covers (h : st.HoldsData host) (cursor : Nat) (code : Code) :
    (Region.ofProgram st host cursor code).Covers (· ∈ code.nodes) where
  parts node hnode _ hpart := closed_nodes code node hnode hpart
  runs := (ofProgram_fits h cursor code).bodies
  bodies _ hbody := hbody

/-- Nothing was made yet where the run begins. -/
theorem ofProgram_respects (st : Store) (host cursor : Nat) (code : Code) :
    (Region.ofProgram st host cursor code).Respects st st.beginRun.2 :=
  { Region.since_respects st host (· ∈ code.nodes) with
    slots := fun _ _ hslot hv =>
      absurd (Array.getElem?_eq_some_iff.1 hv).1 (Nat.not_lt.2 hslot)
    tables := fun _ _ htable hnames =>
      absurd (Array.getElem?_eq_some_iff.1 hnames).1 (Nat.not_lt.2 htable) }

/-- The completions of a program at a host that binds data are those at a name of the program that
the cursor touches, or those at a member access of the program with the cursor between its left
operand and the end of its right one. -/
theorem exists_node_of_complete (hhost : st.HoldsData host)
    (h : code.complete fuel ⟨[], host⟩ cursor st = some (.ok (some found), st')) :
    (∃ typed, .expression (.name found.span typed) ∈ code.nodes ∧
        found.span.touches cursor = true) ∨
      ∃ span left right, .expression (.binary span .member left right) ∈ code.nodes ∧
        found.span = right.span ∧ left.span.stop ≤ cursor ∧ cursor ≤ right.span.stop := by
  have hR := ofProgram_fits hhost cursor code
  have hbegin := ofProgram_respects st host cursor code
  obtain ⟨ctx, st₀, hshadow, ⟨stop, st₁⟩, hreaches, hoffers⟩ := stops_of_complete h
  have hsince : (Region.since st host (· ∈ code.nodes)).context ctx :=
    (keeps_behindShadow _ _ (Region.since_respects st host _) hshadow).2
  have hctx : (Region.ofProgram st host cursor code).context ctx := by
    refine ⟨?_, hsince⟩
    cases hshadow
    rfl
  have hst₀ : (Region.ofProgram st host cursor code).Respects st st₀ := by
    cases hshadow
    exact hbegin.openFrame (List.forall_mem_nil _)
  -- where the walk stops it is still within the region, so the expression there is one of the
  -- program
  obtain ⟨hwithin, -⟩ := Walk.within_of_reaches hR (ofProgram_covers hhost cursor code)
    hreaches (Walk.Task.within_ofCode hctx code.self_mem_nodes) hst₀
  cases hoffers with
  | name hmode htouches =>
    obtain ⟨hstop, hnode⟩ := hwithin
    cases hmode.symm.trans hstop.1
    exact .inl ⟨_, hnode, htouches⟩
  | member hmode _ hleft hright =>
    obtain ⟨hstop, hnode⟩ := hwithin
    cases hmode.symm.trans hstop.1
    exact .inr ⟨_, _, _, hnode, rfl, hleft, hright⟩

end Code

end SearchScript
