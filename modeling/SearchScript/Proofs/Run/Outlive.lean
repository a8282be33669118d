import Mathlib.Logic.Relation
import SearchScript.Proofs.Run.Outlive.Runs

/-!
# Functions that outlive their run

A host has values and environments and does something with them, one step after the other: it makes
values, binds names, calls functions, and evaluates programs. A function that a program made is
still there when the run of the program is over, as its result or in a cell of the host. It finds
nothing of that run, whatever has happened in the meantime, and does what it would do if its body
ran directly over the environment at which the program was evaluated.

This is so for the functions that the run made itself. A function of an earlier run opens scopes
that are not emptied any more when it is called, and the functions that are made in such a call find
the names of these scopes.

## Key definitions

- `Session`, `Session.Step`: what a host has, and all that it can do
- `Session.Ignores`: a host cannot tell whether some frames are there
- `Closure.runAt`: the body of a function directly over an environment

## Key results

- `Session.Sound.step`: a step leaves empty the frames that are gone
- `Session.outlived`: a function that outlives its run sees only the host of the run
-/

namespace SearchScript

/-! ## What a host changes by itself -/

namespace Guard.Sound

variable {gone : List Nat} {G : Guard gone} {st : Store} {env : Env}

theorem takeRecorded (h : G.Sound st) : G.Sound { st with recorded := [] } ∧
    st.Precedes { st with recorded := [] } := by
  have hprec : st.Precedes { st with recorded := [] } :=
    ⟨rfl, rfl, Nat.le_refl _, [], rfl, List.forall_mem_nil _⟩
  refine ⟨h.of_holds hprec h.empty fun w hw => .inl ?_, hprec⟩
  cases hw with
  | slot hmem => exact .slot hmem
  | table hmem hname => exact .table hmem hname
  | globals hmem hname => exact .globals hmem hname
  | locals hmem hname => exact .locals hmem hname
  | recorded hmem => cases hmem

theorem newHost {host : Host} (h : G.Sound st)
    (hglobals : ∀ entry ∈ host.globals, G.AdmitsAll st entry.2)
    (hlocals : ∀ entry ∈ host.locals, G.AdmitsAll st entry.2) :
    G.Sound (st.newHost host).2 ∧ st.Precedes (st.newHost host).2 := by
  have hprec : st.Precedes (st.newHost host).2 :=
    ⟨rfl, rfl, Nat.le_refl _, [], rfl, List.forall_mem_nil _⟩
  refine ⟨h.of_holds hprec h.empty fun w hw => ?_, hprec⟩
  cases hw with
  | slot hmem => exact .inl (.slot hmem)
  | table hmem hname => exact .inl (.table hmem hname)
  | globals hmem hname =>
    rcases Array.mem_push.1 hmem with hmem | rfl
    · exact .inl (.globals hmem hname)
    · exact .inr (hglobals _ hname)
  | locals hmem hname =>
    rcases Array.mem_push.1 hmem with hmem | rfl
    · exact .inl (.locals hmem hname)
    · exact .inr (hlocals _ hname)
  | recorded hmem => exact .inl (.recorded hmem)

theorem newFrame (kind : FrameKind) (env : Env) {names : Table Value} (h : G.Sound st)
    (hnames : ∀ entry ∈ names, G.AdmitsAll st entry.2) :
    G.Sound (st.newFrame kind names env).2 ∧ st.Precedes (st.newFrame kind names env).2 := by
  have hprec : st.Precedes (st.newFrame kind names env).2 :=
    ⟨rfl, rfl, by simp [Store.newFrame], [], rfl, List.forall_mem_nil _⟩
  refine ⟨h.of_holds hprec (fun table hmem => ?_) fun w hw => ?_, hprec⟩
  · rw [Store.newFrame, Array.getElem?_push, if_neg (Nat.ne_of_lt (h.lt_size table hmem))]
    exact h.empty table hmem
  · cases hw with
    | slot hmem => exact .inl (.slot hmem)
    | table hmem hname =>
      rcases Array.mem_push.1 hmem with hmem | rfl
      · exact .inl (.table hmem hname)
      · exact .inr (hnames _ hname)
    | globals hmem hname => exact .inl (.globals hmem hname)
    | locals hmem hname => exact .inl (.locals hmem hname)
    | recorded hmem => exact .inl (.recorded hmem)

theorem release (h : G.Sound st) : G.Sound (st.release env) ∧ st.Precedes (st.release env) := by
  unfold Store.release
  split
  · next frame outer _ =>
    have hprec : st.Precedes { st with tables := st.tables.modify frame.table fun _ => [] } :=
      ⟨rfl, rfl, by simp, [], rfl, List.forall_mem_nil _⟩
    refine ⟨h.of_holds hprec (fun table hmem => ?_) fun w hw => .inl ?_, hprec⟩
    · rw [Array.getElem?_modify, h.empty table hmem]
      split <;> rfl
    · cases hw with
      | slot hmem => exact .slot hmem
      | table hmem hname =>
        have hmem : _ ∈ st.tables.modify frame.table fun _ => [] := hmem
        rcases Store.mem_modify hmem with hmem | ⟨old, -, rfl⟩
        · exact .table hmem hname
        · cases hname
      | globals hmem hname => exact .globals hmem hname
      | locals hmem hname => exact .locals hmem hname
      | recorded hmem => exact .recorded hmem
  · exact ⟨h, .refl st⟩

end Guard.Sound

/-! ## Sessions -/

/-- What a host has: the store, and the values and environments that it holds. -/
structure Session where
  store : Store := {}
  values : List Value := []
  envs : List Env := []

namespace Session

/-- The session with another store, and with a value if there is one. -/
def gain (s : Session) (v? : Option Value) (st : Store) : Session :=
  { s with store := st, values := v?.toList ++ s.values }

/-- Whether a function made by a program is in a value that the host holds or in the store. -/
def Reaches (s : Session) (c : Closure) : Prop :=
  (∃ v ∈ s.values, c ∈ v.closures) ∨ ∃ v, s.store.Holds v ∧ c ∈ v.closures

/-- What a host can do. -/
inductive Step (s : Session) : Session → Prop where
  /-- Makes a value of the functions that there are: data, a list, a cell or what it holds. -/
  | hold {v : Value} (h : ∀ c ∈ v.closures, s.Reaches c) : Step s (s.gain (some v) s.store)
  | newCell {v : Value} (h : v ∈ s.values) :
      Step s (s.gain (s.store.newCell v).1 (s.store.newCell v).2)
  | assign {target v : Value} {st : Store} (h : v ∈ s.values)
      (hassign : s.store.assign target v = .ok st) : Step s (s.gain none st)
  | newRecorder :
      Step s (s.gain (s.store.newFunction .recorder).1 (s.store.newFunction .recorder).2)
  /-- Takes away what the recorder noted. -/
  | takeRecorded : Step s (s.gain none { s.store with recorded := [] })
  | newHost {host : Host} (hglobals : ∀ entry ∈ host.globals, entry.2 ∈ s.values)
      (hlocals : ∀ entry ∈ host.locals, entry.2 ∈ s.values) :
      Step s { s with
        store := (s.store.newHost host).2
        envs := (s.store.newHost host).1 :: s.envs }
  /-- Puts a scope or a shadow in front of an environment. -/
  | newFrame {kind : FrameKind} {names : Table Value} {env : Env} (henv : env ∈ s.envs)
      (hnames : ∀ entry ∈ names, entry.2 ∈ s.values) :
      Step s { s with
        store := (s.store.newFrame kind names env).2
        envs := (s.store.newFrame kind names env).1 :: s.envs }
  | bind {env : Env} {name : String} {v : Value} (henv : env ∈ s.envs) (hv : v ∈ s.values) :
      Step s (s.gain none (s.store.bind env name v))
  | release {env : Env} (henv : env ∈ s.envs) : Step s (s.gain none (s.store.release env))
  | resolve {env : Env} {name : String} {v : Value} {st : Store} (henv : env ∈ s.envs)
      (h : s.store.resolve? env name = some (v, st)) : Step s (s.gain v st)
  | member {v : Value} {name : String} {r : Except Signal Value} {st : Store} (hv : v ∈ s.values)
      (h : Walk.memberOf v name s.store = some (r, st)) : Step s (s.gain r.toOption st)
  | call {fuel : Nat} {mode : Mode} {callee : Value} {args : List Value} {r : Except Signal Value}
      {st : Store} (hcallee : callee ∈ s.values) (hargs : ∀ v ∈ args, v ∈ s.values)
      (h : Walk.call fuel mode callee args s.store = some (r, st)) : Step s (s.gain r.toOption st)
  | evaluate {fuel : Nat} {env : Env} {code : Code} {r : Except RunError Value} {st : Store}
      (henv : env ∈ s.envs) (h : code.evaluate fuel env s.store = some (r, st)) :
      Step s (s.gain r.toOption st)
  | complete {fuel cursor : Nat} {env : Env} {code : Code}
      {r : Except RunError (Option Suggestions)} {st : Store} (henv : env ∈ s.envs)
      (h : code.complete fuel env cursor s.store = some (r, st)) : Step s (s.gain none st)

/-- Whether one session becomes another by the steps of a host. -/
abbrev Leads : Session → Session → Prop := Relation.ReflTransGen Step

/-- Whether a session begins with nothing. -/
abbrev Reachable (s : Session) : Prop := Leads {} s

/-- Whether the frames that are gone are empty, and known to no environment of the host. -/
structure Sound (gone : List Nat) (s : Session) : Prop where
  store : (Guard.made gone).Sound s.store
  values : ∀ v ∈ s.values, (Guard.made gone).AdmitsAll s.store v
  envs : ∀ env ∈ s.envs, ∀ frame ∈ env.frames,
    frame.table < s.store.tables.size ∧ frame.table ∉ gone

/-- Whether a host has kept its environments, and its store all tables and runs. -/
structure Keeps (s s' : Session) : Prop where
  runs : s.store.runs ≤ s'.store.runs
  size : s.store.tables.size ≤ s'.store.tables.size
  envs : s.envs ⊆ s'.envs

theorem Keeps.refl (s : Session) : s.Keeps s := ⟨Nat.le_refl _, Nat.le_refl _, List.Subset.refl _⟩

theorem Keeps.trans {s s' s'' : Session} (h : s.Keeps s') (h' : s'.Keeps s'') : s.Keeps s'' :=
  ⟨Nat.le_trans h.runs h'.runs, Nat.le_trans h.size h'.size, List.Subset.trans h.envs h'.envs⟩

/-- Whether a host cannot tell whether the frames of some tables are there: what it evaluates and
calls comes to the same if they are left out of all functions. -/
structure Ignores (gone : List Nat) (s : Session) : Prop where
  evaluate : ∀ (fuel : Nat) (code : Code), ∀ env ∈ s.envs,
    (code.evaluate fuel env s.store).map
        (Prod.map (Except.map (Value.without gone)) (Store.without gone)) =
      code.evaluate fuel env (s.store.without gone)
  call : ∀ (fuel : Nat) (mode : Mode), ∀ callee ∈ s.values, ∀ args, (∀ v ∈ args, v ∈ s.values) →
    (Walk.call fuel mode callee args s.store).map
        (Prod.map (HasClosures.without gone) (Store.without gone)) =
      Walk.call fuel mode (callee.without gone) (Value.allWithout gone args)
        (s.store.without gone)

theorem eq_ok_of_mem_toOption {ε α : Type} {r : Except ε α} {a : α} (h : a ∈ r.toOption) :
    r = .ok a := by
  cases r with
  | error => cases h
  | ok => exact congrArg Except.ok (Option.some.inj h)

namespace Sound

variable {gone : List Nat} {s s' : Session} {st : Store} {v? : Option Value}

/-- The functions that a host reaches are known. -/
theorem made_of_reaches {c : Closure} (h : s.Sound gone) (hc : s.Reaches c) :
    Made gone s.store c.context := by
  rcases hc with ⟨v, hv, hc⟩ | ⟨v, hv, hc⟩
  · exact h.values v hv c hc
  · exact h.store.admits v hv c hc

theorem gain (h : s.Sound gone) (hst : (Guard.made gone).Sound st)
    (hruns : s.store.runs ≤ st.runs) (hsize : s.store.tables.size ≤ st.tables.size)
    (hv : ∀ v ∈ v?, (Guard.made gone).AdmitsAll st v) :
    (s.gain v? st).Sound gone ∧ s.Keeps (s.gain v? st) := by
  refine ⟨⟨hst, fun v hmem => ?_, fun env hmem frame hframe => ?_⟩, hruns, hsize,
    List.Subset.refl _⟩
  · rcases List.mem_append.1 hmem with hmem | hmem
    · exact hv v (Option.mem_toList.1 hmem)
    · exact fun c hc => (h.values v hmem c hc).grow hruns hsize
  · obtain ⟨hlt, hgone⟩ := h.envs env hmem frame hframe
    exact ⟨Nat.lt_of_lt_of_le hlt hsize, hgone⟩

theorem admitsAll_of_held {args : List Value} (h : s.Sound gone)
    (hargs : ∀ v ∈ args, v ∈ s.values) : (Guard.made gone).AdmitsAll s.store args :=
  Walk.admitsAll_iff.2 fun v hv => h.values v (hargs v hv)

/-- A new environment whose frames are not gone. -/
theorem addEnv {env : Env} (h : s.Sound gone ∧ s'.Keeps s)
    (henv : ∀ frame ∈ env.frames, frame.table < s.store.tables.size ∧ frame.table ∉ gone) :
    Sound gone { s with envs := env :: s.envs } ∧ s'.Keeps { s with envs := env :: s.envs } :=
  ⟨{ h.1 with envs := List.forall_mem_cons.2 ⟨henv, h.1.envs⟩ },
    { h.2 with envs := List.subset_cons_of_subset _ h.2.envs }⟩

theorem admitsAll_toOption {r : Except Signal Value} (hr : (Guard.made gone).AdmitsAll st r) :
    ∀ v ∈ r.toOption, (Guard.made gone).AdmitsAll st v := by
  intro v hv
  cases eq_ok_of_mem_toOption hv
  exact hr

/-- A host leaves the frames that are gone empty, and takes nothing back. -/
theorem step (h : s.Sound gone) (hstep : s.Step s') : s'.Sound gone ∧ s.Keeps s' := by
  -- all steps but the runs of programs leave the number of runs
  have hprec {v? : Option Value} {st : Store} (hst : (Guard.made gone).Sound st)
      (hprec : s.store.Precedes st) (hv : ∀ v ∈ v?, (Guard.made gone).AdmitsAll st v) :
      (s.gain v? st).Sound gone ∧ s.Keeps (s.gain v? st) :=
    h.gain hst (Nat.le_of_eq hprec.runs.symm) hprec.size hv
  have hnone {st : Store} : ∀ v ∈ (none : Option Value), (Guard.made gone).AdmitsAll st v :=
    fun _ => nofun
  cases hstep with
  | hold hreaches =>
    refine hprec h.store (.refl _) fun v hv c hc => ?_
    cases hv
    exact h.made_of_reaches (hreaches c hc)
  | newCell hv =>
    obtain ⟨hst, hgrown⟩ := h.store.newCell (h.values _ hv)
    refine hprec hst hgrown fun v hv => ?_
    cases hv
    exact List.forall_mem_nil _
  | assign hv hassign =>
    obtain ⟨hst, hgrown⟩ := h.store.assign (h.values _ hv) hassign
    exact hprec hst hgrown hnone
  | newRecorder =>
    obtain ⟨hst, hgrown⟩ := h.store.newFunction .recorder
    refine hprec hst hgrown fun v hv => ?_
    cases hv
    exact List.forall_mem_nil _
  | takeRecorded =>
    obtain ⟨hst, hgrown⟩ := h.store.takeRecorded
    exact hprec hst hgrown hnone
  | newHost hglobals hlocals =>
    obtain ⟨hst, hgrown⟩ := h.store.newHost (fun entry hmem => h.values _ (hglobals entry hmem))
      fun entry hmem => h.values _ (hlocals entry hmem)
    exact addEnv (hprec hst hgrown hnone) (List.forall_mem_nil _)
  | @newFrame kind _ env henv hnames =>
    obtain ⟨hst, hgrown⟩ :=
      h.store.newFrame kind env fun entry hmem => h.values _ (hnames entry hmem)
    have hsame := hprec hst hgrown hnone
    -- the table of the new frame is the next one, and those that are gone were there before
    refine addEnv hsame (List.forall_mem_cons.2 ⟨⟨?_, h.store.size_notMem⟩, hsame.1.envs _ henv⟩)
    simp [Session.gain, Store.newFrame]
  | bind henv hv =>
    obtain ⟨hst, hgrown⟩ := h.store.bind (fun frame hframe =>
      (h.envs _ henv frame (List.mem_of_mem_head? hframe)).2) (h.values _ hv)
    exact hprec hst hgrown hnone
  | release henv =>
    obtain ⟨hst, hgrown⟩ := h.store.release
    exact hprec hst hgrown hnone
  | resolve henv hfound =>
    obtain ⟨hst, hgrown, hv⟩ := h.store.of_resolveThrough (fun frame hframe hgone =>
      absurd hgone (h.envs _ henv frame hframe).2) hfound
    refine hprec hst hgrown fun v' hv' => ?_
    cases hv'
    exact hv
  | member hv hmember =>
    obtain ⟨-, hkept⟩ := Walk.matches_memberOf (h.values _ hv) h.store
    obtain ⟨hst, hgrown, hr⟩ := hkept _ _ hmember
    exact hprec hst hgrown (admitsAll_toOption hr)
  | call hcallee hargs hcall =>
    obtain ⟨-, hkept⟩ := (Walk.matched (Guard.made gone) _).call _ (h.values _ hcallee)
      (h.admitsAll_of_held hargs) h.store
    obtain ⟨hst, hgrown, hr⟩ := hkept _ _ hcall
    exact hprec hst hgrown (admitsAll_toOption hr)
  | evaluate henv hrun =>
    obtain ⟨-, hkept⟩ := Code.evaluate_without h.store (fun frame hframe =>
      (h.envs _ henv frame hframe).1) fun frame hframe hgone =>
        absurd hgone (h.envs _ henv frame hframe).2
    obtain ⟨hst, hruns, hsize, hr⟩ := hkept _ _ hrun
    exact h.gain hst hruns hsize fun v hv => hr v (eq_ok_of_mem_toOption hv)
  | complete henv hrun =>
    obtain ⟨hst, hruns, hsize⟩ := Code.sound_of_complete h.store (fun frame hframe =>
      (h.envs _ henv frame hframe).1) (fun frame hframe hgone =>
        absurd hgone (h.envs _ henv frame hframe).2) hrun
    exact h.gain hst hruns hsize hnone

theorem leads (h : s.Sound gone) (hleads : s.Leads s') : s'.Sound gone ∧ s.Keeps s' := by
  induction hleads with
  | refl => exact ⟨h, .refl s⟩
  | tail _ hstep ih =>
    obtain ⟨hsound, hkept⟩ := ih.1.step hstep
    exact ⟨hsound, ih.2.trans hkept⟩

theorem ignores (h : s.Sound gone) : s.Ignores gone where
  evaluate fuel code env henv := by
    have hframes := h.envs env henv
    obtain ⟨heq, -⟩ := Code.evaluate_without h.store (fun frame hframe => (hframes frame hframe).1)
      fun frame hframe hmem => absurd hmem (hframes frame hframe).2
    rw [Env.without_eq_self fun frame hframe => (hframes frame hframe).2] at heq
    exact heq.symm
  call fuel mode callee hcallee args hargs :=
    ((Walk.matched (Guard.made gone) fuel).call mode (h.values callee hcallee)
      (h.admitsAll_of_held hargs) h.store).1.symm

theorem of_reachable (h : s.Reachable) : s.Sound [] := by
  refine (leads ⟨⟨List.forall_mem_nil _, fun v hv => ?_⟩, List.forall_mem_nil _,
    List.forall_mem_nil _⟩ h).1
  -- nothing is in the store at the beginning
  cases hv with
  | slot hmem | table hmem | globals hmem | locals hmem => simp at hmem
  | recorded hmem => cases hmem

end Sound

end Session

/-! ## Functions that outlive their run -/

/-- Runs the body of a function in a new scope with its parameters directly over an environment. -/
def Closure.runAt (fuel : Nat) (c : Closure) (env : Env) (args : List Value) : Run Value := do
  let ctx ← Run.update fun st =>
    let (names, st) := st.bindParams [] c.params args
    let (scope, st) := st.openFrame c.context.run .scope names env
    (⟨.real, c.context.run, scope⟩, st)
  Walk.settle (Walk.code fuel ctx c.body)

/-- A call runs the body over the environment of the function. -/
theorem Closure.apply_eq_runAt (c : Closure) {args : List Value} (fuel : Nat)
    (hmode : c.context.mode = .real) :
    Walk.apply (fuel + 1) .real (.closure c) args = c.runAt fuel c.context.env args := by
  obtain ⟨⟨mode, run, env⟩, params, body⟩ := c
  subst hmode
  rfl

namespace Session

variable {s later : Session} {gone : List Nat} {env : Env} {fuel : Nat} {code : Code} {st : Store}
  {result : Except RunError Value} {c : Closure} {args : List Value}

/-- What a run at an environment leaves: its scopes are gone, and its functions have no other frames
in front of the environment. -/
theorem exists_gone (hs : s.Sound []) (henv : env ∈ s.envs)
    (hrun : code.evaluate fuel env s.store = some (result, st)) :
    ∃ gone, (∀ table ∈ gone, s.store.tables.size ≤ table) ∧
      (s.gain result.toOption st).Sound gone ∧
      ∀ c, (s.gain result.toOption st).Reaches c → c.context.run = s.store.runs →
        c.context.mode = .real ∧ c.context.env.without gone = env := by
  have hframes : ∀ frame ∈ env.frames, frame.table < s.store.tables.size :=
    fun frame hframe => (hs.envs env henv frame hframe).1
  obtain ⟨gone, hnew, hst, hleft⟩ := Code.exists_gone hs.store hframes hrun
  obtain ⟨-, hkept⟩ := Code.evaluate_without hs.store hframes fun _ _ hmem =>
    absurd hmem List.not_mem_nil
  obtain ⟨-, hruns, hsize, -⟩ := hkept _ _ hrun
  -- what is gone was made by this run
  have hnotGone : ∀ {table}, table < s.store.tables.size → table ∉ gone :=
    fun hlt hmem => Nat.not_lt.2 (hnew _ hmem) hlt
  have hold : ∀ v ∈ s.values, ∀ c ∈ v.closures, Made gone st c.context := fun v hv c hc =>
    { (hs.values v hv c hc).grow hruns hsize with
      scope := fun frame hframe hmem =>
        absurd hmem (hnotGone ((hs.values v hv c hc).lt_size frame hframe)) }
  refine ⟨gone, hnew, ⟨hst, fun v hv => ?_, fun env henv frame hframe => ?_⟩, fun c hc hown => ?_⟩
  · rcases List.mem_append.1 hv with hv | hv
    · have hv := eq_ok_of_mem_toOption (Option.mem_toList.1 hv)
      exact fun c hc => (hleft c (.inl ⟨v, hv, hc⟩)).1
    · exact hold v hv
  · have hlt := (hs.envs env henv frame hframe).1
    exact ⟨Nat.lt_of_lt_of_le hlt hsize, hnotGone hlt⟩
  · rcases hc with ⟨v, hv, hc⟩ | hc
    · rcases List.mem_append.1 hv with hv | hv
      · have hv := eq_ok_of_mem_toOption (Option.mem_toList.1 hv)
        exact (hleft c (.inl ⟨v, hv, hc⟩)).2 hown
      · -- what the host had before is older than the run
        exact absurd (hs.values v hv c hc).run_lt (hown ▸ Nat.lt_irrefl _)
    · exact (hleft c (.inr hc)).2 hown

/-- A function that has only frames that are gone in front of an environment does what its body does
directly over that environment. -/
theorem apply_eq_runAt (h : later.Sound gone) (henv : env ∈ later.envs)
    (hc : Made gone later.store c.context) (hmode : c.context.mode = .real)
    (hgone : c.context.env.without gone = env) (hargs : ∀ v ∈ args, v ∈ later.values) :
    (Walk.apply (fuel + 1) .real (.closure c) args later.store).map
        (Prod.map (HasClosures.without gone) (Store.without gone)) =
      (c.runAt fuel env args later.store).map
        (Prod.map (HasClosures.without gone) (Store.without gone)) := by
  -- the function that was made directly at the environment differs by frames that are gone only
  let direct : Closure := { c with context := { c.context with env } }
  have hdirect : Made gone later.store direct.context := {
    run_lt := hc.run_lt
    lt_size := fun frame hframe => (h.envs env henv frame hframe).1
    scope := fun frame hframe hmem => absurd hmem (h.envs env henv frame hframe).2 }
  have hsame : direct.without gone = c.without gone := by
    have henv : env.without gone = env :=
      Env.without_eq_self fun frame hframe => (h.envs env henv frame hframe).2
    simp only [direct, Closure.without, Context.without, henv, hgone]
  have hargs := h.admitsAll_of_held hargs
  have hcallable {c : Closure} (hc : Made gone later.store c.context) :
      (Guard.made gone).AdmitsAll later.store (Callable.closure c) :=
    List.forall_mem_singleton.2 hc
  have hmatched {c : Closure} (hc : Made gone later.store c.context) :=
    ((Walk.matched (Guard.made gone) (fuel + 1)).apply .real (hcallable hc) hargs h.store).1
  have heq : c.runAt fuel env args = Walk.apply (fuel + 1) .real (.closure direct) args :=
    (direct.apply_eq_runAt fuel hmode).symm
  rw [heq, ← hmatched hc, ← hmatched hdirect, Callable.without, Callable.without, hsame]

/-- A function that outlives the run that made it sees nothing of that run, whatever has happened in
the meantime. The scopes of the run are gone: they are empty, a name is found in the environment of
the function just as it is found where the run began, and a call does what the body of the function
does directly there. A host cannot tell whether the scopes that are gone are there. -/
theorem outlived (hs : s.Reachable) (henv : env ∈ s.envs)
    (hrun : code.evaluate fuel env s.store = some (result, st))
    (hlater : (s.gain result.toOption st).Leads later) :
    ∃ gone : List Nat,
      (∀ table ∈ gone, s.store.tables.size ≤ table ∧ table < st.tables.size ∧
        later.store.tables[table]? = some []) ∧
      (∀ c, (s.gain result.toOption st).Reaches c → c.context.run = s.store.runs →
        (∀ name, later.store.resolve? c.context.env name = later.store.resolve? env name) ∧
        ∀ fuel args, (∀ v ∈ args, v ∈ later.values) →
          (Walk.apply (fuel + 1) .real (.closure c) args later.store).map
              (Prod.map (HasClosures.without gone) (Store.without gone)) =
            (c.runAt fuel env args later.store).map
              (Prod.map (HasClosures.without gone) (Store.without gone))) ∧
      later.Ignores gone := by
  obtain ⟨gone, hnew, hleft, hown⟩ := exists_gone (.of_reachable hs) henv hrun
  obtain ⟨hsound, hkept⟩ := hleft.leads hlater
  refine ⟨gone, fun table hmem => ?_, fun c hc hmade => ?_, hsound.ignores⟩
  · exact ⟨hnew table hmem, hleft.store.lt_size table hmem, hsound.store.empty table hmem⟩
  · obtain ⟨hmode, hgone⟩ := hown c hc hmade
    -- the tables of the function are still there, whether or not the host reaches it
    have hknown := (hleft.made_of_reaches hc).grow hkept.runs hkept.size
    refine ⟨fun name => ?_, fun fuel args hargs =>
      apply_eq_runAt hsound (hkept.envs henv) hknown hmode hgone hargs⟩
    have hfilter := hsound.store.resolveThrough_filter env.host name hknown.scope
    rw [← hgone] at hfilter ⊢
    exact hfilter.symm

/-- Whether a script ends with a function that it made in a call of its own. -/
private def makesNested (source : String) : Bool :=
  match Code.parse .strict true source with
  | .ok code =>
    match code.evaluate 40 ⟨[], 0⟩ (({} : Store).newHost {}).2 with
    | some (.ok (.function _ (.closure c)), _) =>
      c.context.run == 0 && c.context.env.frames.length == 2
    | _ => false
  | _ => false

/-- A function that was made in a function of the run finds what the host has bound since, and not
what the run bound. -/
theorem outlived_of_nested :
    ∃ code id c st, Code.parse .strict true
        "let n = 1; let f = function() \x7breturn function() \x7breturn n;\x7d;\x7d; return f();" =
          .ok code ∧
      code.evaluate 40 ⟨[], 0⟩ (({} : Store).newHost {}).2 =
        some (.ok (.function id (.closure c)), st) ∧
      c.context.env.frames.length = 2 ∧
      ∀ name, (st.bind ⟨[], 0⟩ "n" (.number 5)).resolve? c.context.env name =
        (st.bind ⟨[], 0⟩ "n" (.number 5)).resolve? ⟨[], 0⟩ name := by
  have hcheck : makesNested
      "let n = 1; let f = function() \x7breturn function() \x7breturn n;\x7d;\x7d; return f();" =
        true := by decide +kernel
  unfold makesNested at hcheck
  split at hcheck
  · next code hparse =>
    split at hcheck
    · next id c st hrun =>
      obtain ⟨hown, hlength⟩ := Bool.and_eq_true_iff.1 hcheck
      let s : Session := { store := (({} : Store).newHost {}).2, envs := [⟨[], 0⟩] }
      have hs : s.Reachable := .single (.newHost (by simp) (by simp))
      have henv : (⟨[], 0⟩ : Env) ∈ s.envs := List.mem_singleton.2 rfl
      let left := s.gain (some (.function id (.closure c))) st
      have hreached : left.Reaches c := .inl ⟨_, List.mem_cons_self, List.mem_singleton.2 rfl⟩
      have hheld : left.Leads (left.gain (some (.number 5)) st) :=
        .single (.hold (by simp [Value.closures]))
      have hlater : left.Leads ((left.gain (some (.number 5)) st).gain none
          (st.bind ⟨[], 0⟩ "n" (.number 5))) := hheld.tail (.bind henv List.mem_cons_self)
      obtain ⟨gone, -, hfunctions, -⟩ := outlived hs henv hrun hlater
      exact ⟨code, id, c, st, hparse, hrun, of_decide_eq_true hlength,
        (hfunctions c hreached (of_decide_eq_true hown)).1⟩
    · cases hcheck
  · cases hcheck

/-- Whether the function that one script makes, called by another one, makes a function that counts
in a name of that call and does not find the name where the caller looks. -/
private def countsAlone (maker caller : String) : Bool :=
  match Code.parse .strict true maker, Code.parse .strict true caller with
  | .ok earlier, .ok code =>
    match earlier.evaluate 40 ⟨[], 0⟩ (({} : Store).newHost {}).2 with
    | some (.ok x, st₀) =>
      match code.evaluate 40 ⟨[], 0⟩ (st₀.bind ⟨[], 0⟩ "x" x) with
      | some (.ok (.function _ (.closure c)), st) =>
        match Walk.apply 40 .real (.closure c) [] st, c.runAt 39 ⟨[], 0⟩ [] st with
        | some (.ok (.number m), _), some (.error (.fail (.noSuchValue name)), _) =>
          m == 1 && name == "n"
        | _, _ => false
      | _ => false
    | _ => false
  | _, _ => false

/-- A function that was made in a call of a function of an earlier run still finds the names of that
call. -/
theorem not_outlived_of_earlier :
    ∃ (s : Session) (code : Code) (id : Nat) (c : Closure) (st st₁ st₂ : Store),
      s.Reachable ∧ ⟨[], 0⟩ ∈ s.envs ∧ Code.parse .strict true "return x();" = .ok code ∧
      code.evaluate 40 ⟨[], 0⟩ s.store = some (.ok (.function id (.closure c)), st) ∧
      Walk.apply 40 .real (.closure c) [] st = some (.ok (.number 1), st₁) ∧
      c.runAt 39 ⟨[], 0⟩ [] st = some (.error (.fail (.noSuchValue "n")), st₂) := by
  have hcheck : countsAlone
      "return function() \x7b let n = 0; return function() \x7b n += 1; return n; \x7d; \x7d;"
      "return x();" = true := by decide +kernel
  unfold countsAlone at hcheck
  split at hcheck
  case h_2 => cases hcheck
  next earlier code _ hparse =>
  split at hcheck
  case h_2 => cases hcheck
  next x st₀ hearlier =>
  split at hcheck
  case h_2 => cases hcheck
  next id c st hrun =>
  split at hcheck
  case h_2 => cases hcheck
  next m st₁ name st₂ happly hdirect =>
  obtain ⟨hm, hname⟩ := Bool.and_eq_true_iff.1 hcheck
  rw [eq_of_beq hm] at happly
  rw [eq_of_beq hname] at hdirect
  let s₀ : Session := { store := (({} : Store).newHost {}).2, envs := [⟨[], 0⟩] }
  have hs₀ : s₀.Reachable := .single (.newHost (by simp) (by simp))
  have henv : (⟨[], 0⟩ : Env) ∈ s₀.envs := List.mem_singleton.2 rfl
  have hs₁ : (s₀.gain (some x) st₀).Reachable := hs₀.tail (.evaluate henv hearlier)
  have hs : ((s₀.gain (some x) st₀).gain none (st₀.bind ⟨[], 0⟩ "x" x)).Reachable :=
    hs₁.tail (.bind henv List.mem_cons_self)
  exact ⟨_, code, id, c, st, st₁, st₂, hs, henv, hparse, hrun, happly, hdirect⟩

end Session

end SearchScript
