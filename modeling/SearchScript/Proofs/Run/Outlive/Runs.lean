import SearchScript.Proofs.Run.Outlive.Walks
import SearchScript.Run.Program

/-!
# The frames of a run that has ended

While a run goes on, it opens scopes for its program and for the calls of its functions, and each
function that it makes has none but these in front of the environment that the run began at. At the
end of the run all of them are emptied. From then on they are gone: other runs do the same without
them, and leave them empty.

## Key definitions

- `OwnScopes`: what is known of the context of a function while a run goes on
- `Made`: what is known of it at any time

## Key results

- `Code.exists_gone`: the functions that a run leaves have only frames that are gone around them
- `Code.evaluate_without`: a run does the same without frames that are gone
-/

namespace SearchScript

/-! ## What is known while a run goes on -/

/-- What holds of the context of a function while a run at an environment goes on: if the function
is made by the run, then only scopes that it opened are in front of the environment. -/
structure OwnScopes (run : Nat) (env : Env) (st : Store) (ctx : Context) : Prop where
  live : st.live = some run
  opened : ∀ table ∈ st.opened, table < st.tables.size
  run_lt : ctx.run < st.runs
  lt_size : ∀ frame ∈ ctx.env.frames, frame.table < st.tables.size
  scope : ∀ frame ∈ ctx.env.frames, frame.table ∈ st.opened → frame.kind = .scope
  own : ctx.run = run → ctx.mode = .real ∧ ∃ inner, ctx.env = ⟨inner ++ env.frames, env.host⟩ ∧
    ∀ frame ∈ inner, frame.table ∈ st.opened

namespace OwnScopes

variable {run : Nat} {env : Env} {st st' : Store} {ctx : Context}

theorem mono (hprec : st.Precedes st') (h : OwnScopes run env st ctx) :
    OwnScopes run env st' ctx := by
  obtain ⟨added, hopened, hadded⟩ := hprec.opened
  constructor
  case live => exact hprec.live.trans h.live
  case opened =>
    intro table hmem
    rw [hopened] at hmem
    rcases List.mem_append.1 hmem with hmem | hmem
    · exact (hadded table hmem).2
    · exact Nat.lt_of_lt_of_le (h.opened table hmem) hprec.size
  case run_lt => exact hprec.runs ▸ h.run_lt
  case lt_size => exact fun frame hmem => Nat.lt_of_lt_of_le (h.lt_size frame hmem) hprec.size
  case scope =>
    intro frame hmem hframe
    -- a frame that was there before is not among those opened since
    rw [hopened] at hframe
    rcases List.mem_append.1 hframe with hframe | hframe
    · exact absurd (h.lt_size frame hmem) (Nat.not_lt.2 (hadded _ hframe).1)
    · exact h.scope frame hmem hframe
  case own =>
    intro hrun
    obtain ⟨hmode, inner, henv, hinner⟩ := h.own hrun
    refine ⟨hmode, inner, henv, fun frame hmem => ?_⟩
    rw [hopened]
    exact List.mem_append_right added (hinner frame hmem)

/-- Behind a new frame nothing else is in front of the environment. -/
theorem openFrame {kind : FrameKind} {names : Table Value}
    (hkind : kind = .scope ∨ ctx.mode ≠ .real) (h : OwnScopes run env st ctx) :
    OwnScopes run env (st.openFrame ctx.run kind names ctx.env).2
      { ctx with env := (st.openFrame ctx.run kind names ctx.env).1 } := by
  have hprec : st.Precedes (st.openFrame ctx.run kind names ctx.env).2 := Store.precedes_openFrame
  have h' := h.mono hprec
  have hsize : (st.openFrame ctx.run kind names ctx.env).2.tables.size = st.tables.size + 1 := by
    rw [Store.tables_openFrame, Array.size_push]
  have hopened : ctx.run ≠ run →
      (st.openFrame ctx.run kind names ctx.env).2.opened = st.opened := by
    intro hne
    rw [Store.opened_openFrame, h.live, if_neg fun heq => hne (Option.some.inj heq).symm]
  rw [Store.openFrame_fst]
  constructor
  case live => exact h'.live
  case opened => exact h'.opened
  case run_lt => exact h'.run_lt
  case lt_size =>
    refine List.forall_mem_cons.2 ⟨?_, h'.lt_size⟩
    rw [hsize]
    exact Nat.lt_succ_self _
  case scope =>
    refine List.forall_mem_cons.2 ⟨fun hmem => ?_, h'.scope⟩
    -- only a run of its own opens a frame, and that run is real
    by_cases hrun : ctx.run = run
    · exact hkind.resolve_right fun hne => hne (h.own hrun).1
    · rw [hopened hrun] at hmem
      exact absurd (h.opened _ hmem) (Nat.lt_irrefl _)
  case own =>
    intro hrun
    obtain ⟨hmode, inner, henv, hinner⟩ := h'.own hrun
    refine ⟨hmode, ⟨kind, st.tables.size⟩ :: inner, ?_, List.forall_mem_cons.2 ⟨?_, hinner⟩⟩
    · rw [henv]
      rfl
    · rw [Store.opened_openFrame, h.live, hrun, if_pos rfl]
      exact List.mem_cons_self

end OwnScopes

/-- What is known of functions while a run at an environment goes on. -/
def Guard.ofRun (run : Nat) (env : Env) : Guard [] where
  Admits := OwnScopes run env
  scope _ _ _ hmem := absurd hmem List.not_mem_nil
  mono hprec h := h.mono hprec
  opened _ _ _ hkind h := h.openFrame hkind

/-! ## What is known between runs -/

/-- What holds of the context of a function at any time: its frames and its run are there, and the
frames that are gone are scopes. -/
structure Made (gone : List Nat) (st : Store) (ctx : Context) : Prop where
  run_lt : ctx.run < st.runs
  lt_size : ∀ frame ∈ ctx.env.frames, frame.table < st.tables.size
  scope : ∀ frame ∈ ctx.env.frames, frame.table ∈ gone → frame.kind = .scope

theorem Made.grow {gone : List Nat} {st st' : Store} {ctx : Context} (h : Made gone st ctx)
    (hruns : st.runs ≤ st'.runs) (hsize : st.tables.size ≤ st'.tables.size) :
    Made gone st' ctx where
  run_lt := Nat.lt_of_lt_of_le h.run_lt hruns
  lt_size frame hmem := Nat.lt_of_lt_of_le (h.lt_size frame hmem) hsize
  scope := h.scope

theorem Made.openFrame {gone : List Nat} {st : Store} {ctx : Context} {kind : FrameKind}
    {names : Table Value} (hgone : ∀ table ∈ gone, table < st.tables.size)
    (h : Made gone st ctx) : Made gone (st.openFrame ctx.run kind names ctx.env).2
      { ctx with env := (st.openFrame ctx.run kind names ctx.env).1 } := by
  have hprec : st.Precedes (st.openFrame ctx.run kind names ctx.env).2 := Store.precedes_openFrame
  have h' := h.grow (Nat.le_of_eq hprec.runs.symm) hprec.size
  rw [Store.openFrame_fst]
  refine ⟨h'.run_lt, List.forall_mem_cons.2 ⟨?_, h'.lt_size⟩,
    List.forall_mem_cons.2 ⟨fun hmem => ?_, h'.scope⟩⟩
  · rw [Store.tables_openFrame, Array.size_push]
    exact Nat.lt_succ_self _
  · exact absurd (hgone _ hmem) (Nat.lt_irrefl _)

/-- What is known of functions at any time. -/
def Guard.made (gone : List Nat) : Guard gone where
  Admits := Made gone
  scope h := h.scope
  mono hprec h := h.grow (Nat.le_of_eq hprec.runs.symm) hprec.size
  opened _ _ hgone _ h := h.openFrame hgone

/-! ## The end of a run -/

namespace Store

variable {gone : List Nat} {st : Store} {v : Value}

theorem getElem?_foldl_modify {α : Type} {f : α → α} (hf : ∀ x, f (f x) = f x) (xs : Array α)
    (l : List Nat) (i : Nat) : (l.foldl (fun xs j => xs.modify j f) xs)[i]? =
      if i ∈ l then xs[i]?.map f else xs[i]? := by
  induction l generalizing xs with
  | nil => rfl
  | cons j rest ih =>
    rw [List.foldl_cons, ih]
    simp only [Array.getElem?_modify, List.mem_cons]
    by_cases hj : j = i
    · subst hj
      cases xs[j]? <;> simp [hf]
    · simp [hj, Ne.symm hj]

theorem size_foldl_modify {α : Type} (f : α → α) (xs : Array α) (l : List Nat) :
    (l.foldl (fun xs j => xs.modify j f) xs).size = xs.size := by
  induction l generalizing xs with
  | nil => rfl
  | cons j rest ih => rw [List.foldl_cons, ih, Array.size_modify]

/-- The end of a run empties the frames that it opened, and no others. -/
theorem getElem?_tables_endRun (table : Nat) : st.endRun.tables[table]? =
    if table ∈ st.opened then st.tables[table]?.map fun _ => [] else st.tables[table]? :=
  getElem?_foldl_modify (f := fun _ => []) (fun _ => rfl) st.tables st.opened table

theorem size_tables_endRun : st.endRun.tables.size = st.tables.size :=
  size_foldl_modify (fun _ => []) st.tables st.opened

/-- What is left at the end of a run was there before. -/
theorem Holds.of_endRun (h : st.endRun.Holds v) : st.Holds v := by
  cases h with
  | slot hmem => exact .slot hmem
  | table hmem hname =>
    obtain ⟨table, htable⟩ := Array.getElem?_of_mem hmem
    rw [getElem?_tables_endRun] at htable
    split at htable
    · obtain ⟨old, -, rfl⟩ := Option.map_eq_some_iff.1 htable
      cases hname
    · exact .table (Array.mem_of_getElem? htable) hname
  | globals hmem hname => exact .globals hmem hname
  | locals hmem hname => exact .locals hmem hname
  | recorded hmem => exact .recorded hmem

theorem Holds.of_beginRun (h : st.beginRun.2.Holds v) : st.Holds v := by
  cases h with
  | slot hmem => exact .slot hmem
  | table hmem hname => exact .table hmem hname
  | globals hmem hname => exact .globals hmem hname
  | locals hmem hname => exact .locals hmem hname
  | recorded hmem => exact .recorded hmem

theorem endRun_without : (st.without gone).endRun = st.endRun.without gone := by
  let empty : Table Value → Table Value := fun _ => []
  have hmap (l : List Nat) (tables : Array (Table Value)) :
      l.foldl (fun tables table => tables.modify table empty)
          (tables.map (Table.without gone)) =
        (l.foldl (fun tables table => tables.modify table empty) tables).map
          (Table.without gone) := by
    induction l generalizing tables with
    | nil => rfl
    | cons table rest ih =>
      have hempty (names : Table Value) : empty (names.without gone) = (empty names).without gone :=
        rfl
      rw [List.foldl_cons, List.foldl_cons, map_modify hempty, ih]
  simp only [endRun, without]
  rw [hmap]

end Store

namespace Code

variable {gone : List Nat} {fuel : Nat} {env : Env} {code : Code} {st st' : Store}
  {result : Except RunError Value}

/-- The environment and the store that a program is evaluated in. -/
def start (env : Env) (st : Store) : Env × Store :=
  st.beginRun.2.openFrame st.runs .scope [] env

theorem evaluate_eq_map (fuel : Nat) (env : Env) (code : Code) (st : Store) :
    code.evaluate fuel env st =
      (Walk.code fuel ⟨.real, st.runs, (start env st).1⟩ code (start env st).2).map
        fun (r, st) => ((Walk.realOutcome r).map st.snapshot, st.endRun) := by
  simp only [evaluate, start, Store.beginRun]
  split
  · next h => rw [h]; rfl
  · next r st₁ h =>
    rw [h]
    cases hr : Walk.realOutcome r <;> simp [hr, Except.map]

theorem start_without {gone : List Nat} (h : st.tables.size ∉ gone) :
    start (env.without gone) (st.without gone) =
      ((start env st).1.without gone, (start env st).2.without gone) := by
  have hopen : (st.beginRun.2.without gone).openFrame st.runs .scope [] (env.without gone) =
      ((start env st).1.without gone, (start env st).2.without gone) :=
    Store.openFrame_without [] h
  exact hopen

end Code

namespace Guard

variable {gone : List Nat} {fuel : Nat} {env : Env} {code : Code} {st st' : Store}
  {result : Except RunError Value}

/-- The store that a program is evaluated in is sound if the one is in which its run begins. -/
theorem Sound.start {G : Guard gone} (h : G.Sound st.beginRun.2)
    (hctx : G.Admits st.beginRun.2 ⟨.real, st.runs, env⟩) :
    G.Sound (Code.start env st).2 ∧ st.beginRun.2.Precedes (Code.start env st).2 ∧
      G.AdmitsRun (Code.start env st).2 ⟨.real, st.runs, (Code.start env st).1⟩ := by
  obtain ⟨hsound, hprec⟩ := h.openFrame (List.forall_mem_nil _)
  exact ⟨hsound, hprec, h.admitsRun_openFrame (.inl rfl) hctx⟩

/-- What a real run comes to is admitted if its result is. -/
theorem Sound.admitsAll_outcome {G : Guard gone} {r : Except Signal Value} {v : Value}
    (h : G.Sound st) (hr : G.AdmitsAll st r)
    (hv : (Walk.realOutcome r).map st.snapshot = .ok v) : G.AdmitsAll st v := by
  cases houtcome : Walk.realOutcome r with
  | error e =>
    rw [houtcome] at hv
    cases hv
  | ok u =>
    rw [houtcome] at hv
    cases hv
    exact h.snapshot fun c hc => hr c (Walk.closures_of_realOutcome houtcome ▸ hc)

/-- When a run begins at an environment, no function has scopes of the run around it. -/
theorem ofRun_start (hst : (made []).Sound st)
    (henv : ∀ frame ∈ env.frames, frame.table < st.tables.size) :
    (ofRun st.runs env).Sound (Code.start env st).2 ∧
      st.beginRun.2.Precedes (Code.start env st).2 ∧
      (ofRun st.runs env).AdmitsRun (Code.start env st).2
        ⟨.real, st.runs, (Code.start env st).1⟩ := by
  have hbegin : (ofRun st.runs env).Sound st.beginRun.2 := by
    refine ⟨List.forall_mem_nil _, fun v hv c hc => ?_⟩
    have hmade := hst.admits v hv.of_beginRun c hc
    exact {
      live := rfl
      opened := List.forall_mem_nil _
      run_lt := Nat.lt_succ_of_lt hmade.run_lt
      lt_size := hmade.lt_size
      scope := fun _ _ hmem => absurd hmem List.not_mem_nil
      own := fun hrun => absurd hmade.run_lt (hrun ▸ Nat.lt_irrefl _) }
  have hctx : OwnScopes st.runs env st.beginRun.2 ⟨.real, st.runs, env⟩ := {
    live := rfl
    opened := List.forall_mem_nil _
    run_lt := Nat.lt_succ_self _
    lt_size := henv
    scope := fun _ _ hmem => absurd hmem List.not_mem_nil
    own := fun _ => ⟨rfl, [], rfl, List.forall_mem_nil _⟩ }
  exact hbegin.start hctx

namespace Sound

/-- The end of a run keeps what is known of functions at any time. -/
theorem endRun (h : (made gone).Sound st) : (made gone).Sound st.endRun where
  empty table hmem := by
    rw [Store.getElem?_tables_endRun, h.empty table hmem]
    split <;> rfl
  admits v hv c hc :=
    (h.admits v hv.of_endRun c hc).grow (Nat.le_refl _) (Nat.le_of_eq Store.size_tables_endRun.symm)

/-- Between the beginning and the end of a run no table and no run is taken back. -/
theorem finish {st₁ : Store} (h : (made gone).Sound st₁) (hprec : st.beginRun.2.Precedes st₁) :
    (made gone).Sound st₁.endRun ∧ st.runs ≤ st₁.endRun.runs ∧
      st.tables.size ≤ st₁.endRun.tables.size := by
  refine ⟨h.endRun, hprec.runs ▸ Nat.le_succ _, ?_⟩
  rw [Store.size_tables_endRun]
  exact hprec.size

theorem beginRun (h : (made gone).Sound st) : (made gone).Sound st.beginRun.2 where
  empty := h.empty
  admits v hv c hc := (h.admits v hv.of_beginRun c hc).grow (Nat.le_succ _) (Nat.le_refl _)

end Sound

end Guard

namespace Code

variable {gone : List Nat} {fuel : Nat} {env : Env} {code : Code} {st st' : Store}
  {result : Except RunError Value}

/-- Whether a function is in the result of a run or in the store that it leaves. -/
def Leaves (result : Except RunError Value) (st : Store) (c : Closure) : Prop :=
  (∃ v, result = .ok v ∧ c ∈ v.closures) ∨ ∃ v, st.Holds v ∧ c ∈ v.closures

/-- At the end of a run at an environment its scopes are gone. The functions of the run that are
left have no other frames in front of the environment. -/
theorem exists_gone (hst : (Guard.made []).Sound st)
    (henv : ∀ frame ∈ env.frames, frame.table < st.tables.size)
    (h : code.evaluate fuel env st = some (result, st')) :
    ∃ gone, (∀ table ∈ gone, st.tables.size ≤ table) ∧ (Guard.made gone).Sound st' ∧
      ∀ c, Leaves result st' c → Made gone st' c.context ∧
        (c.context.run = st.runs → c.context.mode = .real ∧ c.context.env.without gone = env) := by
  obtain ⟨hsound, hprec, hctx⟩ := Guard.ofRun_start hst henv
  rw [evaluate_eq_map] at h
  obtain ⟨⟨r, st₁⟩, hrun, heq⟩ := Option.map_eq_some_iff.1 h
  cases heq
  obtain ⟨-, hkept⟩ := (Walk.matched (Guard.ofRun st.runs env) fuel).code code hctx hsound
  obtain ⟨hsound₁, hprec₁, hr⟩ := hkept r st₁ hrun
  have hleft : ∀ c, Leaves ((Walk.realOutcome r).map st₁.snapshot) st₁.endRun c →
      OwnScopes st.runs env st₁ c.context := by
    rintro c (⟨v, hv, hc⟩ | ⟨v, hv, hc⟩)
    · exact hsound₁.admitsAll_outcome hr hv c hc
    · exact hsound₁.admits v hv.of_endRun c hc
  -- the scopes of the run are new, and all of them are there at its end
  obtain ⟨added, hopened, hadded⟩ := (hprec.trans hprec₁).opened
  have hnew : ∀ table ∈ st₁.opened, st.tables.size ≤ table ∧ table < st₁.tables.size := by
    intro table hmem
    rw [hopened] at hmem
    exact hadded table ((List.mem_append.1 hmem).resolve_right List.not_mem_nil)
  have hmade : ∀ c, Leaves ((Walk.realOutcome r).map st₁.snapshot) st₁.endRun c →
      Made st₁.opened st₁.endRun c.context := by
    intro c hc
    have hown := hleft c hc
    refine ⟨hown.run_lt, fun frame hmem => ?_, hown.scope⟩
    rw [Store.size_tables_endRun]
    exact hown.lt_size frame hmem
  refine ⟨st₁.opened, fun table hmem => (hnew table hmem).1, ⟨fun table hmem => ?_, ?_⟩,
    fun c hc => ⟨hmade c hc, fun hrun => ?_⟩⟩
  · rw [Store.getElem?_tables_endRun, if_pos hmem,
      Array.getElem?_eq_getElem (hnew table hmem).2, Option.map_some]
  · exact fun v hv c hc => hmade c (.inr ⟨v, hv, hc⟩)
  · obtain ⟨hmode, inner, hinner, hmem⟩ := (hleft c hc).own hrun
    rw [hinner]
    exact ⟨hmode, Env.without_append hmem fun frame hframe hgone =>
      absurd (henv frame hframe) (Nat.not_lt.2 (hnew _ hgone).1)⟩

/-- A run does the same without frames that are gone, and leaves them empty. -/
theorem evaluate_without (hst : (Guard.made gone).Sound st)
    (henv : ∀ frame ∈ env.frames, frame.table < st.tables.size)
    (hscope : ∀ frame ∈ env.frames, frame.table ∈ gone → frame.kind = .scope) :
    code.evaluate fuel (env.without gone) (st.without gone) =
        (code.evaluate fuel env st).map
          (Prod.map (Except.map (Value.without gone)) (Store.without gone)) ∧
      ∀ r st', code.evaluate fuel env st = some (r, st') → (Guard.made gone).Sound st' ∧
        st.runs ≤ st'.runs ∧ st.tables.size ≤ st'.tables.size ∧
        ∀ v, r = .ok v → (Guard.made gone).AdmitsAll st' v := by
  have hctx : Made gone st.beginRun.2 ⟨.real, st.runs, env⟩ :=
    ⟨Nat.lt_succ_self _, henv, hscope⟩
  obtain ⟨hsound, hprec, hctx⟩ := hst.beginRun.start hctx
  obtain ⟨heq, hkept⟩ := (Walk.matched (Guard.made gone) fuel).code code hctx hsound
  -- the scope of the program is new, so it is there without the frames as well
  have hstart : start (env.without gone) (st.without gone) = _ := start_without hst.size_notMem
  constructor
  · have heq : Walk.code fuel ⟨.real, (st.without gone).runs, (start env st).1.without gone⟩ code
        ((start env st).2.without gone) = _ := heq
    rw [evaluate_eq_map, evaluate_eq_map, hstart]
    dsimp only
    rw [heq, Option.map_map, Option.map_map]
    refine Option.map_congr fun found _ => ?_
    obtain ⟨r, st₁⟩ := found
    simp only [Function.comp, Prod.map_apply, Walk.realOutcome_without, Store.endRun_without]
    cases Walk.realOutcome r with
    | error e => rfl
    | ok v => simp only [Except.map, Store.snapshot_without]
  · intro result st' h
    rw [evaluate_eq_map] at h
    obtain ⟨⟨r, st₁⟩, hrun, heq⟩ := Option.map_eq_some_iff.1 h
    cases heq
    obtain ⟨hsound₁, hprec₁, hr⟩ := hkept r st₁ hrun
    obtain ⟨hsound', hruns, hsize⟩ := hsound₁.finish (hprec.trans hprec₁)
    refine ⟨hsound', hruns, hsize, fun v hv c hc => ?_⟩
    exact (hsound₁.admitsAll_outcome hr hv c hc).grow (Nat.le_refl _)
      (Nat.le_of_eq Store.size_tables_endRun.symm)

/-- Looking for completions leaves the frames that are gone empty. -/
theorem sound_of_complete {cursor : Nat} {found : Except RunError (Option Suggestions)}
    (hst : (Guard.made gone).Sound st)
    (henv : ∀ frame ∈ env.frames, frame.table < st.tables.size)
    (hscope : ∀ frame ∈ env.frames, frame.table ∈ gone → frame.kind = .scope)
    (h : code.complete fuel env cursor st = some (found, st')) :
    (Guard.made gone).Sound st' ∧ st.runs ≤ st'.runs ∧ st.tables.size ≤ st'.tables.size := by
  have hctx : Made gone st.beginRun.2 ⟨.speculative cursor, st.runs, env⟩ :=
    ⟨Nat.lt_succ_self _, henv, hscope⟩
  have hmatches : Run.Matches (Guard.made gone) st.beginRun.2
      (speculate fuel ⟨.speculative cursor, st.runs, env⟩ code)
      (speculate fuel (Context.without gone ⟨.speculative cursor, st.runs, env⟩) code) :=
    Walk.matches_behindShadow (G := Guard.made gone) (fun heq => by cases heq) hctx
      fun ctx st₁ _ hctx => Walk.matches_settleSpeculative
        ((Walk.matched (Guard.made gone) fuel).code code hctx)
  obtain ⟨-, hkept⟩ := hmatches hst.beginRun
  simp only [complete] at h
  split at h
  · cases h
  all_goals
    next hrun =>
    cases h
    obtain ⟨hsound, hprec, -⟩ := hkept _ _ hrun
    exact hsound.finish hprec

end Code

end SearchScript
