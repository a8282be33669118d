import SearchScript.Proofs.Completion.Offered

/-!
# Looking names up and listing them

A name is looked up through the frames of an environment, then at its host, and the visible names
are listed along the same way. Through however many scopes and shadows, and whatever was bound and
looked up before, both agree on every name but one: a host finds its built-in function without
binding it. That name is listed once something binds it, if only a shadow that keeps a copy of what
it finds further out.

## Key definitions

- `Chain.Operation`: what can be done with a chain of environments
- `Chain.Copies`: whether operations leave a copy of the built-in function in a shadow

## Key results

- `Store.mem_namesThrough_iff`: the visible names are those of the frames and of the host
- `Chain.mem_visibleNames_perform_iff`, `Chain.mem_visibleNames_run_iff`: what becomes visible by
  one operation, and by many
- `Chain.visibleNames_run`: what is listed after any operations
-/

namespace SearchScript

/-- An environment that frames can be put in front of, with the store. -/
structure Chain where
  env : Env
  store : Store

/-- The environment behind the innermost frames of another one. -/
def Env.behind (env : Env) (depth : Nat) : Env := { env with frames := env.frames.drop depth }

namespace Chain

/-- What can be done with a chain: a frame is put in front, a name is bound, or a name is looked up,
the last two behind any number of frames. -/
inductive Operation where
  | enter (kind : FrameKind)
  | bind (depth : Nat) (name : String) (v : Value)
  | resolve (depth : Nat) (name : String)

/-- The chain after an operation. A lookup that finds nothing changes nothing. -/
def perform (chain : Chain) : Operation → Chain
  | .enter kind =>
    let (env, st) := chain.store.newFrame kind [] chain.env
    ⟨env, st⟩
  | .bind depth name v => { chain with store := chain.store.bind (chain.env.behind depth) name v }
  | .resolve depth name =>
    match chain.store.resolve? (chain.env.behind depth) name with
    | some (_, st) => { chain with store := st }
    | none => chain

/-- The chain after operations, one after another. -/
def run (chain : Chain) (ops : List Operation) : Chain := ops.foldl perform chain

/-- The chain of a new host that is given names. -/
def atHost (st : Store) (globals : Table Value) (files : Option FileStore) : Chain :=
  let (env, st) := st.newHost { globals, files }
  ⟨env, st⟩

/-- The kinds of the frames, the innermost first. -/
def kinds (chain : Chain) : List FrameKind := chain.env.frames.map (·.kind)

/-- Whether the built-in function is looked up in front of a shadow, over frames of these kinds and
those that are put in front of them. -/
def Copies : List FrameKind → List Operation → Prop
  | _, [] => False
  | kinds, .enter kind :: ops => Copies (kind :: kinds) ops
  | kinds, .bind _ _ _ :: ops => Copies kinds ops
  | kinds, .resolve depth name :: ops =>
    name = "File" ∧ .shadow ∈ kinds.drop depth ∨ Copies kinds ops

/-- Whether the store has the tables of the frames and the host. -/
structure Stored (chain : Chain) : Prop where
  frames : ∀ frame ∈ chain.env.frames, frame.table < chain.store.tables.size
  host : chain.env.host < chain.store.hosts.size

end Chain

namespace Store

variable {st st' : Store} {host : Nat} {name bound : String} {v : Value} {frame : Frame}
  {frames inner : List Frame} {env : Env}

/-! ## The names of frames -/

/-- The names that are visible through frames are those of the frames and those of the host. -/
theorem mem_namesThrough_iff (st : Store) (host : Nat) (name : String) (frames : List Frame) :
    name ∈ st.namesThrough host frames ↔
      (∃ frame ∈ frames, name ∈ (st.table frame).names) ∨ name ∈ st.namesThrough host [] := by
  induction frames with
  | nil => simp
  | cons frame outer ih =>
    show name ∈ mergeNames _ _ ↔ _
    rw [mem_mergeNames, ih, List.exists_mem_cons_iff, or_assoc]

theorem mem_table_bindIn_iff {other : Frame} (hframe : frame.table < st.tables.size) :
    name ∈ ((st.bindIn frame bound v).table other).names ↔
      name ∈ (st.table other).names ∨ name = bound ∧ frame.table = other.table := by
  unfold Store.table Store.bindIn
  rw [Array.getElem?_modify]
  by_cases htable : frame.table = other.table
  · have hsome : st.tables[other.table]? = some st.tables[frame.table] := by
      rw [← htable]
      exact Array.getElem?_eq_getElem hframe
    rw [if_pos htable, hsome, Option.map_some, Option.getD_some, Option.getD_some,
      Table.mem_names_insert, or_comm, and_iff_left htable]
  · rw [if_neg htable]
    exact (or_iff_left fun h => htable h.2).symm

/-- Binding a name in a frame makes it visible through the frame, and no other name. -/
theorem mem_namesThrough_bindIn_iff (hframe : frame.table < st.tables.size)
    (hmem : frame ∈ frames) : name ∈ (st.bindIn frame bound v).namesThrough host frames ↔
      name ∈ st.namesThrough host frames ∨ name = bound := by
  have hhost : (st.bindIn frame bound v).namesThrough host [] = st.namesThrough host [] := rfl
  rw [mem_namesThrough_iff, hhost, mem_namesThrough_iff st host name frames]
  constructor
  · rintro (⟨other, hother, hname⟩ | hname)
    · rcases (mem_table_bindIn_iff hframe).1 hname with hname | ⟨rfl, -⟩
      · exact .inl (.inl ⟨other, hother, hname⟩)
      · exact .inr rfl
    · exact .inl (.inr hname)
  · rintro ((⟨other, hother, hname⟩ | hname) | rfl)
    · exact .inl ⟨other, hother, (mem_table_bindIn_iff hframe).2 (.inl hname)⟩
    · exact .inr hname
    · exact .inl ⟨frame, hmem, (mem_table_bindIn_iff hframe).2 (.inr ⟨rfl, rfl⟩)⟩

/-- Binding a name at the host makes it visible, and no other name. -/
theorem mem_namesThrough_bindAtHost_iff (hhost : host < st.hosts.size) :
    name ∈ (st.bindAtHost host bound v).namesThrough host frames ↔
      name ∈ st.namesThrough host frames ∨ name = bound := by
  have hatHost : name ∈ (st.bindAtHost host bound v).namesThrough host [] ↔
      name ∈ st.namesThrough host [] ∨ name = bound := by
    unfold Store.namesThrough Store.bindAtHost
    dsimp only
    rw [Array.getElem?_modify, if_pos rfl, Array.getElem?_eq_getElem hhost, Option.map_some,
      Option.getD_some, Option.getD_some, mem_mergeNames, mem_mergeNames, Table.mem_names_insert]
    tauto
  have htables (frame : Frame) : (st.bindAtHost host bound v).table frame = st.table frame := rfl
  simp only [mem_namesThrough_iff _ _ _ frames, hatHost, htables, or_assoc]

/-- What is visible in an environment is visible with more frames in front, too. -/
theorem mem_visibleNames_of_behind {depth : Nat} (h : name ∈ st.visibleNames (env.behind depth)) :
    name ∈ st.visibleNames env := by
  rcases (mem_namesThrough_iff ..).1 h with ⟨frame, hmem, hname⟩ | hname
  · exact (mem_namesThrough_iff ..).2 (.inl ⟨frame, List.mem_of_mem_drop hmem, hname⟩)
  · exact (mem_namesThrough_iff ..).2 (.inr hname)

/-- A binding in an environment makes the name visible in each environment with frames in front. -/
theorem mem_visibleNames_bind_iff {depth : Nat}
    (hframes : ∀ frame ∈ env.frames, frame.table < st.tables.size)
    (hhost : env.host < st.hosts.size) :
    name ∈ (st.bind (env.behind depth) bound v).visibleNames env ↔
      name ∈ st.visibleNames env ∨ name = bound := by
  unfold Store.bind Store.visibleNames Env.behind
  dsimp only
  split
  · next frame outer hbehind =>
    have hmem : frame ∈ env.frames := by
      apply List.mem_of_mem_drop
      rw [hbehind]
      exact List.mem_cons_self
    exact mem_namesThrough_bindIn_iff (hframes frame hmem) hmem
  · exact mem_namesThrough_bindAtHost_iff hhost

/-! ## Looking names up -/

/-- The built-in function can always be looked up. -/
theorem isSome_resolveThrough_file (st : Store) (host : Nat) (frames : List Frame) :
    (st.resolveThrough host "File" frames).isSome = true := by
  induction frames with
  | nil =>
    unfold Store.resolveThrough Store.hostValue?
    rw [Option.isSome_map]
    dsimp only
    split <;> rfl
  | cons frame outer ih =>
    obtain ⟨⟨v, st'⟩, hres⟩ := Option.isSome_iff_exists.1 ih
    unfold Store.resolveThrough
    cases (st.table frame).find? "File" with
    | some v => rfl
    | none => cases hkind : frame.kind <;> simp only [hres] <;> rfl

theorem isSome_resolve?_file (st : Store) (env : Env) :
    (st.resolve? env "File").isSome = true :=
  isSome_resolveThrough_file st env.host env.frames

/-- A lookup keeps the frames and the hosts. -/
theorem size_of_resolveThrough (h : st.resolveThrough host name inner = some (v, st')) :
    st'.tables.size = st.tables.size ∧ st'.hosts.size = st.hosts.size := by
  induction inner generalizing v st' with
  | nil =>
    obtain ⟨w, -, hw⟩ := Option.map_eq_some_iff.1 h
    cases hw
    exact ⟨rfl, rfl⟩
  | cons frame outer ih =>
    unfold Store.resolveThrough at h
    split at h
    · cases h
      exact ⟨rfl, rfl⟩
    · split at h
      · exact ih h
      · cases h
      · next hfound =>
        cases h
        obtain ⟨htables, hhosts⟩ := ih hfound
        exact ⟨(Array.size_modify ..).trans htables, hhosts⟩

/-- A lookup makes no name visible but the one that is looked up, and that one if there is a shadow
on the way. -/
theorem mem_namesThrough_of_resolveThrough_iff
    (hstored : ∀ frame ∈ inner, frame.table < st.tables.size)
    (hsub : ∀ frame ∈ inner, frame ∈ frames)
    (h : st.resolveThrough host bound inner = some (v, st')) :
    name ∈ st'.namesThrough host frames ↔
      name ∈ st.namesThrough host frames ∨ name = bound ∧ .shadow ∈ inner.map (·.kind) := by
  induction inner generalizing v st' with
  | nil =>
    obtain ⟨w, -, hw⟩ := Option.map_eq_some_iff.1 h
    cases hw
    simp
  | cons frame outer ih =>
    rw [List.forall_mem_cons] at hstored hsub
    unfold Store.resolveThrough at h
    split at h
    · next hfind =>
      -- the name is visible already
      cases h
      refine (or_iff_left_of_imp ?_).symm
      rintro ⟨rfl, -⟩
      exact (mem_namesThrough_iff ..).2
        (.inl ⟨frame, hsub.1, (Table.isSome_find? _ _).1 (by rw [hfind]; rfl)⟩)
    · split at h
      · next hkind =>
        rw [ih hstored.2 hsub.2 h, List.map_cons, hkind]
        simp
      · cases h
      · next found w stFound hkind hfound =>
        cases h
        have hframe : frame.table < (stFound.newCell w).2.tables.size :=
          (size_of_resolveThrough hfound).1.symm ▸ hstored.1
        have hnewCell : name ∈ (stFound.newCell w).2.namesThrough host frames ↔
            name ∈ stFound.namesThrough host frames := by
          rw [mem_namesThrough_iff, mem_namesThrough_iff stFound host name frames]
          exact Iff.rfl
        refine (mem_namesThrough_bindIn_iff hframe hsub.1).trans ?_
        rw [hnewCell, ih hstored.2 hsub.2 hfound, List.map_cons, hkind]
        simp only [List.mem_cons, true_or, and_true]
        tauto

end Store

namespace Chain

variable {st : Store} {chain : Chain} {op : Operation} {ops : List Operation} {name : String}
  {depth : Nat} {globals : Table Value}

theorem kinds_drop (chain : Chain) (depth : Nat) :
    (chain.env.behind depth).frames.map (·.kind) = chain.kinds.drop depth :=
  List.map_drop ..

/-! ## One operation -/

/-- An operation keeps the frames and the host in the store. -/
theorem Stored.perform (h : chain.Stored) (op : Operation) : (chain.perform op).Stored := by
  obtain ⟨hframes, hhost⟩ := h
  cases op with
  | enter kind =>
    refine ⟨?_, hhost⟩
    have hnew : chain.store.tables.size < (chain.perform (.enter kind)).store.tables.size := by
      simp [Chain.perform, Store.newFrame]
    exact List.forall_mem_cons.2 ⟨hnew, fun frame hmem => Nat.lt_trans (hframes frame hmem) hnew⟩
  | bind depth name v =>
    unfold Chain.perform Store.bind
    dsimp only
    split
    · exact ⟨fun frame hmem => by simpa [Store.bindIn] using hframes frame hmem, hhost⟩
    · exact ⟨hframes, by simpa [Store.bindAtHost] using hhost⟩
  | resolve depth name =>
    unfold Chain.perform
    dsimp only
    split
    · next hres =>
      obtain ⟨htables, hhosts⟩ := Store.size_of_resolveThrough hres
      exact ⟨fun frame hmem => htables.symm ▸ hframes frame hmem, hhosts.symm ▸ hhost⟩
    · exact ⟨hframes, hhost⟩

/-- An operation keeps the tables in order. -/
theorem sorted_perform (h : chain.store.Sorted) (op : Operation) :
    (chain.perform op).store.Sorted := by
  cases op with
  | enter kind => exact h.push List.Pairwise.nil
  | bind depth name v => exact h.bind _ name v
  | resolve depth name =>
    unfold Chain.perform
    dsimp only
    split
    · next hres => exact h.resolveThrough hres
    · exact h

/-- What becomes visible by an operation: the name that is bound, and the built-in function where a
shadow copies it. -/
theorem mem_visibleNames_perform_iff (h : chain.Stored) (op : Operation) :
    name ∈ (chain.perform op).store.visibleNames (chain.perform op).env ↔
      name ∈ chain.store.visibleNames chain.env ∨ (∃ depth v, op = .bind depth name v) ∨
        name = "File" ∧ Copies chain.kinds [op] := by
  cases op with
  | enter kind =>
    -- the new table is empty and the others stay, so nothing becomes visible
    have htable : ∀ frame ∈ chain.env.frames,
        (chain.perform (.enter kind)).store.table frame = chain.store.table frame := by
      intro frame hmem
      simp [perform, Store.newFrame, Store.table, Array.getElem?_push,
        Nat.ne_of_lt (h.frames frame hmem)]
    have hnew : (chain.perform (.enter kind)).store.table ⟨kind, chain.store.tables.size⟩ = [] := by
      simp [perform, Store.newFrame, Store.table]
    have hsame : name ∈ (chain.perform (.enter kind)).store.visibleNames
        (chain.perform (.enter kind)).env ↔ name ∈ chain.store.visibleNames chain.env := by
      unfold Store.visibleNames
      rw [Store.mem_namesThrough_iff, Store.mem_namesThrough_iff chain.store _ _ chain.env.frames]
      show (∃ frame ∈ ⟨kind, chain.store.tables.size⟩ :: chain.env.frames, _) ∨
        name ∈ chain.store.namesThrough chain.env.host [] ↔ _
      rw [List.exists_mem_cons_iff, hnew]
      refine or_congr_left ((or_iff_right List.not_mem_nil).trans ?_)
      exact exists_congr fun frame => and_congr_right fun hmem => by rw [htable frame hmem]
    rw [hsame]
    simp [Copies]
  | bind depth bound v =>
    refine (Store.mem_visibleNames_bind_iff h.frames h.host).trans ?_
    simp [Copies, eq_comm]
  | resolve depth sought =>
    have hcopies : Copies chain.kinds [.resolve depth sought] ↔
        sought = "File" ∧ .shadow ∈ chain.kinds.drop depth := by simp [Copies]
    unfold perform
    dsimp only
    split
    · next v st' hres =>
      have hsub : ∀ frame ∈ (chain.env.behind depth).frames, frame ∈ chain.env.frames :=
        fun frame hmem => List.mem_of_mem_drop hmem
      refine (Store.mem_namesThrough_of_resolveThrough_iff
        (fun frame hmem => h.frames frame (hsub frame hmem)) hsub hres).trans ?_
      rw [kinds_drop, hcopies]
      by_cases hfile : sought = "File"
      · simp [hfile]
        tauto
      · -- any other name is visible before it can be looked up
        have hvisible : name = sought → name ∈ chain.store.visibleNames chain.env := by
          rintro rfl
          have hsome : (chain.store.resolve? (chain.env.behind depth) name).isSome = true := by
            rw [hres]
            rfl
          exact Store.mem_visibleNames_of_behind ((Store.mem_visibleNames_iff hfile).2 hsome)
        simp [hfile]
        tauto
    · next hres =>
      -- what cannot be found is not the built-in function, which is found everywhere
      have hne : sought ≠ "File" := by
        rintro rfl
        have hsome := Store.isSome_resolve?_file chain.store (chain.env.behind depth)
        rw [hres] at hsome
        cases hsome
      simp [hcopies, hne]

/-! ## Many operations -/

theorem copies_cons_iff (chain : Chain) (op : Operation) (ops : List Operation) :
    Copies chain.kinds (op :: ops) ↔
      Copies chain.kinds [op] ∨ Copies (chain.perform op).kinds ops := by
  cases op with
  | enter kind => exact (or_iff_right id).symm
  | bind depth name v => exact (or_iff_right id).symm
  | resolve depth name =>
    have hkinds : (chain.perform (.resolve depth name)).kinds = chain.kinds := by
      unfold perform
      dsimp only
      split <;> rfl
    rw [hkinds]
    simp [Copies]

theorem Stored.run (h : chain.Stored) (ops : List Operation) : (chain.run ops).Stored := by
  induction ops generalizing chain with
  | nil => exact h
  | cons op ops ih => exact ih (h.perform op)

theorem sorted_run (h : chain.store.Sorted) (ops : List Operation) :
    (chain.run ops).store.Sorted := by
  induction ops generalizing chain with
  | nil => exact h
  | cons op ops ih => exact ih (sorted_perform h op)

/-- What becomes visible by operations. -/
theorem mem_visibleNames_run_iff (h : chain.Stored) (ops : List Operation) :
    name ∈ (chain.run ops).store.visibleNames (chain.run ops).env ↔
      name ∈ chain.store.visibleNames chain.env ∨
        (∃ depth v, Operation.bind depth name v ∈ ops) ∨
        name = "File" ∧ Copies chain.kinds ops := by
  induction ops generalizing chain with
  | nil => simp [run, Copies]
  | cons op ops ih =>
    rw [show chain.run (op :: ops) = (chain.perform op).run ops from rfl, ih (h.perform op),
      mem_visibleNames_perform_iff h op, copies_cons_iff chain op ops]
    simp only [List.mem_cons, exists_or, eq_comm, and_or_left]
    rw [or_assoc, or_or_or_comm]

/-! ## Chains over a new host -/

theorem stored_atHost (st : Store) (globals : Table Value) (files : Option FileStore) :
    (atHost st globals files).Stored where
  frames := List.forall_mem_nil _
  host := by simp [atHost, Store.newHost]

theorem visibleNames_atHost (st : Store) (globals : Table Value) (files : Option FileStore) :
    (atHost st globals files).store.visibleNames (atHost st globals files).env = globals.names := by
  simp [atHost, Store.newHost, Store.visibleNames, Store.namesThrough, Store.mergeNames,
    Table.names]

/-- What is listed over a new host after any operations, behind any number of frames. No name is
listed twice. Each name that can be looked up is listed, and no other name, but for the built-in
function, which can always be looked up. The names that are listed are those given to the host,
those bound by an operation, and that of the built-in function if a shadow has a copy of it. -/
theorem visibleNames_run (hst : st.Sorted) (hglobals : globals.names.Pairwise (· < ·))
    (files : Option FileStore) (ops : List Operation) :
    let chain := (atHost st globals files).run ops
    (∀ depth, (chain.store.visibleNames (chain.env.behind depth)).Nodup ∧
      (chain.store.resolve? (chain.env.behind depth) "File").isSome = true ∧
      ∀ name ≠ "File", name ∈ chain.store.visibleNames (chain.env.behind depth) ↔
        (chain.store.resolve? (chain.env.behind depth) name).isSome = true) ∧
      ∀ name, name ∈ chain.store.visibleNames chain.env ↔
        name ∈ globals.names ∨ (∃ depth v, Operation.bind depth name v ∈ ops) ∨
          name = "File" ∧ Copies [] ops := by
  intro chain
  have hsorted : chain.store.Sorted :=
    sorted_run (hst.newHost List.Pairwise.nil hglobals) ops
  refine ⟨fun depth => ⟨hsorted.nodup_visibleNames _, Store.isSome_resolve?_file _ _, ?_⟩, ?_⟩
  · exact fun name hname => Store.mem_visibleNames_iff hname
  · intro name
    rw [mem_visibleNames_run_iff (stored_atHost st globals files) ops, visibleNames_atHost]
    exact Iff.rfl

/-- A name bound at the host and the built-in function, looked up in front of two scopes with a
shadow between them. -/
theorem visibleNames_run_of_shadow :
    let ops : List Operation := [.enter .scope, .enter .shadow, .enter .scope,
      .bind 3 "n" (.boolean true), .resolve 0 "n", .resolve 0 "File"]
    let chain := (atHost {} [("g", .null)] none).run ops
    (Store.Sorted {} ∧ (Table.names [("g", Value.null)]).Pairwise (· < ·)) ∧
      (chain.store.visibleNames chain.env).Nodup ∧
      ("File" ∈ chain.store.visibleNames chain.env ∧ "n" ∈ chain.store.visibleNames chain.env ∧
        "g" ∈ chain.store.visibleNames chain.env) ∧
      (chain.store.resolve? (chain.env.behind 2) "File").isSome = true ∧
      "File" ∉ chain.store.visibleNames (chain.env.behind 2) := by
  intro ops chain
  have hst : Store.Sorted {} := ⟨by simp, by simp⟩
  have hglobals : (Table.names [("g", Value.null)]).Pairwise (· < ·) := List.pairwise_singleton ..
  obtain ⟨hlisted, hnames⟩ := visibleNames_run hst hglobals none ops
  refine ⟨⟨hst, hglobals⟩, (hlisted 0).1, ⟨(hnames _).2 ?_, (hnames _).2 ?_, (hnames _).2 ?_⟩,
    (hlisted 2).2.1, by decide +kernel⟩
  · exact .inr (.inr ⟨rfl, by simp [ops, Copies]⟩)
  · exact .inr (.inl ⟨3, .boolean true, by simp [ops]⟩)
  · exact .inl (by simp [Table.names])

end Chain

end SearchScript
