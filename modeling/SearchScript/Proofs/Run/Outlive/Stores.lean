import SearchScript.Proofs.Run.Outlive.Values
import SearchScript.Proofs.Run.Region

/-!
# Stores without some of their frames

If the frames of some tables hold no names and are scopes, then the store does the same without
them: a name is found where it was found before, since nothing is found in those frames, and what is
written goes elsewhere, since none of them is innermost. So every operation of the store commutes
with leaving the frames out.

What has to be known of the contexts of functions for this is a *guard*. It may depend on the store,
but must stay true while a program runs, also for the contexts of calls.

## Key definitions

- `Store.without`: a store with the frames of some tables left out of its functions
- `Store.Precedes`: how a store may change while a program runs
- `Guard`, `Guard.Sound`: what is known of the contexts of all functions in a store

## Key results

- `Guard.Sound.resolve?_without`: names are found without the frames
- `Guard.Sound.bind_without`, `Store.openFrame_without`: what is written is the same without them
- `Guard.Sound.bind`, `.openFrame`, `.newCell`, `.assign`: what is written keeps the store sound
-/

namespace SearchScript

/-- A table with the frames of some tables left out of its values. -/
def Table.without (gone : List Nat) (names : Table Value) : Table Value :=
  names.map fun entry => (entry.1, entry.2.without gone)

/-- A host with the frames of some tables left out of its values. -/
def Host.without (gone : List Nat) (h : Host) : Host :=
  { h with globals := h.globals.without gone, locals := h.locals.without gone }

namespace Store

/-- A store with the frames of some tables left out of all functions in it. -/
def without (gone : List Nat) (st : Store) : Store :=
  { st with
    slots := st.slots.map (Value.without gone)
    tables := st.tables.map (Table.without gone)
    hosts := st.hosts.map (Host.without gone)
    recorded := st.recorded.map (Value.without gone) }

/-- Whether a value is somewhere in a store. -/
inductive Holds (st : Store) : Value → Prop where
  | slot {v : Value} (h : v ∈ st.slots) : Holds st v
  | table {names : Table Value} {name : String} {v : Value} (h : names ∈ st.tables)
      (hname : (name, v) ∈ names) : Holds st v
  | globals {host : Host} {name : String} {v : Value} (h : host ∈ st.hosts)
      (hname : (name, v) ∈ host.globals) : Holds st v
  | locals {host : Host} {name : String} {v : Value} (h : host ∈ st.hosts)
      (hname : (name, v) ∈ host.locals) : Holds st v
  | recorded {v : Value} (h : v ∈ st.recorded) : Holds st v

/-- Whether a store may become another one while a program runs: the same run is going on, and the
frames that it has opened since are new. -/
structure Precedes (st st' : Store) : Prop where
  live : st'.live = st.live
  runs : st'.runs = st.runs
  size : st.tables.size ≤ st'.tables.size
  opened : ∃ added, st'.opened = added ++ st.opened ∧
    ∀ table ∈ added, st.tables.size ≤ table ∧ table < st'.tables.size

theorem Precedes.refl (st : Store) : st.Precedes st :=
  ⟨rfl, rfl, Nat.le_refl _, [], rfl, List.forall_mem_nil _⟩

theorem Precedes.trans {st st' st'' : Store} (h : st.Precedes st') (h' : st'.Precedes st'') :
    st.Precedes st'' where
  live := h'.live.trans h.live
  runs := h'.runs.trans h.runs
  size := Nat.le_trans h.size h'.size
  opened := by
    obtain ⟨added, heq, hadded⟩ := h.opened
    obtain ⟨added', heq', hadded'⟩ := h'.opened
    refine ⟨added' ++ added, by rw [heq', heq, List.append_assoc], fun table hmem => ?_⟩
    rcases List.mem_append.1 hmem with hmem | hmem
    · exact ⟨Nat.le_trans h.size (hadded' table hmem).1, (hadded' table hmem).2⟩
    · exact ⟨(hadded table hmem).1, Nat.lt_of_lt_of_le (hadded table hmem).2 h'.size⟩

variable {gone : List Nat} {st st' : Store} {v w target : Value} {frame : Frame} {name : String}
  {env : Env} {host run : Nat} {kind : FrameKind} {names : Table Value}

/-! ## Reading -/

theorem snapshot_without (v : Value) :
    (st.without gone).snapshot (v.without gone) = (st.snapshot v).without gone := by
  cases v with
  | cell slot =>
    simp only [Value.without, snapshot, without, Array.getElem?_map]
    cases st.slots[slot]? <;> rfl
  | _ => rfl

theorem find?_without : (names.without gone).find? name =
    (names.find? name).map (Value.without gone) := by
  induction names with
  | nil => rfl
  | cons entry rest ih =>
    rw [Table.without] at ih ⊢
    rw [List.map_cons, Table.find?, Table.find?, ih]
    split <;> rfl

theorem names_without : (names.without gone).names = names.names := by
  simp [Table.without, Table.names]

theorem insert_without : Table.insert name (v.without gone) (names.without gone) =
    (Table.insert name v names).without gone :=
  Table.insert_map (Value.without gone)

theorem table_without (frame : Frame) :
    (st.without gone).table frame = (st.table frame).without gone := by
  simp only [table, without, Array.getElem?_map]
  cases st.tables[frame.table]? <;> rfl

theorem host_without : (st.without gone).hosts[host]?.getD {} =
    (st.hosts[host]?.getD {}).without gone := by
  simp only [without, Array.getElem?_map]
  cases st.hosts[host]? <;> rfl

theorem hostValue?_without : (st.without gone).hostValue? host name =
    (st.hostValue? host name).map (Value.without gone) := by
  have hfind (h : Host) :
      (h.without gone).find? name = (h.find? name).map (Value.without gone) := by
    simp only [Host.find?, Host.without, find?_without]
    cases h.locals.find? name <;> rfl
  simp only [hostValue?, host_without, hfind]
  cases (st.hosts[host]?.getD {}).find? name with
  | some v => rfl
  | none =>
    by_cases hname : name = "File"
    · simp only [hname, if_true]
      rfl
    · simp only [hname, if_false]
      rfl

/-! ## Writing -/

theorem newCell_without : (st.without gone).newCell (v.without gone) =
    ((st.newCell v).1, (st.newCell v).2.without gone) := by
  simp only [newCell, snapshot_without]
  simp [without]

theorem assign_without : (st.without gone).assign (target.without gone) (v.without gone) =
    (st.assign target v).map (without gone) := by
  cases target with
  | cell slot =>
    simp only [Value.without, assign, snapshot_without, Except.map]
    simp [without, Array.map_setIfInBounds]
  | _ => simp [assign, Value.without, Value.type, Except.map]

theorem map_modify {α β : Type} {f : α → β} {g : α → α} {g' : β → β} (h : ∀ x, g' (f x) = f (g x))
    (xs : Array α) (i : Nat) : (xs.map f).modify i g' = (xs.modify i g).map f := by
  apply Array.ext_getElem?
  intro j
  simp only [Array.getElem?_modify, Array.getElem?_map]
  split
  · cases xs[j]? <;> simp [h]
  · rfl

theorem bindIn_without : (st.without gone).bindIn frame name (v.without gone) =
    (st.bindIn frame name v).without gone := by
  have hinsert (names : Table Value) : Table.insert name (v.without gone) (names.without gone) =
      (Table.insert name v names).without gone := insert_without
  simp only [bindIn, without, map_modify hinsert]

/-- A name is found where it is found without the frames of functions. -/
theorem resolveThrough_without {frames : List Frame} :
    (st.without gone).resolveThrough host name frames = (st.resolveThrough host name frames).map
      (Prod.map (Value.without gone) (Store.without gone)) := by
  induction frames with
  | nil =>
    simp only [resolveThrough, hostValue?_without, Option.map_map]
    rfl
  | cons frame outer ih =>
    simp only [resolveThrough, table_without, find?_without, ih]
    cases (st.table frame).find? name with
    | some v => rfl
    | none =>
      cases frame.kind with
      | scope => rfl
      | shadow =>
        -- a shadow keeps a copy of what it finds further out
        cases st.resolveThrough host name outer with
        | none => rfl
        | some found =>
          obtain ⟨v, st₁⟩ := found
          have hbind : ((st₁.newCell v).2.without gone).bindIn frame name (st₁.newCell v).1 =
              ((st₁.newCell v).2.bindIn frame name (st₁.newCell v).1).without gone :=
            bindIn_without (v := (st₁.newCell v).1)
          simp only [Option.map_some, Prod.map_apply, newCell_without, hbind]
          rfl

theorem bindAtHost_without : (st.without gone).bindAtHost host name (v.without gone) =
    (st.bindAtHost host name v).without gone := by
  let bind (w : Value) (h : Host) : Host := { h with locals := h.locals.insert name w }
  have hbind (h : Host) : bind (v.without gone) (h.without gone) = (bind v h).without gone := by
    simp only [bind, Host.without, insert_without]
  have hmodify := map_modify hbind st.hosts host
  simp only [bindAtHost, without]
  rw [hmodify]

theorem without_openFrame (h : st.tables.size ∉ gone) :
    (st.openFrame run kind names env).1.without gone =
      ⟨⟨kind, st.tables.size⟩ :: (env.without gone).frames, env.host⟩ := by
  rw [openFrame_fst, Env.without, List.filter_cons_of_pos (by simpa using h)]
  rfl

theorem openFrame_without (names : Table Value) (h : st.tables.size ∉ gone) :
    (st.without gone).openFrame run kind (names.without gone) (env.without gone) =
      ((st.openFrame run kind names env).1.without gone,
        (st.openFrame run kind names env).2.without gone) := by
  rw [without_openFrame h]
  simp only [openFrame, newFrame]
  by_cases hlive : st.live = some run <;> simp [without, hlive, Env.without]

theorem opened_openFrame : (st.openFrame run kind names env).2.opened =
    if st.live = some run then st.tables.size :: st.opened else st.opened := by
  by_cases hlive : st.live = some run <;> simp [openFrame, newFrame, hlive]

theorem precedes_openFrame : st.Precedes (st.openFrame run kind names env).2 := by
  by_cases hlive : st.live = some run
  · simp only [openFrame, newFrame, hlive, if_true]
    exact ⟨hlive.symm, rfl, by simp, [st.tables.size], rfl, by simp⟩
  · simp only [openFrame, newFrame, hlive, if_false]
    exact ⟨rfl, rfl, by simp, [], rfl, by simp⟩

/-! ## What a store holds after a change -/

theorem Holds.of_newCell (h : (st.newCell v).2.Holds w) : st.Holds w ∨ w = st.snapshot v := by
  cases h with
  | slot hmem =>
    rcases Array.mem_push.1 hmem with hmem | rfl
    · exact .inl (.slot hmem)
    · exact .inr rfl
  | table hmem hname => exact .inl (.table hmem hname)
  | globals hmem hname => exact .inl (.globals hmem hname)
  | locals hmem hname => exact .inl (.locals hmem hname)
  | recorded hmem => exact .inl (.recorded hmem)

theorem Holds.of_assign (hassign : st.assign target v = .ok st') (h : st'.Holds w) :
    st.Holds w ∨ w = st.snapshot v := by
  cases target with
  | cell slot =>
    cases hassign
    cases h with
    | slot hmem =>
      rcases Array.mem_or_eq_of_mem_setIfInBounds hmem with hmem | rfl
      · exact .inl (.slot hmem)
      · exact .inr rfl
    | table hmem hname => exact .inl (.table hmem hname)
    | globals hmem hname => exact .inl (.globals hmem hname)
    | locals hmem hname => exact .inl (.locals hmem hname)
    | recorded hmem => exact .inl (.recorded hmem)
  | _ => cases hassign

theorem mem_modify {α : Type} {xs : Array α} {i : Nat} {f : α → α} {y : α} (h : y ∈ xs.modify i f) :
    y ∈ xs ∨ ∃ x ∈ xs, y = f x := by
  obtain ⟨j, hj⟩ := Array.getElem?_of_mem h
  rw [Array.getElem?_modify] at hj
  split at hj
  · obtain ⟨x, hx, rfl⟩ := Option.map_eq_some_iff.1 hj
    exact .inr ⟨x, Array.mem_of_getElem? hx, rfl⟩
  · exact .inl (Array.mem_of_getElem? hj)

theorem Holds.of_bindIn (h : (st.bindIn frame name v).Holds w) : st.Holds w ∨ w = v := by
  cases h with
  | slot hmem => exact .inl (.slot hmem)
  | table hmem hname =>
    rcases mem_modify hmem with hmem | ⟨old, hold, rfl⟩
    · exact .inl (.table hmem hname)
    · rcases Table.mem_of_mem_insert hname with heq | hname
      · cases heq
        exact .inr rfl
      · exact .inl (.table hold hname)
  | globals hmem hname => exact .inl (.globals hmem hname)
  | locals hmem hname => exact .inl (.locals hmem hname)
  | recorded hmem => exact .inl (.recorded hmem)

theorem Holds.of_bindAtHost (h : (st.bindAtHost host name v).Holds w) : st.Holds w ∨ w = v := by
  cases h with
  | slot hmem => exact .inl (.slot hmem)
  | table hmem hname => exact .inl (.table hmem hname)
  | globals hmem hname =>
    simp only [bindAtHost] at hmem
    rcases mem_modify hmem with hmem | ⟨old, hold, rfl⟩
    · exact .inl (.globals hmem hname)
    · exact .inl (.globals hold hname)
  | locals hmem hname =>
    simp only [bindAtHost] at hmem
    rcases mem_modify hmem with hmem | ⟨old, hold, rfl⟩
    · exact .inl (.locals hmem hname)
    · rcases Table.mem_of_mem_insert hname with heq | hname
      · cases heq
        exact .inr rfl
      · exact .inl (.locals hold hname)
  | recorded hmem => exact .inl (.recorded hmem)

theorem Holds.of_openFrame (h : (st.openFrame run kind names env).2.Holds w) :
    st.Holds w ∨ ∃ name, (name, w) ∈ names := by
  cases h with
  | slot hmem => exact .inl (.slot (slots_openFrame ▸ hmem))
  | table hmem hname =>
    rw [tables_openFrame] at hmem
    rcases Array.mem_push.1 hmem with hmem | rfl
    · exact .inl (.table hmem hname)
    · exact .inr ⟨_, hname⟩
  | globals hmem hname => exact .inl (.globals (hosts_openFrame ▸ hmem) hname)
  | locals hmem hname => exact .inl (.locals (hosts_openFrame ▸ hmem) hname)
  | recorded hmem =>
    refine .inl (.recorded ?_)
    by_cases hlive : st.live = some run <;>
      simpa only [openFrame, newFrame, hlive, if_true, if_false] using hmem

end Store

/-! ## Guards -/

/-- What is known of the contexts in which functions were made, as the store stands. It stays true
while a program runs, and it becomes true of the contexts of calls. The frames that are gone are
scopes. -/
structure Guard (gone : List Nat) where
  Admits : Store → Context → Prop
  scope : ∀ {st ctx}, Admits st ctx → ∀ frame ∈ ctx.env.frames, frame.table ∈ gone →
    frame.kind = .scope
  mono : ∀ {st st' ctx}, st.Precedes st' → Admits st ctx → Admits st' ctx
  opened : ∀ {st ctx} kind names, (∀ table ∈ gone, table < st.tables.size) →
    (kind = .scope ∨ ctx.mode ≠ .real) → Admits st ctx →
      Admits (st.openFrame ctx.run kind names ctx.env).2
        { ctx with env := (st.openFrame ctx.run kind names ctx.env).1 }

namespace Guard

variable {gone : List Nat} (G : Guard gone) {st st' : Store} {v w target : Value} {name : String}
  {env : Env} {ctx : Context}

/-- Whether all functions in something were made in contexts that are admitted. -/
def AdmitsAll {α : Type} [HasClosures α] (st : Store) (a : α) : Prop :=
  ∀ c ∈ HasClosures.closures a, G.Admits st c.context

/-- Whether a program may run in a context: it is admitted, and its innermost frame is not gone. -/
def AdmitsRun (st : Store) (ctx : Context) : Prop :=
  G.Admits st ctx ∧ ∀ frame ∈ ctx.env.frames.head?, frame.table ∉ gone

/-- Whether the tables that are gone hold no names, and all functions in the store were made in
contexts that are admitted. -/
structure Sound (st : Store) : Prop where
  empty : ∀ table ∈ gone, st.tables[table]? = some []
  admits : ∀ v, st.Holds v → G.AdmitsAll st v

variable {G}

theorem AdmitsAll.mono {α : Type} [HasClosures α] {a : α} (h : G.AdmitsAll st a)
    (hprec : st.Precedes st') : G.AdmitsAll st' a :=
  fun c hc => G.mono hprec (h c hc)

theorem AdmitsRun.mono (h : G.AdmitsRun st ctx) (hprec : st.Precedes st') :
    G.AdmitsRun st' ctx :=
  ⟨G.mono hprec h.1, h.2⟩

theorem admitsAll_of_subset {α β : Type} [HasClosures α] [HasClosures β] {a : α} {b : β}
    (h : G.AdmitsAll st a) (hsub : HasClosures.closures b ⊆ HasClosures.closures a) :
    G.AdmitsAll st b :=
  fun c hc => h c (hsub hc)

theorem admitsAll_of_isData (h : v.isData = true) : G.AdmitsAll st v := by
  intro c hc
  rw [show HasClosures.closures v = v.closures from rfl, Value.closures_of_isData v h] at hc
  cases hc

namespace Sound

/-- A change keeps a store sound if it leaves the tables that are gone empty and stores nothing but
what is admitted. -/
theorem of_holds (h : G.Sound st) (hprec : st.Precedes st')
    (hempty : ∀ table ∈ gone, st'.tables[table]? = some [])
    (hholds : ∀ w, st'.Holds w → st.Holds w ∨ G.AdmitsAll st w) : G.Sound st' where
  empty := hempty
  admits w hw := by
    rcases hholds w hw with hw | hw
    · exact (h.admits w hw).mono hprec
    · exact hw.mono hprec

theorem lt_size (h : G.Sound st) : ∀ table ∈ gone, table < st.tables.size := fun table hmem =>
  (Array.getElem?_eq_some_iff.1 (h.empty table hmem)).1

theorem size_notMem (h : G.Sound st) : st.tables.size ∉ gone := fun hmem =>
  Nat.lt_irrefl _ (h.lt_size _ hmem)

theorem snapshot (h : G.Sound st) (hv : G.AdmitsAll st v) : G.AdmitsAll st (st.snapshot v) := by
  cases v with
  | cell slot =>
    rw [Store.snapshot]
    cases hslot : st.slots[slot]? with
    | none => exact List.forall_mem_nil _
    | some w => exact h.admits w (.slot (Array.mem_of_getElem? hslot))
  | _ => exact hv

theorem find? {frame : Frame} (h : G.Sound st) (hfind : (st.table frame).find? name = some v) :
    G.AdmitsAll st v := by
  unfold Store.table at hfind
  cases htable : st.tables[frame.table]? with
  | none =>
    rw [htable] at hfind
    cases hfind
  | some names =>
    rw [htable] at hfind
    exact h.admits v (.table (Array.mem_of_getElem? htable) (Table.mem_of_find? hfind))

theorem hostValue? {host : Nat} (h : G.Sound st) (hfind : st.hostValue? host name = some v) :
    G.AdmitsAll st v := by
  have hhost : ∀ v, (st.hosts[host]?.getD {}).find? name = some v → G.AdmitsAll st v := by
    intro v hv
    cases hhost : st.hosts[host]? with
    | none =>
      rw [hhost] at hv
      cases hv
    | some found =>
      rw [hhost, Option.getD_some, Host.find?] at hv
      split at hv
      · next hlocal =>
        cases hv
        exact h.admits _ (.locals (Array.mem_of_getElem? hhost) (Table.mem_of_find? hlocal))
      · exact h.admits _ (.globals (Array.mem_of_getElem? hhost) (Table.mem_of_find? hv))
  simp only [Store.hostValue?] at hfind
  split at hfind
  · next hw =>
    cases hfind
    exact hhost _ hw
  · split at hfind <;> cases hfind
    exact List.forall_mem_nil _

theorem newCell (h : G.Sound st) (hv : G.AdmitsAll st v) :
    G.Sound (st.newCell v).2 ∧ st.Precedes (st.newCell v).2 := by
  have hprec : st.Precedes (st.newCell v).2 :=
    ⟨rfl, rfl, Nat.le_refl _, [], rfl, List.forall_mem_nil _⟩
  refine ⟨h.of_holds hprec h.empty fun w hw => ?_, hprec⟩
  rcases hw.of_newCell with hw | rfl
  · exact .inl hw
  · exact .inr (h.snapshot hv)

theorem assign (h : G.Sound st) (hv : G.AdmitsAll st v) (hassign : st.assign target v = .ok st') :
    G.Sound st' ∧ st.Precedes st' := by
  have htables : st'.tables = st.tables ∧ st.Precedes st' := by
    cases target with
    | cell slot =>
      cases hassign
      exact ⟨rfl, rfl, rfl, Nat.le_refl _, [], rfl, List.forall_mem_nil _⟩
    | _ => cases hassign
  refine ⟨h.of_holds htables.2 (htables.1 ▸ h.empty) fun w hw => ?_, htables.2⟩
  rcases hw.of_assign hassign with hw | rfl
  · exact .inl hw
  · exact .inr (h.snapshot hv)

theorem newFunction (h : G.Sound st) (callable : Callable) :
    G.Sound (st.newFunction callable).2 ∧ st.Precedes (st.newFunction callable).2 := by
  have hprec : st.Precedes (st.newFunction callable).2 :=
    ⟨rfl, rfl, Nat.le_refl _, [], rfl, List.forall_mem_nil _⟩
  refine ⟨h.of_holds hprec h.empty fun w hw => .inl ?_, hprec⟩
  cases hw with
  | slot hmem => exact .slot hmem
  | table hmem hname => exact .table hmem hname
  | globals hmem hname => exact .globals hmem hname
  | locals hmem hname => exact .locals hmem hname
  | recorded hmem => exact .recorded hmem

theorem bindIn {frame : Frame} (h : G.Sound st) (hframe : frame.table ∉ gone)
    (hv : G.AdmitsAll st v) :
    G.Sound (st.bindIn frame name v) ∧ st.Precedes (st.bindIn frame name v) := by
  have hprec : st.Precedes (st.bindIn frame name v) :=
    ⟨rfl, rfl, by simp [Store.bindIn], [], rfl, List.forall_mem_nil _⟩
  refine ⟨h.of_holds hprec (fun table hmem => ?_) fun w hw => ?_, hprec⟩
  · -- the table that is written to is not gone
    have hne : frame.table ≠ table := fun heq => hframe (heq ▸ hmem)
    rw [Store.bindIn, Array.getElem?_modify, if_neg hne]
    exact h.empty table hmem
  · rcases hw.of_bindIn with hw | rfl
    · exact .inl hw
    · exact .inr hv

theorem bindAtHost {host : Nat} (h : G.Sound st) (hv : G.AdmitsAll st v) :
    G.Sound (st.bindAtHost host name v) ∧ st.Precedes (st.bindAtHost host name v) := by
  have hprec : st.Precedes (st.bindAtHost host name v) :=
    ⟨rfl, rfl, Nat.le_refl _, [], rfl, List.forall_mem_nil _⟩
  refine ⟨h.of_holds hprec h.empty fun w hw => ?_, hprec⟩
  rcases hw.of_bindAtHost with hw | rfl
  · exact .inl hw
  · exact .inr hv

theorem openFrame {run : Nat} {kind : FrameKind} {names : Table Value} (h : G.Sound st)
    (hnames : ∀ entry ∈ names, G.AdmitsAll st entry.2) :
    G.Sound (st.openFrame run kind names env).2 ∧
      st.Precedes (st.openFrame run kind names env).2 := by
  refine ⟨h.of_holds Store.precedes_openFrame (fun table hmem => ?_) fun w hw => ?_,
    Store.precedes_openFrame⟩
  · rw [Store.tables_openFrame, Array.getElem?_push,
      if_neg (Nat.ne_of_lt (h.lt_size table hmem))]
    exact h.empty table hmem
  · rcases hw.of_openFrame with hw | ⟨name, hname⟩
    · exact .inl hw
    · exact .inr (hnames _ hname)

theorem record {args : List Value} (h : G.Sound st) (hargs : G.AdmitsAll st args) :
    G.Sound { st with recorded := args.reverse ++ st.recorded } ∧
      st.Precedes { st with recorded := args.reverse ++ st.recorded } := by
  have hprec : st.Precedes { st with recorded := args.reverse ++ st.recorded } :=
    ⟨rfl, rfl, Nat.le_refl _, [], rfl, List.forall_mem_nil _⟩
  refine ⟨h.of_holds hprec h.empty fun w hw => ?_, hprec⟩
  cases hw with
  | slot hmem => exact .inl (.slot hmem)
  | table hmem hname => exact .inl (.table hmem hname)
  | globals hmem hname => exact .inl (.globals hmem hname)
  | locals hmem hname => exact .inl (.locals hmem hname)
  | recorded hmem =>
    rcases List.mem_append.1 hmem with hmem | hmem
    · exact .inr fun c hc => hargs c (Value.mem_allClosures.2 ⟨w, List.mem_reverse.1 hmem, hc⟩)
    · exact .inl (.recorded hmem)

/-- A program may run behind a new frame. -/
theorem admitsRun_openFrame {kind : FrameKind} {names : Table Value} (h : G.Sound st)
    (hkind : kind = .scope ∨ ctx.mode ≠ .real) (hctx : G.Admits st ctx) :
    G.AdmitsRun (st.openFrame ctx.run kind names ctx.env).2
      { ctx with env := (st.openFrame ctx.run kind names ctx.env).1 } := by
  refine ⟨G.opened kind names h.lt_size hkind hctx, fun frame hframe => ?_⟩
  rw [Store.openFrame_fst] at hframe
  cases hframe
  exact h.size_notMem

/-! ## The operations without the frames -/

theorem bind_without (h : ∀ frame ∈ env.frames.head?, frame.table ∉ gone) :
    (st.without gone).bind (env.without gone) name (v.without gone) =
      (st.bind env name v).without gone := by
  cases hframes : env.frames with
  | nil => simp only [Store.bind, Env.without, hframes, List.filter_nil, Store.bindAtHost_without]
  | cons frame outer =>
    have hframe : frame.table ∉ gone := h frame (by rw [hframes]; rfl)
    simp only [Store.bind, Env.without, hframes]
    rw [List.filter_cons_of_pos (by simpa using hframe)]
    exact Store.bindIn_without

theorem bind (h : G.Sound st) (hframe : ∀ frame ∈ env.frames.head?, frame.table ∉ gone)
    (hv : G.AdmitsAll st v) : G.Sound (st.bind env name v) ∧ st.Precedes (st.bind env name v) := by
  cases hframes : env.frames with
  | nil =>
    simp only [Store.bind, hframes]
    exact h.bindAtHost hv
  | cons frame outer =>
    simp only [Store.bind, hframes]
    exact h.bindIn (hframe frame (by rw [hframes]; rfl)) hv

/-- A frame that is gone has no names. -/
theorem table_eq_nil {frame : Frame} (h : G.Sound st) (hframe : frame.table ∈ gone) :
    st.table frame = [] := by
  rw [Store.table, h.empty _ hframe, Option.getD_some]

/-- A name is not found in frames that are gone. -/
theorem resolveThrough_filter (host : Nat) (name : String) {frames : List Frame} (h : G.Sound st)
    (hframes : ∀ frame ∈ frames, frame.table ∈ gone → frame.kind = .scope) :
    st.resolveThrough host name (frames.filter fun frame => frame.table ∉ gone) =
      st.resolveThrough host name frames := by
  induction frames with
  | nil => rfl
  | cons frame outer ih =>
    obtain ⟨hframe, houter⟩ := List.forall_mem_cons.1 hframes
    by_cases hgone : frame.table ∈ gone
    · -- a scope without names passes the search on
      rw [List.filter_cons_of_neg (by simpa using hgone), ih houter, Store.resolveThrough,
        h.table_eq_nil hgone, hframe hgone]
      rfl
    · rw [List.filter_cons_of_pos (by simpa using hgone), Store.resolveThrough, ih houter,
        Store.resolveThrough]

/-- What is found is admitted, and a shadow that copies it is not gone. -/
theorem of_resolveThrough {host : Nat} {frames : List Frame} (h : G.Sound st)
    (hframes : ∀ frame ∈ frames, frame.table ∈ gone → frame.kind = .scope)
    (hfound : st.resolveThrough host name frames = some (v, st')) :
    G.Sound st' ∧ st.Precedes st' ∧ G.AdmitsAll st' v := by
  induction frames generalizing v st' with
  | nil =>
    obtain ⟨w, hw, heq⟩ := Option.map_eq_some_iff.1 hfound
    cases heq
    exact ⟨h, .refl st, h.hostValue? hw⟩
  | cons frame outer ih =>
    obtain ⟨hframe, houter⟩ := List.forall_mem_cons.1 hframes
    rw [Store.resolveThrough] at hfound
    split at hfound
    · next hfind =>
      cases hfound
      exact ⟨h, .refl st, h.find? hfind⟩
    · split at hfound
      · exact ih houter hfound
      · cases hfound
      · next w st₁ hkind houterFound =>
        obtain ⟨h₁, hprec₁, hw⟩ := ih houter houterFound
        obtain ⟨h₂, hprec₂⟩ := h₁.newCell hw
        -- only a shadow is written to, and those that are gone are scopes
        have hgone : frame.table ∉ gone := fun hgone => by
          rw [hframe hgone] at hkind
          cases hkind
        obtain ⟨h₃, hprec₃⟩ := h₂.bindIn hgone (v := (st₁.newCell w).1) (List.forall_mem_nil _)
        cases hfound
        exact ⟨h₃, (hprec₁.trans hprec₂).trans hprec₃, List.forall_mem_nil _⟩

/-- A name is found without the frames that are gone. -/
theorem resolve?_without (h : G.Sound st) (hctx : G.Admits st ctx) :
    (st.without gone).resolve? (ctx.env.without gone) name =
      (st.resolve? ctx.env name).map (Prod.map (Value.without gone) (Store.without gone)) := by
  have hfilter := h.resolveThrough_filter ctx.env.host name (G.scope hctx)
  simp only [Store.resolve?, Env.without, Store.resolveThrough_without, hfilter]

/-- The names that are visible do not depend on the frames that are gone. -/
theorem visibleNames (h : G.Sound st) :
    (st.without gone).visibleNames (env.without gone) = st.visibleNames env := by
  have hmerge (names : List String) : Store.mergeNames [] names = names := by
    simp [Store.mergeNames]
  obtain ⟨frames, host⟩ := env
  simp only [Store.visibleNames, Env.without]
  induction frames with
  | nil =>
    simp only [List.filter_nil, Store.namesThrough, Store.host_without, Host.without,
      Store.names_without]
  | cons frame outer ih =>
    by_cases hgone : frame.table ∈ gone
    · rw [List.filter_cons_of_neg (by simpa using hgone), ih, Store.namesThrough,
        h.table_eq_nil hgone]
      exact (hmerge _).symm
    · rw [List.filter_cons_of_pos (by simpa using hgone)]
      simp only [Store.namesThrough, Store.table_without, Store.names_without, ih]

theorem bindParams (params : List String) {args : List Value} {names : Table Value}
    (h : G.Sound st) (hargs : ∀ v ∈ args, G.AdmitsAll st v)
    (hnames : ∀ entry ∈ names, G.AdmitsAll st entry.2) :
    (st.without gone).bindParams (names.without gone) params (args.map (Value.without gone)) =
        ((st.bindParams names params args).1.without gone,
          (st.bindParams names params args).2.without gone) ∧
      G.Sound (st.bindParams names params args).2 ∧
      st.Precedes (st.bindParams names params args).2 ∧
      ∀ entry ∈ (st.bindParams names params args).1,
        G.AdmitsAll (st.bindParams names params args).2 entry.2 := by
  -- one cell after the other is made, so the store and the names change with each parameter
  induction params generalizing st args names with
  | nil => exact ⟨rfl, h, .refl st, hnames⟩
  | cons param params ih =>
    have harg : G.AdmitsAll st (args.headD .null) := by
      cases args with
      | nil => exact List.forall_mem_nil _
      | cons v rest => exact hargs v List.mem_cons_self
    have hhead : (args.map (Value.without gone)).headD .null =
        (args.headD .null).without gone := by
      cases args <;> rfl
    obtain ⟨h₁, hprec₁⟩ := h.newCell harg
    have hnames₁ : ∀ entry ∈ Table.insert param (st.newCell (args.headD .null)).1 names,
        G.AdmitsAll (st.newCell (args.headD .null)).2 entry.2 := by
      intro entry hentry
      rcases Table.mem_of_mem_insert hentry with rfl | hentry
      · exact List.forall_mem_nil _
      · exact (hnames entry hentry).mono hprec₁
    obtain ⟨heq, h₂, hprec₂, hall⟩ := ih h₁
      (fun v hv => (hargs v (List.mem_of_mem_tail hv)).mono hprec₁) hnames₁
    refine ⟨?_, h₂, hprec₁.trans hprec₂, hall⟩
    simp only [Store.bindParams, hhead, Store.newCell_without, ← List.map_tail]
    rw [← heq, ← Store.insert_without]
    rfl

end Sound

end Guard

end SearchScript
