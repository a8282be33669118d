import SearchScript.Proofs.Run.Stable

/-!
# The names that are visible

The names that are listed for an environment are all different, and each of them can be looked up.
The first holds as long as every table of the store binds its names in order, which no run changes.

## Key definitions

- `Store.Sorted`: the tables of the store bind their names in order

## Key results

- `Store.sorted_stable`: a run keeps the tables in order
- `Store.Sorted.nodup_visibleNames`: the visible names are all different
- `Store.isSome_resolve?`: a visible name can be looked up
-/

namespace SearchScript

namespace Table

variable {α : Type} {table : Table α}

theorem nodup_of_sorted (h : table.names.Pairwise (· < ·)) : table.names.Nodup :=
  h.imp fun hlt => String.ne_of_lt hlt

end Table

namespace Store

/-- Whether the tables of the frames and of the hosts bind their names in order, each once. -/
structure Sorted (st : Store) : Prop where
  tables : ∀ names ∈ st.tables, Table.names names |>.Pairwise (· < ·)
  hosts : ∀ host ∈ st.hosts,
    host.locals.names.Pairwise (· < ·) ∧ host.globals.names.Pairwise (· < ·)

variable {st st' : Store} {v : Value} {name : String} {host : Nat} {env : Env}
  {names more : List String}

/-! ## Runs keep the tables in order -/

namespace Sorted

theorem table (h : st.Sorted) (frame : Frame) : (st.table frame).names.Pairwise (· < ·) := by
  unfold Store.table
  cases hnames : st.tables[frame.table]? with
  | none => exact List.Pairwise.nil
  | some names => exact h.tables names (Array.mem_of_getElem? hnames)

theorem atHost (h : st.Sorted) (host : Nat) :
    (st.hosts[host]?.getD {}).locals.names.Pairwise (· < ·) ∧
      (st.hosts[host]?.getD {}).globals.names.Pairwise (· < ·) := by
  cases hhost : st.hosts[host]? with
  | none => exact ⟨List.Pairwise.nil, List.Pairwise.nil⟩
  | some found => exact h.hosts found (Array.mem_of_getElem? hhost)

theorem bindIn (h : st.Sorted) (frame : Frame) (name : String) (v : Value) :
    (st.bindIn frame name v).Sorted where
  tables names hmem := by
    obtain ⟨i, hi⟩ := Array.getElem?_of_mem hmem
    simp only [Store.bindIn, Array.getElem?_modify] at hi
    split at hi
    · obtain ⟨old, hold, rfl⟩ := Option.map_eq_some_iff.1 hi
      exact Table.pairwise_names_insert _ _ (h.tables old (Array.mem_of_getElem? hold))
    · exact h.tables names (Array.mem_of_getElem? hi)
  hosts := h.hosts

theorem bindAtHost (h : st.Sorted) (host : Nat) (name : String) (v : Value) :
    (st.bindAtHost host name v).Sorted where
  tables := h.tables
  hosts found hmem := by
    obtain ⟨i, hi⟩ := Array.getElem?_of_mem hmem
    simp only [Store.bindAtHost, Array.getElem?_modify] at hi
    split at hi
    · obtain ⟨old, hold, rfl⟩ := Option.map_eq_some_iff.1 hi
      obtain ⟨hlocals, hglobals⟩ := h.hosts old (Array.mem_of_getElem? hold)
      exact ⟨Table.pairwise_names_insert _ _ hlocals, hglobals⟩
    · exact h.hosts found (Array.mem_of_getElem? hi)

theorem bind (h : st.Sorted) (env : Env) (name : String) (v : Value) :
    (st.bind env name v).Sorted := by
  unfold Store.bind
  split
  · exact h.bindIn _ name v
  · exact h.bindAtHost _ name v

theorem newCell (h : st.Sorted) (v : Value) : (st.newCell v).2.Sorted := ⟨h.tables, h.hosts⟩

theorem push (h : st.Sorted) {names : Table Value} (hnames : names.names.Pairwise (· < ·)) :
    ({ st with tables := st.tables.push names } : Store).Sorted where
  tables found hmem := by
    rcases Array.mem_push.1 hmem with hmem | rfl
    · exact h.tables found hmem
    · exact hnames
  hosts := h.hosts

theorem openFrame (h : st.Sorted) (run : Nat) (kind : FrameKind) {names : Table Value}
    (hnames : names.names.Pairwise (· < ·)) (env : Env) :
    (st.openFrame run kind names env).2.Sorted := by
  have hpush := h.push hnames
  unfold Store.openFrame Store.newFrame
  dsimp only
  split
  · exact ⟨hpush.tables, hpush.hosts⟩
  · exact hpush

theorem bindParams (h : st.Sorted) {names : Table Value} (hnames : names.names.Pairwise (· < ·))
    (params : List String) (args : List Value) :
    (st.bindParams names params args).1.names.Pairwise (· < ·) ∧
      (st.bindParams names params args).2.Sorted := by
  induction params generalizing st names args with
  | nil => exact ⟨hnames, h⟩
  | cons param params ih =>
    exact ih (h.newCell (args.headD .null)) (Table.pairwise_names_insert _ _ hnames) args.tail

theorem resolveThrough (h : st.Sorted) {frames : List Frame}
    (hres : st.resolveThrough host name frames = some (v, st')) : st'.Sorted := by
  induction frames generalizing v st' with
  | nil =>
    obtain ⟨w, -, hw⟩ := Option.map_eq_some_iff.1 hres
    cases hw
    exact h
  | cons frame outer ih =>
    unfold Store.resolveThrough at hres
    split at hres
    · cases hres
      exact h
    · split at hres
      · exact ih hres
      · cases hres
      · next hfound =>
        cases hres
        exact ((ih hfound).newCell _).bindIn frame name _

/-- A host that is given its names in order keeps the tables in order. -/
theorem newHost (h : st.Sorted) {given : Host} (hlocals : given.locals.names.Pairwise (· < ·))
    (hglobals : given.globals.names.Pairwise (· < ·)) : (st.newHost given).2.Sorted where
  tables := h.tables
  hosts found hmem := by
    rcases Array.mem_push.1 hmem with hmem | rfl
    · exact h.hosts found hmem
    · exact ⟨hlocals, hglobals⟩

theorem beginRun (h : st.Sorted) : st.beginRun.2.Sorted := ⟨h.tables, h.hosts⟩

/-- The tables that are emptied at the end of a run are in order. -/
theorem endRun (h : st.Sorted) : st.endRun.Sorted where
  tables := by
    change ∀ names ∈ st.opened.foldl (fun tables table => tables.modify table fun _ => [])
      st.tables, Table.names names |>.Pairwise (· < ·)
    have htables := h.tables
    generalize st.tables = tables at htables
    induction st.opened generalizing tables with
    | nil => exact htables
    | cons table opened ih =>
      apply ih
      intro names hmem
      obtain ⟨i, hi⟩ := Array.getElem?_of_mem hmem
      rw [Array.getElem?_modify] at hi
      split at hi
      · obtain ⟨old, -, rfl⟩ := Option.map_eq_some_iff.1 hi
        exact List.Pairwise.nil
      · exact htables names (Array.mem_of_getElem? hi)
  hosts := h.hosts

end Sorted

/-- A run keeps the tables in order. -/
theorem sorted_stable : Stable Sorted where
  resolve h hres := h.resolveThrough hres
  assign h hassign := by
    unfold Store.assign at hassign
    split at hassign
    · cases hassign
      exact ⟨h.tables, h.hosts⟩
    · cases hassign
  declare env name v h := (h.newCell v).bind env name _
  function _ h := ⟨h.tables, h.hosts⟩
  enter run env params args h := by
    have hnil : (Table.names ([] : Table Value)).Pairwise (· < ·) := List.Pairwise.nil
    obtain ⟨hnames, h'⟩ := h.bindParams hnil params args
    exact h'.openFrame run .scope hnames env
  shadow run env h := h.openFrame run .shadow List.Pairwise.nil env
  record _ h := ⟨h.tables, h.hosts⟩

/-! ## Visible names -/

theorem mem_mergeNames : name ∈ mergeNames names more ↔ name ∈ names ∨ name ∈ more := by
  unfold mergeNames
  rw [List.mem_append, List.mem_filter]
  by_cases h : name ∈ names <;> simp [h]

theorem nodup_mergeNames (h : names.Nodup) (hmore : more.Nodup) :
    (mergeNames names more).Nodup := by
  unfold mergeNames
  rw [List.nodup_append]
  refine ⟨h, hmore.filter _, fun a ha b hb => ?_⟩
  rintro rfl
  -- a name that is added is not there yet
  have hnew := (List.mem_filter.1 hb).2
  simp [ha] at hnew

/-- The names that are listed for an environment are all different. -/
theorem Sorted.nodup_visibleNames (h : st.Sorted) (env : Env) : (st.visibleNames env).Nodup := by
  unfold visibleNames
  induction env.frames with
  | nil =>
    obtain ⟨hlocals, hglobals⟩ := h.atHost env.host
    exact nodup_mergeNames (Table.nodup_of_sorted hlocals) (Table.nodup_of_sorted hglobals)
  | cons frame outer ih =>
    exact nodup_mergeNames (Table.nodup_of_sorted (h.table frame)) ih

theorem isSome_resolveThrough {frames : List Frame} (h : name ∈ st.namesThrough host frames) :
    (st.resolveThrough host name frames).isSome = true := by
  induction frames with
  | nil =>
    rw [resolveThrough, Option.isSome_map]
    rcases mem_mergeNames.1 h with h | h
    · obtain ⟨v, hv⟩ := Option.isSome_iff_exists.1 ((Table.isSome_find? _ _).2 h)
      simp [hostValue?, Host.find?, hv]
    · obtain ⟨v, hv⟩ := Option.isSome_iff_exists.1 ((Table.isSome_find? _ _).2 h)
      cases hlocals : (st.hosts[host]?.getD {}).locals.find? name <;>
        simp [hostValue?, Host.find?, hlocals, hv]
  | cons frame outer ih =>
    unfold resolveThrough
    cases hfind : (st.table frame).find? name with
    | some v => rfl
    | none =>
      have houter : name ∈ st.namesThrough host outer := by
        rcases mem_mergeNames.1 h with h | h
        · rw [← Table.isSome_find?, hfind] at h
          cases h
        · exact h
      obtain ⟨⟨v, st'⟩, hres⟩ := Option.isSome_iff_exists.1 (ih houter)
      cases frame.kind with
      | scope => simp [hres]
      | shadow => simp [hres]

/-- A name that is listed for an environment can be looked up in it. -/
theorem isSome_resolve? (h : name ∈ st.visibleNames env) : (st.resolve? env name).isSome = true :=
  isSome_resolveThrough h

end Store

end SearchScript
