import SearchScript.Proofs.Run.Confinement
import SearchScript.Proofs.Run.Outlive.Values

/-!
# Spheres of runs

A sphere is what a run may come across: cells, tables of names and hosts, and functions of some
contexts with some bodies. A value lies inside a sphere if every cell and every function that is in
it does, also those that stand in lists. A sphere encloses a store if whatever its cells, tables and
hosts hold lies inside it again, and so does whatever is made later. Every operation of the store
keeps that.

Other than a region a sphere takes in what a host binds, whatever it is.

## Key definitions

- `Sphere`, `Value.Inside`, `Sphere.Encloses`
- `Store.Gives`: what a run at a host can get hold of before it makes anything
- `Sphere.ofHost`: what a run at a host may come across
- `Sphere.everything`: what all runs may come across

## Key results

- `Sphere.Encloses.newCell`, `.assign`, `.bind`, `.resolve`, `.bindParams`, `.openFrame`: the
  operations of the store
- `Sphere.ofHost_encloses`: where a run begins at a host that gives no function
-/

namespace SearchScript

/-- What a run may come across: which cells, tables and hosts, functions of which contexts and
bodies, which modes and errors, and whether there are cells that hold cells. -/
structure Sphere where
  cell : Nat → Prop
  table : Nat → Prop
  host : Nat → Prop
  context : Context → Prop
  body : Code → Prop
  mode : Mode → Prop
  error : RunError → Prop
  nested : Prop

mutual

/-- Whether all cells and functions in a value belong to a sphere. -/
def Value.Inside (S : Sphere) : Value → Prop
  | .cell slot => S.cell slot
  | .list items => Value.AllInside S items
  | .function _ callable => callable.Inside S
  | .boolean _ | .number _ | .string _ | .null | .stringList _ _ | .file _ | .constructor _
  | .fileConstructor _ => True

/-- Whether all that a function leads to belongs to a sphere. -/
def Callable.Inside (S : Sphere) : Callable → Prop
  | .quantifier _ items => Value.AllInside S items
  | .closure c => S.context c.context ∧ S.body c.body
  | .text _ _ | .holds _ | .recorder => True

/-- Whether all cells and functions in some values belong to a sphere. -/
def Value.AllInside (S : Sphere) : List Value → Prop
  | [] => True
  | v :: rest => v.Inside S ∧ Value.AllInside S rest

end

/-- Whether what a member is lies inside a sphere. -/
def Member.Inside (S : Sphere) : Member → Prop
  | .data v => v.Inside S
  | .function callable => callable.Inside S

/-! ## Operations on values -/

namespace Value

variable {S : Sphere} {v w u : Value} {items : List Value}

theorem allInside_iff : AllInside S items ↔ ∀ v ∈ items, v.Inside S := by
  induction items with
  | nil => simp [AllInside]
  | cons v rest ih => simp [AllInside, ih]

mutual

/-- Data has neither cells nor functions in it. -/
theorem inside_of_isData : (v : Value) → v.isData = true → v.Inside S
  | .list items, h => allInside_of_allData items h
  | .boolean _, _ | .number _, _ | .string _, _ | .null, _ | .stringList _ _, _ | .file _, _
  | .constructor _, _ => trivial

theorem allInside_of_allData : (items : List Value) → allData items = true → AllInside S items
  | [], _ => trivial
  | v :: rest, h => by
    rw [allData, Bool.and_eq_true] at h
    exact ⟨inside_of_isData v h.1, allInside_of_allData rest h.2⟩

end

/-- What an operator makes lies inside the sphere of its left operand. -/
theorem inside_of_binary {op : BinaryOp} (hv : v.Inside S) (h : Value.binary op v w = .ok u) :
    u.Inside S := by
  by_cases hop : op = .subscript
  · rw [binary, if_pos hop] at h
    obtain ⟨n, rfl⟩ := exists_number_of_subscript h
    cases v with
    | list items => exact allInside_iff.1 hv u (mem_of_itemAt h)
    | stringList name items =>
      exact inside_of_isData u (isData_of_itemAt allData_map_string h)
    | _ => simp [subscript] at h
  · exact inside_of_isData u (isData_of_binary hop h)

/-- The members of a value lie inside its sphere. -/
theorem inside_of_memberOf {name : String} {m : Member} (hv : v.Inside S)
    (h : v.memberOf name = .ok m) : m.Inside S := by
  unfold memberOf at h
  split at h <;> cases h
  next hmember =>
  rcases member?_cases hmember with ⟨u, rfl, hu⟩ | ⟨_, _, -, rfl⟩ | ⟨_, _, -, rfl⟩ |
    ⟨_, items, rfl, -, hitems⟩
  · exact inside_of_isData u hu
  · trivial
  · trivial
  · rcases hitems with rfl | ⟨_, texts, -, rfl⟩
    · exact hv
    · exact allInside_of_allData _ allData_map_string

theorem inside_of_requireFunction {callable : Callable} (hv : v.Inside S)
    (h : v.requireFunction = .ok callable) : callable.Inside S := by
  cases v <;> cases h
  exact hv

theorem inside_headD {args : List Value} (h : ∀ v ∈ args, v.Inside S) :
    (args.headD .null).Inside S := by
  cases args with
  | nil => trivial
  | cons v rest => exact h v List.mem_cons_self

end Value

/-! ## The store -/

namespace Sphere

/-- Whether all functions that are made where nodes are run have bodies of the sphere. -/
def Makes (S : Sphere) (nodes : List Code) : Prop :=
  ∀ node ∈ nodes, ∀ body, node.functionBody? = some body → S.body body

theorem makes_append {S : Sphere} {as bs : List Code} :
    S.Makes (as ++ bs) ↔ S.Makes as ∧ S.Makes bs := List.forall_mem_append

theorem makes_cons {S : Sphere} {node : Code} {nodes : List Code} :
    S.Makes (node :: nodes) ↔
      (∀ body, node.functionBody? = some body → S.body body) ∧ S.Makes nodes :=
  List.forall_mem_cons

/-- What holds of a store whose part in a sphere leads to nothing outside it. -/
structure Encloses (S : Sphere) (st : Store) : Prop where
  /-- Whatever is made next belongs to the sphere. -/
  cell : ∀ slot, st.slots.size ≤ slot → S.cell slot
  table : ∀ table, st.tables.size ≤ table → S.table table
  slots : ∀ (slot : Nat) v, S.cell slot → st.slots[slot]? = some v → v.Inside S
  tables : ∀ (table : Nat) names, S.table table → st.tables[table]? = some names →
    ∀ entry ∈ names, entry.2.Inside S
  hosts : ∀ host, S.host host → ∀ name v, (st.hosts[host]?.getD {}).find? name = some v →
    v.Inside S
  flat : ¬S.nested → ∀ (slot : Nat) other, S.cell slot → st.slots[slot]? ≠ some (.cell other)

/-- Whether the contexts of a sphere lie inside it, and remain there when a frame is opened. A real
run opens no shadow. -/
structure Roams (S : Sphere) : Prop where
  tables : ∀ ctx, S.context ctx → ∀ frame ∈ ctx.env.frames, S.table frame.table
  host : ∀ ctx, S.context ctx → S.host ctx.env.host
  push : ∀ ctx kind table, S.context ctx → S.table table → (kind = .shadow → ctx.mode ≠ .real) →
    S.context { ctx with env := { ctx.env with frames := ⟨kind, table⟩ :: ctx.env.frames } }

namespace Encloses

variable {S : Sphere} {st st' : Store} {v target : Value} {name : String} {host : Nat}

/-- Reading a cell of the sphere stays inside it. -/
theorem snapshot (h : S.Encloses st) (hv : v.Inside S) : (st.snapshot v).Inside S := by
  cases v with
  | cell slot =>
    simp only [Store.snapshot]
    cases hslot : st.slots[slot]? with
    | none => trivial
    | some w => exact h.slots slot w hv hslot
  | _ => exact hv

/-- What is read is no cell, unless there are cells that hold cells. -/
theorem snapshot_ne_cell (h : S.Encloses st) (hflat : ¬S.nested) (hv : v.Inside S) (slot : Nat) :
    st.snapshot v ≠ .cell slot := by
  cases v with
  | cell other =>
    simp only [Store.snapshot]
    cases hother : st.slots[other]? with
    | none => exact Value.noConfusion
    | some w => exact fun heq => h.flat hflat other slot hv (heq ▸ hother)
  | _ => exact Value.noConfusion

theorem newCell (h : S.Encloses st) (hv : v.Inside S) :
    (st.newCell v).1.Inside S ∧ S.Encloses (st.newCell v).2 := by
  refine ⟨h.cell _ (Nat.le_refl _), { h with cell := ?_, slots := ?_, flat := ?_ }⟩
  · intro slot hslot
    simp only [Store.newCell, Array.size_push] at hslot
    exact h.cell slot (Nat.le_of_succ_le hslot)
  · intro slot w hcell hw
    simp only [Store.newCell, Array.getElem?_push] at hw
    split at hw
    · cases hw
      exact h.snapshot hv
    · exact h.slots slot w hcell hw
  · intro hflat slot other hcell hother
    simp only [Store.newCell, Array.getElem?_push] at hother
    split at hother
    · exact h.snapshot_ne_cell hflat hv other (Option.some.inj hother)
    · exact h.flat hflat slot other hcell hother

theorem assign (h : S.Encloses st) (hv : v.Inside S) (heq : st.assign target v = .ok st') :
    S.Encloses st' := by
  cases target with
  | cell slot =>
    cases heq
    refine { h with cell := fun other hother => ?_, slots := ?_, flat := ?_ }
    · exact h.cell other (by simpa using hother)
    · intro other w hcell hw
      simp only [Array.getElem?_setIfInBounds] at hw
      split at hw
      · split at hw <;> cases hw
        exact h.snapshot hv
      · exact h.slots other w hcell hw
    · intro hflat other inner hcell hinner
      simp only [Array.getElem?_setIfInBounds] at hinner
      split at hinner
      · split at hinner
        · exact h.snapshot_ne_cell hflat hv inner (Option.some.inj hinner)
        · cases hinner
      · exact h.flat hflat other inner hcell hinner
  | _ => cases heq

theorem bindIn {frame : Frame} (h : S.Encloses st) (hv : v.Inside S) :
    S.Encloses (st.bindIn frame name v) := by
  refine { h with table := fun table ht => ?_, tables := fun table names ht hnames entry he => ?_ }
  · exact h.table table (by simpa [Store.bindIn] using ht)
  · simp only [Store.bindIn, Array.getElem?_modify] at hnames
    split at hnames
    · obtain ⟨old, hold, rfl⟩ := Option.map_eq_some_iff.1 hnames
      rcases Table.mem_of_mem_insert he with rfl | he
      · exact hv
      · exact h.tables table old ht hold entry he
    · exact h.tables table names ht hnames entry he

theorem bindAtHost (h : S.Encloses st) (hv : v.Inside S) :
    S.Encloses (st.bindAtHost host name v) := by
  refine { h with hosts := fun other hother text w hw => ?_ }
  have hold := h.hosts other hother text
  simp only [Store.bindAtHost, Array.getElem?_modify] at hw
  split at hw
  · cases hhost : st.hosts[other]? with
    | none =>
      rw [hhost] at hw hold
      exact hold w hw
    | some old =>
      rw [hhost] at hw hold
      simp only [Host.find?, Option.map_some, Option.getD_some] at hw hold
      -- the name is bound anew, or to what it was bound to before
      by_cases hname : text = name
      · subst hname
        rw [Table.find?_insert] at hw
        cases hw
        exact hv
      · rw [Table.find?_insert_ne hname] at hw
        exact hold w hw
  · exact hold w hw

theorem bind {env : Env} (h : S.Encloses st) (hv : v.Inside S) :
    S.Encloses (st.bind env name v) := by
  unfold Store.bind
  split
  · exact h.bindIn hv
  · exact h.bindAtHost hv

theorem find? {frame : Frame} (h : S.Encloses st) (hf : S.table frame.table)
    (hv : (st.table frame).find? name = some v) : v.Inside S := by
  unfold Store.table at hv
  cases ht : st.tables[frame.table]? with
  | none => simp [ht, Table.find?] at hv
  | some names =>
    simp only [ht, Option.getD_some] at hv
    exact h.tables _ names hf ht _ (Table.mem_of_find? hv)

theorem hostValue? (h : S.Encloses st) (hhost : S.host host)
    (hv : st.hostValue? host name = some v) : v.Inside S := by
  simp only [Store.hostValue?] at hv
  split at hv
  · next hw =>
    cases hv
    exact h.hosts host hhost name v hw
  · split at hv <;> cases hv
    trivial

/-- What a name is found to be lies inside the sphere. -/
theorem resolveThrough {frames : List Frame} (h : S.Encloses st) (hhost : S.host host)
    (hf : ∀ frame ∈ frames, S.table frame.table)
    (hres : st.resolveThrough host name frames = some (v, st')) :
    v.Inside S ∧ S.Encloses st' := by
  induction frames generalizing v st' with
  | nil =>
    simp only [Store.resolveThrough, Option.map_eq_some_iff] at hres
    obtain ⟨w, hw, heq⟩ := hres
    cases heq
    exact ⟨h.hostValue? hhost hw, h⟩
  | cons frame outer ih =>
    simp only [Store.resolveThrough] at hres
    split at hres
    · next w hw =>
      cases hres
      exact ⟨h.find? (hf frame List.mem_cons_self) hw, h⟩
    · have hf' := fun frame hmem => hf frame (List.mem_cons_of_mem _ hmem)
      split at hres
      · exact ih hf' hres
      · cases hres
      · next found =>
        -- a shadow copies what is found further out into a new cell, which is inside as its value
        -- is
        obtain ⟨hw, h₁⟩ := ih hf' found
        obtain ⟨hcell, h₂⟩ := h₁.newCell hw
        cases hres
        exact ⟨hcell, h₂.bindIn hcell⟩

theorem resolve {ctx : Context} (h : S.Encloses st) (hS : S.Roams) (hctx : S.context ctx)
    (hres : st.resolve? ctx.env name = some (v, st')) : v.Inside S ∧ S.Encloses st' :=
  h.resolveThrough (hS.host ctx hctx) (hS.tables ctx hctx) hres

theorem bindParams (params : List String) {args : List Value} (names : Table Value)
    (h : S.Encloses st) (hargs : ∀ v ∈ args, v.Inside S)
    (hnames : ∀ entry ∈ names, entry.2.Inside S) :
    (∀ entry ∈ (st.bindParams names params args).1, entry.2.Inside S) ∧
      S.Encloses (st.bindParams names params args).2 := by
  induction params generalizing st args names with
  | nil => exact ⟨hnames, h⟩
  | cons param params ih =>
    obtain ⟨hcell, h'⟩ := h.newCell (Value.inside_headD hargs)
    simp only [Store.bindParams]
    refine ih _ h' (fun v hv => hargs v (List.mem_of_mem_tail hv)) fun entry hentry => ?_
    rcases Table.mem_of_mem_insert hentry with rfl | hentry
    · exact hcell
    · exact hnames entry hentry

theorem openFrame {run : Nat} {kind : FrameKind} {names : Table Value} {env : Env}
    (h : S.Encloses st) (hnames : ∀ entry ∈ names, entry.2.Inside S) :
    S.Encloses (st.openFrame run kind names env).2 where
  cell := by simpa using h.cell
  table table ht := h.table table (Nat.le_of_succ_le (by simpa using ht))
  slots := by simpa using h.slots
  tables table other ht hother := by
    simp only [Store.tables_openFrame, Array.getElem?_push] at hother
    split at hother
    · cases hother
      exact hnames
    · exact h.tables table other ht hother
  hosts := by simpa using h.hosts
  flat := by simpa using h.flat

/-- A new frame belongs to the sphere. -/
theorem context_openFrame {ctx : Context} {run : Nat} {kind : FrameKind} {names : Table Value}
    (h : S.Encloses st) (hS : S.Roams) (hctx : S.context ctx)
    (hkind : kind = .shadow → ctx.mode ≠ .real) :
    S.context { ctx with env := (st.openFrame run kind names ctx.env).1 } := by
  rw [Store.openFrame_fst]
  exact hS.push ctx kind st.tables.size hctx (h.table _ (Nat.le_refl _)) hkind

end Encloses

end Sphere

/-! ## Hosts -/

/-- Whether a run at a host can get hold of a value before it makes anything: the host binds it, it
is an item of a list, or it is held by a cell. -/
inductive Store.Gives (st : Store) (host : Nat) : Value → Prop
  | bound {name : String} {v : Value} : (st.hosts[host]?.getD {}).find? name = some v →
      Gives st host v
  | item {items : List Value} {v : Value} : Gives st host (.list items) → v ∈ items →
      Gives st host v
  | content {slot : Nat} {v : Value} : Gives st host (.cell slot) → st.slots[slot]? = some v →
      Gives st host v

/-- Whether no cell holds a cell. -/
def Store.IsFlat (st : Store) : Prop :=
  ∀ (slot : Nat) other, st.slots[slot]? ≠ some (.cell other)

/-- Whether a host gives no functions. -/
def Store.GivesNoFunction (st : Store) (host : Nat) : Prop :=
  ∀ id callable, ¬st.Gives host (.function id callable)

namespace Store

variable {st : Store} {host : Nat} {v : Value}

/-- A host that binds data gives data, and the cells that it binds. -/
theorem HoldsData.gives (h : st.HoldsData host) (hv : st.Gives host v) :
    v.isData = true ∨ ∃ slot w, v = .cell slot ∧ st.slots[slot]? = some w ∧ w.isData = true := by
  induction hv with
  | bound hfind => exact h _ _ hfind
  | item _ hmem ih =>
    rcases ih with hdata | ⟨_, _, heq, -⟩
    · exact .inl (Value.allData_iff.1 hdata _ hmem)
    · cases heq
  | content _ hslot ih =>
    rcases ih with hdata | ⟨_, w, heq, hw, hdata⟩
    · cases hdata
    · cases heq
      cases hslot.symm.trans hw
      exact .inl hdata

/-- A host that binds one name, to a cell with data. -/
theorem holdsData_of_cell {name : String} {slot : Nat}
    (hhost : st.hosts[host]? = some { locals := [(name, .cell slot)] })
    (hslot : st.slots[slot]? = some v) (hdata : v.isData = true) : st.HoldsData host := by
  intro other w h
  by_cases hother : other = name
  · subst hother
    simp only [hhost, Option.getD_some, Host.find?, Table.find?, if_true, Option.some.injEq] at h
    exact .inr ⟨slot, v, h.symm, hslot, hdata⟩
  · simp [hhost, Host.find?, Table.find?, hother] at h

theorem HoldsData.givesNoFunction (h : st.HoldsData host) : st.GivesNoFunction host := by
  intro id callable hgives
  rcases h.gives hgives with hdata | ⟨_, _, heq, -⟩
  · cases hdata
  · cases heq

end Store

namespace Sphere

/-- What a run at a host may come across: what the host gives, what is made since, and functions
that are made since in some modes with some bodies. A real run has no shadows around it. -/
def ofHost (st : Store) (host : Nat) (mode : Mode → Prop) (body : Code → Prop)
    (error : RunError → Prop) : Sphere where
  cell slot := st.slots.size ≤ slot ∨ st.Gives host (.cell slot)
  table table := st.tables.size ≤ table
  host := (· = host)
  context ctx := mode ctx.mode ∧ ctx.env.host = host ∧ ∀ frame ∈ ctx.env.frames,
    st.tables.size ≤ frame.table ∧ (frame.kind = .shadow → ctx.mode ≠ .real)
  body := body
  mode := mode
  error := error
  nested := ∃ slot other, st.Gives host (.cell slot) ∧ st.slots[slot]? = some (.cell other)

section

variable {st : Store} {host : Nat} {mode : Mode → Prop} {body : Code → Prop}
  {error : RunError → Prop}

mutual

theorem inside_of_gives (h : st.GivesNoFunction host) :
    (v : Value) → st.Gives host v → v.Inside (ofHost st host mode body error)
  | .cell _, hv => .inr hv
  | .list items, hv => allInside_of_gives h items fun _ hmem => hv.item hmem
  | .function id callable, hv => absurd hv (h id callable)
  | .boolean _, _ | .number _, _ | .string _, _ | .null, _ | .stringList _ _, _ | .file _, _
  | .constructor _, _ | .fileConstructor _, _ => trivial

theorem allInside_of_gives (h : st.GivesNoFunction host) :
    (items : List Value) → (∀ v ∈ items, st.Gives host v) →
      Value.AllInside (ofHost st host mode body error) items
  | [], _ => trivial
  | v :: rest, hitems =>
    ⟨inside_of_gives h v (hitems v List.mem_cons_self),
      allInside_of_gives h rest fun u hu => hitems u (List.mem_cons_of_mem v hu)⟩

end

/-- A host that gives no function gives nothing that a run may not come across. -/
theorem ofHost_encloses (h : st.GivesNoFunction host) :
    (ofHost st host mode body error).Encloses st.beginRun.2 where
  cell _ hslot := .inl hslot
  table _ ht := ht
  slots slot v hcell hv := by
    rcases hcell with hslot | hgives
    · exact absurd (Array.getElem?_eq_some_iff.1 hv).1 (Nat.not_lt.2 hslot)
    · exact inside_of_gives h v (hgives.content hv)
  tables _ _ ht hnames := absurd (Array.getElem?_eq_some_iff.1 hnames).1 (Nat.not_lt.2 ht)
  hosts _ hhost name v hv := by
    cases hhost
    exact inside_of_gives h v (.bound hv)
  flat hflat slot other hcell hother := by
    rcases hcell with hslot | hgives
    · exact absurd (Array.getElem?_eq_some_iff.1 hother).1 (Nat.not_lt.2 hslot)
    · exact hflat ⟨slot, other, hgives, hother⟩

theorem ofHost_roams : (ofHost st host mode body error).Roams where
  tables _ hctx frame hmem := (hctx.2.2 frame hmem).1
  host _ hctx := hctx.2.1
  push _ _ _ hctx ht hkind :=
    ⟨hctx.1, hctx.2.1, List.forall_mem_cons.2 ⟨⟨ht, hkind⟩, hctx.2.2⟩⟩

/-- At a host that binds data no cell holds a cell. -/
theorem not_nested_of_holdsData (h : st.HoldsData host) :
    ¬(ofHost st host mode body error).nested := by
  rintro ⟨slot, other, hgives, hother⟩
  rcases h.gives (hgives.content hother) with hdata | ⟨_, w, heq, hw, hdata⟩
  · cases hdata
  · rcases h.gives hgives with hdata | ⟨_, w, heq, hw, hdata⟩
    · cases hdata
    · cases heq
      cases hother.symm.trans hw
      cases hdata

end

/-! ## The sphere of all runs -/

/-- The sphere that has everything in it, also cells that hold cells if there may be any. -/
def everything (nested : Prop) : Sphere where
  cell _ := True
  table _ := True
  host _ := True
  context _ := True
  body _ := True
  mode _ := True
  error _ := True
  nested := nested

section

variable {nested : Prop} {st : Store}

mutual

theorem inside_everything : (v : Value) → v.Inside (everything nested)
  | .list items => allInside_everything items
  | .function _ (.quantifier _ items) => allInside_everything items
  | .function _ (.closure _) => ⟨trivial, trivial⟩
  | .function _ (.text _ _) | .function _ (.holds _) | .function _ .recorder => trivial
  | .boolean _ | .number _ | .string _ | .null | .stringList _ _ | .file _ | .constructor _
  | .fileConstructor _ | .cell _ => trivial

theorem allInside_everything : (items : List Value) → Value.AllInside (everything nested) items
  | [] => trivial
  | v :: rest => ⟨inside_everything v, allInside_everything rest⟩

end

theorem everything_encloses (h : ¬nested → st.IsFlat) : (everything nested).Encloses st where
  cell _ _ := trivial
  table _ _ := trivial
  slots _ v _ _ := inside_everything v
  tables _ _ _ _ entry _ := inside_everything entry.2
  hosts _ _ _ v _ := inside_everything v
  flat hflat slot other _ := h hflat slot other

theorem isFlat_of_encloses (h : (everything False).Encloses st) : st.IsFlat :=
  fun slot other => h.flat id slot other trivial

end

end Sphere

end SearchScript
