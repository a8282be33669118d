import SearchScript.Proofs.Run.Operations
import SearchScript.Proofs.Syntax.Nodes
import SearchScript.Run.Walk

/-!
# Regions of the store

A region is a part of the store that a run may reach: cells, tables of names, and the contexts in
which its functions were made with their bodies. A value lies in a region if every cell and every
function inside it does. A store respects a region, seen from an earlier store, if all that was
changed since lies in the region and nothing in the region leads out of it.

Every operation of the store keeps this, if it is given values of the region only. Names are the
one way in from outside: a shadow copies what it finds at the host, so that the copy, not the cell
of the host, enters the region.

## Key results

- `Region.Respects.newCell`, `.assign`, `.bind`, `.resolve`: the operations keep it
- `Region.Respects.snapshot`: reading a cell of the region stays in it
-/

namespace SearchScript

/-- A part of the store: which cells and tables belong to it, and functions of which contexts and
bodies, and whether the function that looks files up does. -/
structure Region where
  cell : Nat → Prop
  table : Nat → Prop
  context : Context → Prop
  body : Code → Prop
  files : Prop

/-- Whether what a function does leads to nothing outside a region. The items of lists are data. -/
def Callable.Within (R : Region) : Callable → Prop
  | .quantifier _ items => Value.allData items = true
  | .closure c => R.context c.context ∧ R.body c.body
  | _ => True

/-- Whether a value leads to nothing outside a region. -/
def Value.Within (R : Region) : Value → Prop
  | .cell slot => R.cell slot
  | .list items => Value.allData items = true
  | .function _ callable => callable.Within R
  | .fileConstructor _ => R.files
  | _ => True

namespace Value

variable {R : Region}

theorem within_of_isData {v : Value} (h : v.isData = true) : v.Within R := by
  cases v <;> trivial

end Value

/-! ## Operations on values -/

/-- Whether a member leads to nothing outside a region. -/
def Member.Within (R : Region) : Member → Prop
  | .data v => v.Within R
  | .function callable => callable.Within R

namespace Value

variable {R : Region}

/-- What has members is data. -/
theorem isData_of_member?_eq_some {v : Value} {name : String} {m : Member} (hv : v.Within R)
    (h : v.member? name = some m) : v.isData = true := by
  cases v <;> first | exact hv | rfl | cases h

/-- The members of a value lead no further than the value. -/
theorem within_of_member? {v : Value} {name : String} {m : Member} (hv : v.Within R)
    (h : v.member? name = some m) : m.Within R := by
  rcases isData_of_member? (isData_of_member?_eq_some hv h) h with ⟨u, rfl, hu⟩ | ⟨c, rfl, hc⟩
  · exact within_of_isData hu
  · cases c <;> trivial

/-- What an operator makes is data. -/
theorem isData_of_binary_of_within {op : BinaryOp} {left right v : Value} (hl : left.Within R)
    (h : Value.binary op left right = .ok v) : v.isData = true := by
  by_cases hdata : left.isData = true
  · exact isData_of_binary_of_isData hdata h
  · by_cases hop : op = .subscript
    · cases left <;> first | exact absurd rfl hdata | exact absurd hl hdata |
        simp [Value.binary, subscript, hop] at h
    · exact isData_of_binary hop h

theorem within_of_binary {op : BinaryOp} {left right v : Value} (hl : left.Within R)
    (h : Value.binary op left right = .ok v) : v.Within R :=
  within_of_isData (isData_of_binary_of_within hl h)

end Value

/-! ## The store -/

namespace Store

variable {st : Store} {run : Nat} {kind : FrameKind} {names : Table Value} {env : Env}

theorem openFrame_fst : (st.openFrame run kind names env).1 =
    { env with frames := ⟨kind, st.tables.size⟩ :: env.frames } := by
  simp only [openFrame]
  split <;> rfl

@[simp] theorem slots_openFrame : (st.openFrame run kind names env).2.slots = st.slots := by
  simp only [openFrame]
  split <;> rfl

@[simp] theorem hosts_openFrame : (st.openFrame run kind names env).2.hosts = st.hosts := by
  simp only [openFrame]
  split <;> rfl

@[simp] theorem functions_openFrame :
    (st.openFrame run kind names env).2.functions = st.functions := by
  simp only [openFrame]
  split <;> rfl

@[simp] theorem tables_openFrame :
    (st.openFrame run kind names env).2.tables = st.tables.push names := by
  simp only [openFrame]
  split <;> rfl

end Store

/-- Whether names are copied on their way in from the host. -/
def Env.isShadowed (env : Env) : Prop := ∃ frame ∈ env.frames, frame.kind = .shadow

namespace Region

/-- Whether all functions that are made where nodes are run have bodies of the region. -/
def Runs (R : Region) (nodes : List Code) : Prop :=
  ∀ node ∈ nodes, ∀ body, node.functionBody? = some body → R.body body

theorem runs_append {R : Region} {as bs : List Code} :
    R.Runs (as ++ bs) ↔ R.Runs as ∧ R.Runs bs := List.forall_mem_append

theorem runs_cons {R : Region} {node : Code} {nodes : List Code} :
    R.Runs (node :: nodes) ↔
      (∀ body, node.functionBody? = some body → R.body body) ∧ R.Runs nodes :=
  List.forall_mem_cons

/-- Whether a region is fit for what begins at a store: whatever is made later belongs to it, and
what a host gives away is in it, or is copied into it by a shadow. -/
structure Fits (R : Region) (st₀ : Store) : Prop where
  cell : ∀ slot, st₀.slots.size ≤ slot → R.cell slot
  table : ∀ table, st₀.tables.size ≤ table → R.table table
  frames : ∀ ctx, R.context ctx → ctx.env.frames ≠ []
  tables : ∀ ctx, R.context ctx → ∀ frame ∈ ctx.env.frames, R.table frame.table
  bodies : ∀ body, R.body body → R.Runs body.nodes
  push : ∀ ctx kind table, R.context ctx → R.table table →
    R.context { ctx with env := { ctx.env with frames := ⟨kind, table⟩ :: ctx.env.frames } }
  host : ∀ ctx name v, R.context ctx → st₀.hostValue? ctx.env.host name = some v →
    v.Within R ∨
      (ctx.env.isShadowed ∧ (st₀.snapshot v).Within R ∧ ∀ slot, v = .cell slot → ¬R.cell slot)

/-- Whether a store came from another one by changes inside a region. -/
structure Respects (R : Region) (st₀ st : Store) : Prop where
  slots_size : st₀.slots.size ≤ st.slots.size
  tables_size : st₀.tables.size ≤ st.tables.size
  hosts : st.hosts = st₀.hosts
  outside : ∀ slot, ¬R.cell slot → st.slots[slot]? = st₀.slots[slot]?
  slots : ∀ (slot : Nat) v, R.cell slot → st.slots[slot]? = some v → v.Within R
  tables : ∀ (table : Nat) names, R.table table → st.tables[table]? = some names →
    ∀ entry ∈ names, entry.2.Within R

namespace Respects

variable {R : Region} {st₀ st : Store} {v : Value}

/-- Reading a cell of the region stays in it. -/
theorem snapshot (h : R.Respects st₀ st) (hv : v.Within R) : (st.snapshot v).Within R := by
  cases v with
  | cell slot =>
    simp only [Store.snapshot]
    cases hs : st.slots[slot]? with
    | none => trivial
    | some w => exact h.slots slot w hv hs
  | _ => exact hv

theorem newCell (hR : R.Fits st₀) (h : R.Respects st₀ st) (hv : (st.snapshot v).Within R) :
    (st.newCell v).1.Within R ∧ R.Respects st₀ (st.newCell v).2 := by
  have hnew : R.cell st.slots.size := hR.cell _ h.slots_size
  refine ⟨hnew, { h with slots_size := ?_, outside := fun slot hslot => ?_, slots := ?_ }⟩
  · simp only [Store.newCell, Array.size_push]
    exact Nat.le_succ_of_le h.slots_size
  · have hne : slot ≠ st.slots.size := fun heq => hslot (heq ▸ hnew)
    rw [← h.outside slot hslot]
    simp only [Store.newCell, Array.getElem?_push, hne, if_false]
  · intro slot w hcell hw
    simp only [Store.newCell, Array.getElem?_push] at hw
    split at hw
    · cases hw
      exact hv
    · exact h.slots slot w hcell hw

theorem assign {target : Value} {st' : Store} (h : R.Respects st₀ st) (ht : target.Within R)
    (hv : v.Within R) (heq : st.assign target v = .ok st') : R.Respects st₀ st' := by
  cases target with
  | cell slot =>
    cases heq
    refine { h with slots_size := ?_, outside := fun other hother => ?_, slots := ?_ }
    · simpa using h.slots_size
    · have hne : slot ≠ other := fun heq => hother (heq ▸ ht)
      rw [← h.outside other hother]
      simp [hne]
    · intro other w hcell hw
      simp only [Array.getElem?_setIfInBounds] at hw
      split at hw
      · split at hw <;> cases hw
        exact h.snapshot hv
      · exact h.slots other w hcell hw
  | _ => cases heq

theorem bindIn {frame : Frame} {name : String} (h : R.Respects st₀ st) (hv : v.Within R) :
    R.Respects st₀ (st.bindIn frame name v) := by
  refine { h with tables_size := ?_, tables := fun table names ht hnames entry he => ?_ }
  · simpa [Store.bindIn] using h.tables_size
  · simp only [Store.bindIn, Array.getElem?_modify] at hnames
    split at hnames
    · obtain ⟨old, hold, rfl⟩ := Option.map_eq_some_iff.1 hnames
      rcases Table.mem_of_mem_insert he with rfl | he
      · exact hv
      · exact h.tables table old ht hold entry he
    · exact h.tables table names ht hnames entry he

theorem bind {env : Env} {name : String} (h : R.Respects st₀ st) (henv : env.frames ≠ [])
    (hv : v.Within R) : R.Respects st₀ (st.bind env name v) := by
  cases hf : env.frames with
  | nil => exact absurd hf henv
  | cons frame outer =>
    simp only [Store.bind, hf]
    exact h.bindIn hv

/-- What is found outside the region stays there: the cell of a host is not changed. -/
theorem snapshot_outside (h : R.Respects st₀ st) (hv : (st₀.snapshot v).Within R)
    (hout : ∀ slot, v = .cell slot → ¬R.cell slot) : (st.snapshot v).Within R := by
  cases v with
  | cell slot => simpa [Store.snapshot, h.outside slot (hout slot rfl)] using hv
  | _ => exact hv

theorem find? {frame : Frame} {name : String} (h : R.Respects st₀ st) (hf : R.table frame.table)
    (hv : (st.table frame).find? name = some v) : v.Within R := by
  unfold Store.table at hv
  cases ht : st.tables[frame.table]? with
  | none => simp [ht, Table.find?] at hv
  | some names =>
    simp only [ht, Option.getD_some] at hv
    exact h.tables _ names hf ht _ (Table.mem_of_find? hv)

/-- What a name is found to be lies in the region, or was found at the host through no shadow. -/
theorem resolveThrough (hR : R.Fits st₀) {host : Nat} {name : String} {frames : List Frame}
    {st' : Store} (h : R.Respects st₀ st) (hf : ∀ frame ∈ frames, R.table frame.table)
    (hhost : ∀ v, st₀.hostValue? host name = some v →
      v.Within R ∨ ((st₀.snapshot v).Within R ∧ ∀ slot, v = .cell slot → ¬R.cell slot))
    (hres : st.resolveThrough host name frames = some (v, st')) :
    R.Respects st₀ st' ∧ (v.Within R ∨
      ((∀ frame ∈ frames, frame.kind ≠ .shadow) ∧ st₀.hostValue? host name = some v)) := by
  induction frames generalizing v st' with
  | nil =>
    simp only [Store.resolveThrough, Store.hostValue?, h.hosts, Option.map_eq_some_iff] at hres
    obtain ⟨w, hw, heq⟩ := hres
    cases heq
    exact ⟨h, .inr ⟨by simp, hw⟩⟩
  | cons frame outer ih =>
    simp only [Store.resolveThrough] at hres
    split at hres
    · next w hw =>
      cases hres
      exact ⟨h, .inl (h.find? (hf frame (by simp)) hw)⟩
    · have hf' := fun frame hmem => hf frame (List.mem_cons_of_mem _ hmem)
      split at hres
      · next hkind =>
        -- a scope passes on what is found further out
        obtain ⟨h', hv | ⟨hkinds, hv⟩⟩ := ih hf' hres
        · exact ⟨h', .inl hv⟩
        · refine ⟨h', .inr ⟨fun other hmem => ?_, hv⟩⟩
          rcases List.mem_cons.1 hmem with rfl | hmem
          · simp [hkind]
          · exact hkinds other hmem
      · cases hres
      · next w st₁ hkind hfound =>
        obtain ⟨h', hw⟩ := ih hf' hfound
        -- a shadow copies it, and at the host the value in its cell lies in the region even where
        -- the cell does not
        have hsnap : (st₁.snapshot w).Within R := by
          rcases hw with hw | ⟨-, hw⟩
          · exact h'.snapshot hw
          · rcases hhost w hw with hw | ⟨hw, hout⟩
            · exact h'.snapshot hw
            · exact h'.snapshot_outside hw hout
        obtain ⟨hcell, h''⟩ := h'.newCell hR hsnap
        cases hres
        exact ⟨h''.bindIn hcell, .inl hcell⟩

/-- What a name is found to be in a context of the region lies in the region. -/
theorem resolve (hR : R.Fits st₀) {ctx : Context} {name : String} {st' : Store}
    (h : R.Respects st₀ st) (hctx : R.context ctx)
    (hres : st.resolve? ctx.env name = some (v, st')) : v.Within R ∧ R.Respects st₀ st' := by
  have hhost := fun v hv => (hR.host ctx name v hctx hv).imp_right And.right
  obtain ⟨h', hv | ⟨hkinds, hv⟩⟩ := h.resolveThrough hR (hR.tables ctx hctx) hhost hres
  · exact ⟨hv, h'⟩
  · rcases hR.host ctx name v hctx hv with hv | ⟨⟨frame, hmem, hkind⟩, -⟩
    · exact ⟨hv, h'⟩
    · exact absurd hkind (hkinds frame hmem)

theorem bindParams (hR : R.Fits st₀) (params : List String) {args : List Value}
    (names : Table Value) (h : R.Respects st₀ st) (hargs : ∀ v ∈ args, v.Within R)
    (hnames : ∀ entry ∈ names, entry.2.Within R) :
    (∀ entry ∈ (st.bindParams names params args).1, entry.2.Within R) ∧
      R.Respects st₀ (st.bindParams names params args).2 := by
  induction params generalizing st args names with
  | nil => exact ⟨hnames, h⟩
  | cons param params ih =>
    have harg : (args.headD .null).Within R := by
      cases args with
      | nil => trivial
      | cons v rest => exact hargs v (by simp)
    obtain ⟨hcell, h'⟩ := h.newCell hR (h.snapshot harg)
    simp only [Store.bindParams]
    refine ih _ h' (fun v hv => hargs v (List.mem_of_mem_tail hv)) fun entry hentry => ?_
    rcases Table.mem_of_mem_insert hentry with rfl | hentry
    · exact hcell
    · exact hnames entry hentry

theorem openFrame {run : Nat} {kind : FrameKind} {names : Table Value} {env : Env}
    (h : R.Respects st₀ st) (hnames : ∀ entry ∈ names, entry.2.Within R) :
    R.Respects st₀ (st.openFrame run kind names env).2 where
  slots_size := by simpa using h.slots_size
  tables_size := by simpa using Nat.le_succ_of_le h.tables_size
  hosts := by simpa using h.hosts
  outside := by simpa using h.outside
  slots := by simpa using h.slots
  tables table other ht hother := by
    simp only [Store.tables_openFrame, Array.getElem?_push] at hother
    split at hother
    · cases hother
      exact hnames
    · exact h.tables table other ht hother

/-- A new frame belongs to the region. -/
theorem context_openFrame (hR : R.Fits st₀) {ctx : Context} {run : Nat} {kind : FrameKind}
    {names : Table Value} (h : R.Respects st₀ st) (hctx : R.context ctx) :
    R.context { ctx with env := (st.openFrame run kind names ctx.env).1 } := by
  rw [Store.openFrame_fst]
  exact hR.push ctx kind st.tables.size hctx (hR.table _ h.tables_size)

end Respects

end Region

end SearchScript
