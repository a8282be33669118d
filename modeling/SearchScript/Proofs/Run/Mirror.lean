import SearchScript.Proofs.Run.Confinement

/-!
# A speculative store beside a real one

A real run and a speculative run of one program at one host have one frame each: a scope and a
shadow. Whenever the shadow copies what a name stands for, it makes a cell; whenever the program
declares a name, both make one. So each new cell of the speculative store stands for a value of the
real run, which is a cell or data of the host. A mirror lists these values in the order of the
cells, and relates the stores by it: each speculative cell holds what the value stands for now.

## Key definitions

- `Mirror`: the relation between the two stores, relative to the one both runs begin at
- `Mirror.Image`: the relation between the values of the two runs

## Key results

- `Mirror.snapshot`: values related by a mirror have the same value
- `Mirror.resolve`, `Mirror.declare`, `Mirror.assign`: names, declarations and assignments
-/

namespace SearchScript

/-- The region of values that lead nowhere: no cells, no functions made by programs and no files. -/
def Region.none : Region where
  cell _ := False
  table _ := False
  context _ := False
  body _ := False
  files := False

/-- Whether a value leads nowhere: no cell, no function made by a program and no file lookup is in
it. -/
abbrev Value.IsClosed (v : Value) : Prop := v.Within .none

/-- Whether no two names of a host stand for one cell. -/
def Store.BindsOnce (st : Store) (host : Nat) : Prop :=
  ∀ name name' slot, (st.hosts[host]?.getD {}).find? name = some (Value.cell slot) →
    (st.hosts[host]?.getD {}).find? name' = some (Value.cell slot) → name = name'

/-- What a name stands for in a scope over a host. -/
def Store.scopeValue? (st : Store) (table host : Nat) (name : String) : Option Value :=
  match (st.table ⟨.scope, table⟩).find? name with
  | some v => some v
  | none => st.hostValue? host name

/-- Whether the store `τ` of a speculative run mirrors the store `σ` of a real one. Both runs began
at `st₀`; the value at an index of `W` is what the cell made with that number stands for. -/
structure Mirror (st₀ : Store) (host : Nat) (W : List Value) (σ τ : Store) : Prop where
  hosts : σ.hosts = st₀.hosts ∧ τ.hosts = st₀.hosts
  functions : σ.functions = τ.functions
  tables : st₀.tables.size < σ.tables.size ∧ st₀.tables.size < τ.tables.size
  grown : st₀.slots.size ≤ σ.slots.size
  size : τ.slots.size = st₀.slots.size + W.length
  /-- The shadow changes no cell of the host. -/
  outside : ∀ slot < st₀.slots.size, τ.slots[slot]? = st₀.slots[slot]?
  /-- A new cell holds what its value stands for. -/
  cells : ∀ (i : Nat) v, W[i]? = some v → τ.slots[st₀.slots.size + i]? = some (σ.snapshot v)
  closed : ∀ v ∈ W, (σ.snapshot v).IsClosed
  known : ∀ slot, Value.cell slot ∈ W → slot < σ.slots.size
  /-- No real cell has two copies. -/
  once : ∀ i j slot : Nat, W[i]? = some (Value.cell slot) → W[j]? = some (Value.cell slot) → i = j
  /-- The names of the shadow are bound to new cells, and stand for the same in the real run. -/
  bound : ∀ name w, (τ.table ⟨.shadow, st₀.tables.size⟩).find? name = some w →
    ∃ i v, w = .cell (st₀.slots.size + i) ∧ W[i]? = some v ∧
      σ.scopeValue? st₀.tables.size host name = some v
  /-- A name that the shadow lacks is as the host left it. -/
  free : ∀ name, (τ.table ⟨.shadow, st₀.tables.size⟩).find? name = none →
    (σ.table ⟨.scope, st₀.tables.size⟩).find? name = none ∧
      ∀ slot, (st₀.hosts[host]?.getD {}).find? name = some (.cell slot) →
        σ.slots[slot]? = st₀.slots[slot]? ∧ Value.cell slot ∉ W

namespace Store

variable {st st' : Store} {frame : Frame} {name : String} {v w : Value}

theorem snapshot_congr (h : st.slots = st'.slots) (v : Value) : st.snapshot v = st'.snapshot v := by
  cases v <;> simp [snapshot, h]

theorem snapshot_of_isData (h : v.isData = true) : st.snapshot v = v := by
  cases v <;> first | rfl | cases h

theorem lt_of_holdsData {host slot : Nat} (h : st.HoldsData host)
    (hname : (st.hosts[host]?.getD {}).find? name = some (.cell slot)) :
    slot < st.slots.size := by
  rcases h name _ hname with hdata | ⟨slot', w, heq, hw, -⟩
  · cases hdata
  · cases heq
    exact (Array.getElem?_eq_some_iff.1 hw).1

theorem hostValue?_of_ne (h : name ≠ "File") {host : Nat} :
    st.hostValue? host name = (st.hosts[host]?.getD {}).find? name := by
  simp only [hostValue?, h, if_false]
  split <;> simp_all

theorem table_bindIn (h : frame.table < st.tables.size) (kind : FrameKind) :
    (st.bindIn frame name v).table ⟨kind, frame.table⟩ =
      Table.insert name v (st.table ⟨kind, frame.table⟩) := by
  simp [bindIn, table, Array.getElem?_modify, Array.getElem?_eq_getElem h]

end Store

namespace Mirror

variable {st₀ σ τ : Store} {host : Nat} {W W' : List Value} {v w : Value}

/-- Whether a value of the speculative run is the image of one of the real run: the same value, or
a new cell that stands for it. -/
def Image (st₀ : Store) (W : List Value) (v w : Value) : Prop :=
  (v = w ∧ v.IsClosed) ∨ ∃ i, w = .cell (st₀.slots.size + i) ∧ W[i]? = some v

/-- What a cell stands for does not change. -/
theorem Image.mono (h : Image st₀ W v w) (hW : W <+: W') : Image st₀ W' v w := by
  rcases h with h | ⟨i, hw, hi⟩
  · exact .inl h
  · obtain ⟨rest, rfl⟩ := hW
    exact .inr ⟨i, hw, by rw [List.getElem?_append_left (List.getElem?_eq_some_iff.1 hi).1, hi]⟩

theorem Image.of_closed (h : v.IsClosed) : Image st₀ W v v := .inl ⟨rfl, h⟩

/-- Values related by a mirror have the same value, which leads nowhere. -/
theorem snapshot (h : Mirror st₀ host W σ τ) (hv : Image st₀ W v w) :
    τ.snapshot w = σ.snapshot v ∧ (σ.snapshot v).IsClosed := by
  rcases hv with ⟨rfl, hv⟩ | ⟨i, rfl, hi⟩
  · cases v with
    | cell slot => exact hv.elim
    | _ => exact ⟨rfl, hv⟩
  · exact ⟨by simp [Store.snapshot, h.cells i v hi], h.closed v (List.mem_of_getElem? hi)⟩

private theorem getElem?_concat_eq_some {i : Nat} (h : (W ++ [v])[i]? = some w) :
    W[i]? = some w ∨ i = W.length ∧ w = v := by
  rcases Nat.lt_or_ge i W.length with hlt | hge
  · exact .inl (by rwa [List.getElem?_append_left hlt] at h)
  · rw [List.getElem?_append_right hge] at h
    obtain ⟨hi, hv⟩ := List.getElem?_eq_some_iff.1 h
    simp only [List.length_singleton] at hi
    exact .inr ⟨by omega, by simpa using hv.symm⟩

/-- The shadow binds a name to a new cell that stands for a value which the name stands for in the
real run from now on. -/
theorem push {σ' : Store} {name : String} (x : Value) (h : Mirror st₀ host W σ τ)
    (hslots : σ'.slots = σ.slots) (hhosts : σ'.hosts = σ.hosts)
    (hfunctions : σ'.functions = σ.functions) (htables : σ.tables.size ≤ σ'.tables.size)
    (hother : ∀ other, other ≠ name → (σ'.table ⟨.scope, st₀.tables.size⟩).find? other =
      (σ.table ⟨.scope, st₀.tables.size⟩).find? other)
    (hname : σ'.scopeValue? st₀.tables.size host name = some v)
    (hx : τ.snapshot x = σ.snapshot v) (hclosed : (σ.snapshot v).IsClosed)
    (hnew : ∀ slot, v = .cell slot → slot < σ.slots.size ∧ Value.cell slot ∉ W ∧
      ∀ other, other ≠ name → (st₀.hosts[host]?.getD {}).find? other ≠ some (.cell slot)) :
    Mirror st₀ host (W ++ [v]) σ'
      ((τ.newCell x).2.bindIn ⟨.shadow, st₀.tables.size⟩ name (τ.newCell x).1) := by
  -- what the shadow, the real scope and the new cell are after the step
  have htable : ((τ.newCell x).2.bindIn ⟨.shadow, st₀.tables.size⟩ name (τ.newCell x).1).table
      ⟨.shadow, st₀.tables.size⟩ =
        Table.insert name (τ.newCell x).1 (τ.table ⟨.shadow, st₀.tables.size⟩) :=
    Store.table_bindIn h.tables.2 .shadow
  have hvalue : ∀ other, other ≠ name → σ'.scopeValue? st₀.tables.size host other =
      σ.scopeValue? st₀.tables.size host other := by
    intro other hne
    simp only [Store.scopeValue?, hother other hne, Store.hostValue?, hhosts]
  have hcell : (τ.newCell x).1 = .cell (st₀.slots.size + W.length) := by
    simp [Store.newCell, h.size]
  -- the trail grows by `v` at its end, which is where the new cell is; what was there keeps its
  -- place
  constructor
  case hosts => exact ⟨hhosts.trans h.hosts.1, h.hosts.2⟩
  case functions => exact hfunctions.trans h.functions
  case tables =>
    exact ⟨Nat.lt_of_lt_of_le h.tables.1 htables, by simpa [Store.bindIn, Store.newCell] using h.tables.2⟩
  case grown => exact hslots ▸ h.grown
  case size => simp [Store.bindIn, Store.newCell, h.size, Nat.add_assoc]
  case outside =>
    intro slot hslot
    rw [← h.outside slot hslot]
    have : slot ≠ τ.slots.size := by have := h.size; omega
    simp [Store.bindIn, Store.newCell, Array.getElem?_push, this]
  case cells =>
    intro i u hi
    rw [Store.snapshot_congr hslots]
    -- a cell and what it stands for are old, or both are new
    rcases getElem?_concat_eq_some hi with hi | ⟨rfl, rfl⟩
    · have hlt := (List.getElem?_eq_some_iff.1 hi).1
      have : st₀.slots.size + i ≠ τ.slots.size := by have := h.size; omega
      simpa [Store.bindIn, Store.newCell, Array.getElem?_push, this] using h.cells i u hi
    · simp [Store.bindIn, Store.newCell, ← h.size, hx]
  case closed =>
    intro u hu
    rw [Store.snapshot_congr hslots]
    rcases List.mem_append.1 hu with hu | hu
    · exact h.closed u hu
    · rw [List.mem_singleton.1 hu]
      exact hclosed
  case known =>
    intro slot hslot
    rw [hslots]
    rcases List.mem_append.1 hslot with hslot | hslot
    · exact h.known slot hslot
    · exact (hnew slot (List.mem_singleton.1 hslot).symm).1
  case once =>
    intro i j slot hi hj
    -- the new cell stands for a value that no older one stands for
    rcases getElem?_concat_eq_some hi with hi | ⟨hi, hv⟩ <;>
      rcases getElem?_concat_eq_some hj with hj | ⟨hj, hv'⟩
    · exact h.once i j slot hi hj
    · exact absurd (List.mem_of_getElem? hi) (hnew slot hv'.symm).2.1
    · exact absurd (List.mem_of_getElem? hj) (hnew slot hv.symm).2.1
    · rw [hi, hj]
  case bound =>
    intro other w hw
    rw [htable] at hw
    by_cases hne : other = name
    · subst hne
      rw [Table.find?_insert] at hw
      exact ⟨W.length, v, by rw [← hcell]; exact (Option.some.inj hw).symm, by simp, hname⟩
    · rw [Table.find?_insert_ne hne] at hw
      obtain ⟨i, u, hw, hi, hu⟩ := h.bound other w hw
      refine ⟨i, u, hw, ?_, (hvalue other hne).trans hu⟩
      rw [List.getElem?_append_left (List.getElem?_eq_some_iff.1 hi).1, hi]
  case free =>
    intro other hfind
    rw [htable] at hfind
    by_cases hne : other = name
    · subst hne
      rw [Table.find?_insert] at hfind
      cases hfind
    · rw [Table.find?_insert_ne hne] at hfind
      obtain ⟨hnone, hcells⟩ := h.free other hfind
      refine ⟨(hother other hne).trans hnone, fun slot hslot => ?_⟩
      obtain ⟨hsame, hmem⟩ := hcells slot hslot
      refine ⟨by rw [hslots, hsame], fun hmem' => ?_⟩
      rcases List.mem_append.1 hmem' with hmem' | hmem'
      · exact hmem hmem'
      · exact (hnew slot (List.mem_singleton.1 hmem').symm).2.2 other hne hslot

/-- A name stands for the same in both runs, or for nothing in both. -/
theorem resolve {name : String} (h : Mirror st₀ host W σ τ) (hdata : st₀.HoldsData host)
    (honce : st₀.BindsOnce host) (hname : name ≠ "File") :
    (∃ v w τ' W', σ.resolve? ⟨[⟨.scope, st₀.tables.size⟩], host⟩ name = some (v, σ) ∧
      τ.resolve? ⟨[⟨.shadow, st₀.tables.size⟩], host⟩ name = some (w, τ') ∧ W <+: W' ∧
        Mirror st₀ host W' σ τ' ∧ Image st₀ W' v w) ∨
    (σ.resolve? ⟨[⟨.scope, st₀.tables.size⟩], host⟩ name = none ∧
      τ.resolve? ⟨[⟨.shadow, st₀.tables.size⟩], host⟩ name = none) := by
  have hreal : σ.resolve? ⟨[⟨.scope, st₀.tables.size⟩], host⟩ name =
      (σ.scopeValue? st₀.tables.size host name).map (·, σ) := by
    simp only [Store.resolve?, Store.resolveThrough, Store.scopeValue?]
    split <;> simp_all
  cases hfind : (τ.table ⟨.shadow, st₀.tables.size⟩).find? name with
  | some w =>
    obtain ⟨i, v, rfl, hi, hv⟩ := h.bound name w hfind
    refine .inl ⟨v, _, τ, W, by rw [hreal, hv]; rfl, ?_, List.prefix_refl W, h, .inr ⟨i, rfl, hi⟩⟩
    simp [Store.resolve?, Store.resolveThrough, hfind]
  | none =>
    obtain ⟨hnone, hcells⟩ := h.free name hfind
    have hhost : τ.hostValue? host name = st₀.hostValue? host name := by
      simp only [Store.hostValue?, h.hosts.2]
    have hscope : σ.scopeValue? st₀.tables.size host name = st₀.hostValue? host name := by
      simp only [Store.scopeValue?, hnone, Store.hostValue?, h.hosts.1]
    cases hv : st₀.hostValue? host name with
    | none =>
      refine .inr ⟨by rw [hreal, hscope, hv]; rfl, ?_⟩
      simp [Store.resolve?, Store.resolveThrough, hfind, hhost, hv]
    | some v =>
      rw [Store.hostValue?_of_ne hname] at hv
      -- what the host binds is data, or a cell that nothing has changed so far
      have hsame : τ.snapshot v = σ.snapshot v ∧ (σ.snapshot v).IsClosed ∧
          ∀ slot, v = .cell slot → slot < σ.slots.size := by
        rcases hdata name v hv with hdata | ⟨slot, w, rfl, hw, hdata⟩
        · rw [Store.snapshot_of_isData hdata, Store.snapshot_of_isData hdata]
          refine ⟨rfl, Value.within_of_isData hdata, fun slot hslot => ?_⟩
          rw [hslot] at hdata
          cases hdata
        · have hlt := (Array.getElem?_eq_some_iff.1 hw).1
          have hσ := (hcells slot hv).1
          simp only [Store.snapshot, h.outside slot hlt, hσ, hw, Option.getD_some]
          refine ⟨trivial, Value.within_of_isData hdata, fun other hother => ?_⟩
          cases hother
          exact Nat.lt_of_lt_of_le hlt h.grown
      obtain ⟨hx, hclosed, hlt⟩ := hsame
      have hpush := h.push v rfl rfl rfl (Nat.le_refl _) (fun _ _ => rfl)
        (hscope.trans ((Store.hostValue?_of_ne hname).trans hv)) hx hclosed fun slot hslot =>
          ⟨hlt slot hslot, (hcells slot (hslot ▸ hv)).2,
            fun other hne hother => hne (honce other name slot hother (hslot ▸ hv))⟩
      refine .inl ⟨v, (τ.newCell v).1, _, W ++ [v], ?_, ?_, List.prefix_append W [v], hpush,
        .inr ⟨W.length, ?_, by simp⟩⟩
      · rw [hreal, hscope, Store.hostValue?_of_ne hname, hv]
        rfl
      · simp [Store.resolve?, Store.resolveThrough, hfind, hhost, Store.hostValue?_of_ne hname, hv]
      · simp [Store.newCell, h.size]

/-- A declaration binds a name in both runs. -/
theorem declare {name : String} (h : Mirror st₀ host W σ τ) (hdata : st₀.HoldsData host)
    (hv : Image st₀ W v w) :
    Mirror st₀ host (W ++ [(σ.newCell v).1])
      ((σ.newCell v).2.bindIn ⟨.scope, st₀.tables.size⟩ name (σ.newCell v).1)
      ((τ.newCell w).2.bindIn ⟨.shadow, st₀.tables.size⟩ name (τ.newCell w).1) := by
  obtain ⟨hsame, hclosed⟩ := h.snapshot hv
  -- the new real cell does not disturb what the old ones hold
  have hold : ∀ slot, slot < σ.slots.size → (σ.newCell v).2.slots[slot]? = σ.slots[slot]? := by
    intro slot hslot
    simp [Store.newCell, Array.getElem?_push, Nat.ne_of_lt hslot]
  have hsnapshot : ∀ u ∈ W, (σ.newCell v).2.snapshot u = σ.snapshot u := by
    intro u hu
    cases u with
    | cell slot => simp only [Store.snapshot, hold slot (h.known slot hu)]
    | _ => rfl
  have hgrow : Mirror st₀ host W (σ.newCell v).2 τ :=
    { h with
      grown := by simpa [Store.newCell] using Nat.le_succ_of_le h.grown
      cells := fun i u hi => by
        rw [hsnapshot u (List.mem_of_getElem? hi)]
        exact h.cells i u hi
      closed := fun u hu => hsnapshot u hu ▸ h.closed u hu
      known := fun slot hslot => by
        simpa [Store.newCell] using Nat.lt_succ_of_lt (h.known slot hslot)
      free := fun name hname => by
        obtain ⟨hnone, hcells⟩ := h.free name hname
        refine ⟨hnone, fun slot hslot => ?_⟩
        rw [hold slot (Nat.lt_of_lt_of_le (Store.lt_of_holdsData hdata hslot) h.grown)]
        exact hcells slot hslot }
  have htable : ((σ.newCell v).2.bindIn ⟨.scope, st₀.tables.size⟩ name (σ.newCell v).1).table
      ⟨.scope, st₀.tables.size⟩ =
        Table.insert name (σ.newCell v).1 ((σ.newCell v).2.table ⟨.scope, st₀.tables.size⟩) :=
    Store.table_bindIn h.tables.1 .scope
  have hnewcell : (σ.newCell v).2.snapshot (σ.newCell v).1 = σ.snapshot v := by
    simp [Store.newCell, Store.snapshot]
  refine hgrow.push w rfl rfl rfl (by simp [Store.bindIn]) (fun other hne => ?_) ?_
    (hsame.trans hnewcell.symm) (hnewcell ▸ hclosed) fun slot hslot => ?_
  · rw [htable, Table.find?_insert_ne hne]
  · rw [Store.scopeValue?, htable, Table.find?_insert]
  · obtain rfl : σ.slots.size = slot := by simpa [Store.newCell] using hslot
    refine ⟨by simp [Store.newCell], fun hmem => Nat.lt_irrefl _ (h.known _ hmem), ?_⟩
    intro other _ hother
    exact Nat.lt_irrefl _
      (Nat.lt_of_lt_of_le (Store.lt_of_holdsData hdata hother) h.grown)

/-- An assignment changes a real cell and the cell that stands for it. -/
theorem assign {slot : Nat} {u u' : Value} (h : Mirror st₀ host W σ τ)
    (ht : Image st₀ W (.cell slot) w) (hu : Image st₀ W u u') :
    ∃ τ', τ.assign w u' = .ok τ' ∧
      Mirror st₀ host W { σ with slots := σ.slots.setIfInBounds slot (σ.snapshot u) } τ' := by
  rcases ht with ⟨-, hfalse⟩ | ⟨i, rfl, hi⟩
  · exact hfalse.elim
  obtain ⟨hsame, hclosed⟩ := h.snapshot hu
  have hslot := h.known slot (List.mem_of_getElem? hi)
  have hlt := (List.getElem?_eq_some_iff.1 hi).1
  -- no other new cell stands for the real cell that is changed
  have hsnapshot : ∀ j v, j ≠ i → W[j]? = some v →
      { σ with slots := σ.slots.setIfInBounds slot (σ.snapshot u) }.snapshot v =
        σ.snapshot v := by
    intro j v hne hj
    cases v with
    | cell other =>
      have : slot ≠ other := fun heq => hne (h.once j i slot (heq ▸ hj) hi)
      simp [Store.snapshot, this]
    | _ => rfl
  have hchanged : { σ with slots := σ.slots.setIfInBounds slot (σ.snapshot u) }.snapshot
      (.cell slot) = σ.snapshot u := by
    simp [Store.snapshot, hslot]
  refine ⟨_, rfl, { h with
    grown := ?grown, size := ?size, outside := ?outside, cells := ?cells, closed := ?closed
    known := ?known, free := ?free }⟩
  case grown => simpa using h.grown
  case size => simpa using h.size
  case outside =>
    intro other hother
    have : st₀.slots.size + i ≠ other := by omega
    simpa [this] using h.outside other hother
  case cells =>
    intro j v hj
    by_cases hne : j = i
    · subst hne
      obtain rfl : v = .cell slot := by simpa [hj] using hi
      have : st₀.slots.size + j < τ.slots.size := by have := h.size; omega
      rw [hchanged, hsame]
      simp [this]
    · rw [hsnapshot j v hne hj]
      simpa [Array.getElem?_setIfInBounds, Ne.symm hne] using h.cells j v hj
  case closed =>
    intro v hv
    obtain ⟨j, hj⟩ := List.mem_iff_getElem?.1 hv
    by_cases hne : j = i
    · subst hne
      obtain rfl : v = .cell slot := by simpa [hj] using hi
      rw [hchanged]
      exact hclosed
    · rw [hsnapshot j v hne hj]
      exact h.closed v hv
  case known => simpa using h.known
  case free =>
    intro name hname
    obtain ⟨hnone, hcells⟩ := h.free name hname
    refine ⟨hnone, fun other hother => ?_⟩
    obtain ⟨hsame', hmem⟩ := hcells other hother
    have : slot ≠ other := fun heq => hmem (heq ▸ List.mem_of_getElem? hi)
    exact ⟨by simpa [this] using hsame', hmem⟩

end Mirror

end SearchScript
