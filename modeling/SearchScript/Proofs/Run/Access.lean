import SearchScript.Proofs.Run.Operations
import SearchScript.Run.Store
import Mathlib.Logic.Relation

/-!
# What a shadow gives access to

A client that looks names up behind a shadow never gets at the cell that a name is bound to: the
shadow keeps a copy of what the cell holds. The copy of a list has the same items, though, and a
cell among them is the cell of the host. So there is access to the cells that stand in lists, in
lists inside of these and in lists that such cells hold, and to no others.

## Key definitions

- `Store.Lends`: what can be taken out of the lists that a host binds
- `Client.Step`: what a client of a resolver can do

## Key results

- `Client.Confined.step`, `Client.confined_of_reaches`: a client gets at nothing but what is lent,
  what was made since, and data
- `Client.slots_kept_iff`: a cell keeps its value behind a shadow exactly if it is not lent
-/

namespace SearchScript

/-- Whether a value can be taken, item by item, out of the lists that a host binds. -/
inductive Store.Lends (st : Store) (host : Nat) : Value → Prop
  | bound {name : String} {v item : Value} {n : Number} : st.hostValue? host name = some v →
      (st.snapshot v).subscript (.number n) = .ok item → Lends st host item
  | item {v item : Value} {n : Number} : Lends st host v →
      (st.snapshot v).subscript (.number n) = .ok item → Lends st host item

/-- A client of a resolver: the values that it holds, and the store. -/
structure Client where
  held : List Value
  store : Store

/-- What a client can do next: bring data of its own, look a name up, take an item of a list, store
a value into a cell, put it in a new cell, or bind a name to it. -/
inductive Client.Step (env : Env) : Client → Client → Prop
  | data {held : List Value} {st : Store} {v : Value} : v.isData = true →
      Step env ⟨held, st⟩ ⟨v :: held, st⟩
  | resolve {held : List Value} {st st' : Store} {name : String} {v : Value} :
      st.resolve? env name = some (v, st') → Step env ⟨held, st⟩ ⟨v :: held, st'⟩
  | index {held : List Value} {st : Store} {v index item : Value} : v ∈ held → index ∈ held →
      (st.snapshot v).subscript (st.snapshot index) = .ok item →
      Step env ⟨held, st⟩ ⟨item :: held, st⟩
  | assign {held : List Value} {st st' : Store} {target v : Value} : target ∈ held → v ∈ held →
      st.assign target v = .ok st' → Step env ⟨held, st⟩ ⟨held, st'⟩
  | newCell {held : List Value} {st : Store} {v : Value} : v ∈ held →
      Step env ⟨held, st⟩ ⟨(st.newCell v).1 :: held, (st.newCell v).2⟩
  | bind {held : List Value} {st : Store} {v : Value} (name : String) : v ∈ held →
      Step env ⟨held, st⟩ ⟨held, st.bind env name v⟩

/-- What a client can come to, one thing after another. -/
abbrev Client.Reaches (env : Env) : Client → Client → Prop := Relation.ReflTransGen (Step env)

/-- A client that holds nothing yet, behind a new shadow of a host. -/
def Client.behindShadow (st : Store) (host : Nat) : Env × Client :=
  let (env, st) := st.newFrame .shadow [] ⟨[], host⟩
  (env, ⟨[], st⟩)

namespace Client

variable {st₀ st : Store} {host slot : Nat} {v w index item : Value} {s s' : Client}

/-! ## Items -/

/-- A cell that the store lacks holds no list. -/
theorem lt_size_of_subscript (h : (st.snapshot (.cell slot)).subscript index = .ok item) :
    slot < st.slots.size := by
  refine Nat.lt_of_not_le fun hle => ?_
  rw [Store.snapshot, Array.getElem?_eq_none hle] at h
  cases h

/-! ## What a client behind a shadow may hold -/

/-- Whether a client behind a shadow may hold a value: it is lent, a cell made since, or data. -/
def MayHold (st₀ : Store) (host : Nat) (v : Value) : Prop :=
  st₀.Lends host v ∨ (∃ slot, v = .cell slot ∧ st₀.slots.size ≤ slot) ∨ v.isData = true

/-- Whether a client may hold all items of a value. -/
def MayIndex (st₀ : Store) (host : Nat) (v : Value) : Prop :=
  ∀ n item, v.subscript (.number n) = .ok item → MayHold st₀ host item

theorem mayIndex_of_isData (h : v.isData = true) : MayIndex st₀ host v := by
  intro n item hitem
  have hbinary : Value.binary .subscript v (.number n) = .ok item := hitem
  exact .inr (.inr (Value.isData_of_binary_of_isData h hbinary))

/-- What a client is confined to behind a shadow that was opened over the store `st₀`. -/
structure Confined (st₀ : Store) (host : Nat) (s : Client) : Prop where
  held : ∀ v ∈ s.held, MayHold st₀ host v
  hosts : s.store.hosts = st₀.hosts
  size : st₀.slots.size ≤ s.store.slots.size
  kept : ∀ slot < st₀.slots.size, ¬st₀.Lends host (.cell slot) →
    s.store.slots[slot]? = st₀.slots[slot]?
  items : ∀ v, MayHold st₀ host v → MayIndex st₀ host (s.store.snapshot v)
  names : ∀ name v, (s.store.table ⟨.shadow, st₀.tables.size⟩).find? name = some v →
    MayHold st₀ host v

namespace Confined

/-- The value of anything bound at the host may be copied into the shadow. -/
theorem mayIndex_hostValue {name : String} (h : Confined st₀ host s)
    (hv : st₀.hostValue? host name = some v) : MayIndex st₀ host (s.store.snapshot v) := by
  by_cases hhold : MayHold st₀ host v
  · exact h.items v hhold
  · -- a cell of the host that is not lent still has the value that it had
    have hsame : s.store.snapshot v = st₀.snapshot v := by
      cases v with
      | cell slot =>
        simp only [MayHold, not_or] at hhold
        have hslot : slot < st₀.slots.size :=
          Nat.lt_of_not_le fun hle => hhold.2.1 ⟨slot, rfl, hle⟩
        simp only [Store.snapshot, h.kept slot hslot hhold.1]
      | _ => rfl
    rw [hsame]
    exact fun n item hitem => .inl (.bound hv hitem)

theorem hold (h : Confined st₀ host s) (hv : MayHold st₀ host v) :
    Confined st₀ host ⟨v :: s.held, s.store⟩ :=
  { h with held := List.forall_mem_cons.2 ⟨hv, h.held⟩ }

theorem newCell (h : Confined st₀ host s) (hv : MayIndex st₀ host (s.store.snapshot v)) :
    Confined st₀ host ⟨(s.store.newCell v).1 :: s.held, (s.store.newCell v).2⟩ := by
  refine { h with held := ?_, size := ?_, kept := ?_, items := ?_ }
  · exact List.forall_mem_cons.2 ⟨.inr (.inl ⟨_, rfl, h.size⟩), h.held⟩
  · simpa [Store.newCell] using Nat.le_succ_of_le h.size
  · intro slot hslot hlent
    have hne : slot ≠ s.store.slots.size := Nat.ne_of_lt (Nat.lt_of_lt_of_le hslot h.size)
    simpa [Store.newCell, Array.getElem?_push, hne] using h.kept slot hslot hlent
  · intro w hw
    cases w with
    | cell slot =>
      by_cases hslot : slot = s.store.slots.size
      · simpa [Store.newCell, Store.snapshot, hslot] using hv
      · simpa [Store.newCell, Store.snapshot, Array.getElem?_push, hslot] using h.items _ hw
    | _ => exact h.items _ hw

theorem bind (h : Confined st₀ host s) (hv : MayHold st₀ host v) (name : String) (env : Env)
    (henv : env.frames = [⟨.shadow, st₀.tables.size⟩]) :
    Confined st₀ host ⟨s.held, s.store.bind env name v⟩ := by
  have hbind : s.store.bind env name v = s.store.bindIn ⟨.shadow, st₀.tables.size⟩ name v := by
    simp only [Store.bind, henv]
  rw [hbind]
  refine { h with names := fun other w hw => ?_ }
  by_cases hother : other = name
  · subst hother
    cases ht : s.store.tables[st₀.tables.size]? with
    | none => simp [Store.table, Store.bindIn, Array.getElem?_modify, ht, Table.find?] at hw
    | some names =>
      simp only [Store.table, Store.bindIn, Array.getElem?_modify, ht, if_true, Option.map_some,
        Option.getD_some, Table.find?_insert, Option.some.injEq] at hw
      exact hw ▸ hv
  · refine h.names other w ?_
    cases ht : s.store.tables[st₀.tables.size]? with
    | none => simp [Store.table, Store.bindIn, Array.getElem?_modify, ht, Table.find?] at hw
    | some names =>
      simpa [Store.table, Store.bindIn, Array.getElem?_modify, ht,
        Table.find?_insert_ne hother] using hw

theorem assign {target : Value} {st' : Store} (h : Confined st₀ host s)
    (ht : MayHold st₀ host target) (hv : MayIndex st₀ host (s.store.snapshot v))
    (heq : s.store.assign target v = .ok st') : Confined st₀ host ⟨s.held, st'⟩ := by
  cases target with
  | cell slot =>
    cases heq
    refine { h with size := by simpa using h.size, kept := ?_, items := ?_ }
    · intro other hother hlent
      have hne : slot ≠ other := by
        rintro rfl
        rcases ht with ht | ⟨slot', heq, hslot'⟩ | ht
        · exact hlent ht
        · cases heq
          omega
        · cases ht
      simpa [hne] using h.kept other hother hlent
    · intro w hw
      cases w with
      | cell other =>
        by_cases hother : slot = other
        · subst hother
          by_cases hslot : slot < s.store.slots.size
          · simpa [Store.snapshot, hslot] using hv
          · simpa [Store.snapshot, hslot] using mayIndex_of_isData (v := .null) rfl
        · simpa [Store.snapshot, hother] using h.items _ hw
      | _ => exact h.items _ hw
  | _ => cases heq

/-- Looking a name up behind the shadow gives what the shadow has, or a new cell. -/
theorem resolve {env : Env} {name : String} {st' : Store} (h : Confined st₀ host s)
    (henv : env = ⟨[⟨.shadow, st₀.tables.size⟩], host⟩)
    (hres : s.store.resolve? env name = some (v, st')) :
    Confined st₀ host ⟨v :: s.held, st'⟩ := by
  subst henv
  simp only [Store.resolve?, Store.resolveThrough] at hres
  split at hres
  · next w hfound =>
    cases hres
    exact h.hold (h.names name _ hfound)
  · cases hfound : s.store.hostValue? host name with
    | none => simp [hfound] at hres
    | some w =>
      simp only [hfound, Option.map_some, Option.some.injEq, Prod.mk.injEq] at hres
      obtain ⟨rfl, rfl⟩ := hres
      have hw : st₀.hostValue? host name = some w := by
        simpa only [Store.hostValue?, h.hosts] using hfound
      have hcell := h.newCell (h.mayIndex_hostValue hw)
      exact hcell.bind (hcell.held _ List.mem_cons_self) name ⟨[⟨.shadow, _⟩], host⟩ rfl

/-- Whatever a client does, it stays confined. -/
theorem step {env : Env} (h : Confined st₀ host s)
    (henv : env = ⟨[⟨.shadow, st₀.tables.size⟩], host⟩) (hstep : Step env s s') :
    Confined st₀ host s' := by
  cases hstep with
  | data hv => exact h.hold (.inr (.inr hv))
  | resolve hres => exact h.resolve henv hres
  | index hv hindex hitem =>
    obtain ⟨n, hn⟩ := Value.exists_number_of_subscript hitem
    rw [hn] at hitem
    exact h.hold (h.items _ (h.held _ hv) n _ hitem)
  | assign htarget hv heq => exact h.assign (h.held _ htarget) (h.items _ (h.held _ hv)) heq
  | newCell hv => exact h.newCell (h.items _ (h.held _ hv))
  | bind name hv => exact h.bind (h.held _ hv) name env (by rw [henv])

end Confined

theorem confined_behindShadow (st : Store) (host : Nat) :
    Confined st host (behindShadow st host).2 where
  held := nofun
  hosts := rfl
  size := Nat.le_refl _
  kept _ _ _ := rfl
  items v hv := by
    rcases hv with hv | ⟨slot, rfl, hslot⟩ | hv
    · exact fun n item hitem => .inl (.item hv hitem)
    · intro n item hitem
      exact absurd (lt_size_of_subscript hitem) (Nat.not_lt.2 hslot)
    · have hsnapshot : st.snapshot v = v := by cases v <;> first | rfl | cases hv
      show MayIndex st host (st.snapshot v)
      rw [hsnapshot]
      exact mayIndex_of_isData hv
  names name v hv := by
    simp [behindShadow, Store.newFrame, Store.table, Table.find?] at hv

/-- A client that starts behind a shadow is confined ever after. -/
theorem confined_of_reaches
    (h : Reaches (behindShadow st₀ host).1 (behindShadow st₀ host).2 s) :
    Confined st₀ host s := by
  induction h with
  | refl => exact confined_behindShadow st₀ host
  | tail _ hstep ih => exact ih.step rfl hstep

/-! ## What is lent can be had -/

/-- Whether all cells of a store have the values that they had. -/
def Untouched (st₀ : Store) (s : Client) : Prop :=
  ∀ slot < st₀.slots.size, s.store.slots[slot]? = st₀.slots[slot]?

/-- Looking a name up gives a client a copy of what the host binds it to. -/
theorem exists_reaches_copy {name : String} (hv : st₀.hostValue? host name = some v) :
    ∃ s copy, Reaches (behindShadow st₀ host).1 (behindShadow st₀ host).2 s ∧ Untouched st₀ s ∧
      copy ∈ s.held ∧ s.store.snapshot copy = st₀.snapshot v := by
  have hresolve : (behindShadow st₀ host).2.store.resolve? (behindShadow st₀ host).1 name =
      some (.cell st₀.slots.size, ((behindShadow st₀ host).2.store.newCell v).2.bindIn
        ⟨.shadow, st₀.tables.size⟩ name (.cell st₀.slots.size)) := by
    have hhost : (behindShadow st₀ host).2.store.hostValue? host name = some v := hv
    have htable : (behindShadow st₀ host).2.store.table ⟨.shadow, st₀.tables.size⟩ = [] := by
      simp [behindShadow, Store.newFrame, Store.table]
    show Store.resolveThrough _ host name [⟨.shadow, st₀.tables.size⟩] = _
    simp only [Store.resolveThrough, htable, Table.find?, hhost, Option.map_some]
    rfl
  have hslots : ∀ slot < st₀.slots.size,
      (st₀.slots.push (st₀.snapshot v))[slot]? = st₀.slots[slot]? := by
    intro slot hslot
    rw [Array.getElem?_push, if_neg (Nat.ne_of_lt hslot)]
  refine ⟨_, _, .single (.resolve hresolve), hslots, List.mem_cons_self, ?_⟩
  show ((st₀.slots.push (st₀.snapshot v))[st₀.slots.size]?).getD .null = st₀.snapshot v
  rw [Array.getElem?_push_size, Option.getD_some]

/-- What a client holds can be indexed by a number of its own. -/
theorem reaches_index {env : Env} {n : Number} (hv : v ∈ s.held)
    (hitem : (s.store.snapshot v).subscript (.number n) = .ok item) :
    Reaches env s ⟨item :: .number n :: s.held, s.store⟩ :=
  .tail (.single (.data rfl)) (.index (List.mem_cons_of_mem _ hv) List.mem_cons_self hitem)

/-- A client can get hold of all that is lent without a change at the host. -/
theorem exists_reaches_of_lends (h : st₀.Lends host v) :
    ∃ s, Reaches (behindShadow st₀ host).1 (behindShadow st₀ host).2 s ∧ Untouched st₀ s ∧
      v ∈ s.held := by
  induction h with
  | bound hv hitem =>
    obtain ⟨s, copy, hreach, huntouched, hheld, hcopy⟩ := exists_reaches_copy hv
    exact ⟨_, hreach.trans (reaches_index hheld (hcopy ▸ hitem)), huntouched, List.mem_cons_self⟩
  | @item v _ _ _ hitem ih =>
    obtain ⟨s, hreach, huntouched, hheld⟩ := ih
    have hsame : s.store.snapshot v = st₀.snapshot v := by
      cases v with
      | cell slot =>
        simp only [Store.snapshot, huntouched slot (lt_size_of_subscript hitem)]
      | _ => rfl
    exact ⟨_, hreach.trans (reaches_index hheld (hsame ▸ hitem)), huntouched, List.mem_cons_self⟩

/-- A cell that is lent can be given another value. -/
theorem exists_reaches_of_lends_cell (hslot : slot < st₀.slots.size)
    (h : st₀.Lends host (.cell slot)) :
    ∃ s, Reaches (behindShadow st₀ host).1 (behindShadow st₀ host).2 s ∧
      s.store.slots[slot]? ≠ st₀.slots[slot]? := by
  obtain ⟨s, hreach, huntouched, hheld⟩ := exists_reaches_of_lends h
  obtain ⟨other, hdata, hother⟩ : ∃ other : Value, other.isData = true ∧
      st₀.slots[slot]? ≠ some other := by
    by_cases hnull : st₀.slots[slot]? = some .null
    · exact ⟨.boolean true, rfl, by simp [hnull]⟩
    · exact ⟨.null, rfl, hnull⟩
  have hassign : s.store.assign (.cell slot) other =
      .ok { s.store with slots := s.store.slots.setIfInBounds slot other } := by
    cases other <;> first | rfl | cases hdata
  refine ⟨_, (hreach.tail (.data hdata)).tail
    (.assign (List.mem_cons_of_mem _ hheld) List.mem_cons_self hassign), ?_⟩
  have hsize : slot < s.store.slots.size := by
    have hsome := huntouched slot hslot
    rw [Array.getElem?_eq_getElem hslot] at hsome
    exact (Array.getElem?_eq_some_iff.1 hsome).1
  simpa [hsize] using Ne.symm hother

/-- A cell of the host keeps its value behind a shadow, whatever a client does, exactly if it cannot
be taken out of the lists that the host binds. -/
theorem slots_kept_iff (hslot : slot < st₀.slots.size) :
    (∀ s, Reaches (behindShadow st₀ host).1 (behindShadow st₀ host).2 s →
      s.store.slots[slot]? = st₀.slots[slot]?) ↔ ¬st₀.Lends host (.cell slot) := by
  constructor
  · intro hkept hlent
    obtain ⟨s, hreach, hne⟩ := exists_reaches_of_lends_cell hslot hlent
    exact hne (hkept s hreach)
  · exact fun hlent s hreach => (confined_of_reaches hreach).kept slot hslot hlent

/-- A store with a list that holds the cell 0, and with a name for the cell 1. -/
def listAndName : Store :=
  { slots := #[.boolean true, .boolean true]
    hosts := #[{ globals := [("items", .list [.cell 0]), ("name", .cell 1)] }] }

theorem eq_cell_of_lends_listAndName (h : listAndName.Lends 0 v) : v = .cell 0 := by
  induction h with
  | @bound name v item n hv hitem =>
    have hbound : v = .list [.cell 0] ∨ v = .cell 1 ∨ v = .fileConstructor none := by
      simp only [Store.hostValue?, Host.find?, listAndName, List.getElem?_toArray,
        List.getElem?_cons_zero, Option.getD_some] at hv
      grind
    obtain rfl | rfl | rfl := hbound
    · have hmem : item ∈ [Value.cell 0] := Value.mem_of_itemAt hitem
      simpa using hmem
    · cases hitem
    · cases hitem
  | item _ hitem ih =>
    subst ih
    cases hitem

/-- The cell in the list can be changed, and the cell with a name cannot. -/
theorem slots_kept_iff_of_listAndName :
    (∀ s, Reaches (behindShadow listAndName 0).1 (behindShadow listAndName 0).2 s →
      s.store.slots[1]? = some (.boolean true)) ∧
    ¬∀ s, Reaches (behindShadow listAndName 0).1 (behindShadow listAndName 0).2 s →
      s.store.slots[0]? = some (.boolean true) := by
  have hname : 1 < listAndName.slots.size := by decide
  have hitem : 0 < listAndName.slots.size := by decide
  constructor
  · refine (slots_kept_iff hname).2 fun hlent => ?_
    cases eq_cell_of_lends_listAndName hlent
  · exact fun hkept => (slots_kept_iff hitem).1 hkept
      (.bound (show listAndName.hostValue? 0 "items" = _ from rfl)
        (Value.subscript_list (n := 0) (i := 0) (by decide +kernel) (by decide +kernel) rfl))

end Client

end SearchScript
