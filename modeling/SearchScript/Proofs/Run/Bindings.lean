import SearchScript.Proofs.Run.Course
import SearchScript.Proofs.Run.Tandem.Calls

/-!
# Bindings copy

A declaration and a call bind names to new cells, each with a copy of a value. So no two of these
bindings share a cell, and no cell holds another one: an assignment to a name is seen through the
binding that the name stands for, and through no other.

`Store.Extends` says what a store can become: bindings that it gets are bindings to cells that it
lacked, one for each. It is kept by every change that a walk may make.

## Key definitions

- `Place`, `Store.boundAt?`: where names are bound, and to what
- `Store.Extends`: whether new bindings have new cells of their own
- `Store.Separate`: whether the bindings that a run made have cells of their own

## Key results

- `Store.extends_stable`: runs bind names to new cells
- `Store.Separate.reads?_assign`: an assignment through one binding is seen through no other
- `Code.bindings_copy`: in every state of a run, cells hold no cells and bindings share none
-/

namespace SearchScript

/-- Where names are bound: in a table of a frame, or at a host. -/
inductive Place where
  | table (index : Nat)
  | host (index : Nat)
deriving DecidableEq

namespace Store

/-- What a name is bound to at a place. -/
def boundAt? (st : Store) (place : Place) (name : String) : Option Value :=
  match place with
  | .table index => (st.namesAt index).find? name
  | .host index => (st.hosts[index]?.getD {}).find? name

/-- What is read through the binding of a name at a place. -/
def reads? (st : Store) (place : Place) (name : String) : Option Value :=
  (st.boundAt? place name).map st.snapshot

/-- The place where an environment finds the binding of a name: the innermost frame that binds it,
or else the host. -/
def placeOf (st : Store) (env : Env) (name : String) : Place :=
  match env.frames.find? fun frame => (st.boundAt? (.table frame.table) name).isSome with
  | some frame => .table frame.table
  | none => .host env.host

/-- Whether a store came from another one by changes that bind names to new cells only, each cell to
one name at one place. -/
structure Extends (σ τ : Store) : Prop where
  size : σ.slots.size ≤ τ.slots.size
  bound : ∀ place name v, τ.boundAt? place name = some v →
    σ.boundAt? place name = some v ∨ ∃ slot, v = .cell slot ∧ σ.slots.size ≤ slot ∧
      slot < τ.slots.size
  distinct : ∀ place name place' name' slot,
    τ.boundAt? place name = some (.cell slot) → τ.boundAt? place' name' = some (.cell slot) →
    σ.boundAt? place name ≠ some (.cell slot) → σ.boundAt? place' name' ≠ some (.cell slot) →
    place = place' ∧ name = name'

namespace Extends

variable {σ τ ρ : Store} {name : String}

theorem refl (σ : Store) : σ.Extends σ where
  size := Nat.le_refl _
  bound _ _ _ h := .inl h
  distinct _ _ _ _ _ h _ hnew _ := absurd h hnew

theorem trans (h : σ.Extends τ) (h' : τ.Extends ρ) : σ.Extends ρ where
  size := Nat.le_trans h.size h'.size
  bound place name v hv := by
    rcases h'.bound place name v hv with hv | ⟨slot, rfl, hle, hlt⟩
    · rcases h.bound place name v hv with hv | ⟨slot, rfl, hle, hlt⟩
      · exact .inl hv
      · exact .inr ⟨slot, rfl, hle, Nat.lt_of_lt_of_le hlt h'.size⟩
    · exact .inr ⟨slot, rfl, Nat.le_trans h.size hle, hlt⟩
  distinct place name place' name' slot hρ hρ' hσ hσ' := by
    -- a cell that was bound on the way is too old to be bound anew later
    have hold : ∀ {place name}, τ.boundAt? place name = some (.cell slot) →
        σ.boundAt? place name ≠ some (.cell slot) → slot < τ.slots.size := by
      intro place name hτ hσ
      obtain ⟨_, ⟨⟩, -, hlt⟩ := (h.bound _ _ _ hτ).resolve_left hσ
      exact hlt
    have hnew : ∀ {place name}, ρ.boundAt? place name = some (.cell slot) →
        τ.boundAt? place name ≠ some (.cell slot) → τ.slots.size ≤ slot := by
      intro place name hρ hτ
      obtain ⟨_, ⟨⟩, hle, -⟩ := (h'.bound _ _ _ hρ).resolve_left hτ
      exact hle
    by_cases hτ : τ.boundAt? place name = some (.cell slot)
    · by_cases hτ' : τ.boundAt? place' name' = some (.cell slot)
      · exact h.distinct place name place' name' slot hτ hτ' hσ hσ'
      · exact absurd (hold hτ hσ) (Nat.not_lt.2 (hnew hρ' hτ'))
    · by_cases hτ' : τ.boundAt? place' name' = some (.cell slot)
      · exact absurd (hold hτ' hσ') (Nat.not_lt.2 (hnew hρ hτ))
      · exact h'.distinct place name place' name' slot hρ hρ' hτ hτ'

/-- Changes that bind no name. -/
theorem of_boundAt? (hsize : σ.slots.size ≤ τ.slots.size)
    (h : ∀ place name v, τ.boundAt? place name = some v → σ.boundAt? place name = some v) :
    σ.Extends τ where
  size := hsize
  bound place name v hv := .inl (h place name v hv)
  distinct place name _ _ _ hτ _ hσ _ := absurd (h place name _ hτ) hσ

/-- One more binding, to a new cell. -/
theorem of_binding {place : Place} (hsize : τ.slots.size = σ.slots.size + 1)
    (h : ∀ other text w, τ.boundAt? other text = some w →
      (other = place ∧ text = name ∧ w = .cell σ.slots.size) ∨ σ.boundAt? other text = some w) :
    σ.Extends τ where
  size := by omega
  bound other text w hw := by
    rcases h other text w hw with ⟨rfl, rfl, rfl⟩ | hw
    · exact .inr ⟨_, rfl, Nat.le_refl _, by omega⟩
    · exact .inl hw
  distinct other text other' text' slot hτ hτ' hσ hσ' := by
    obtain ⟨rfl, rfl, -⟩ := (h _ _ _ hτ).resolve_right hσ
    obtain ⟨rfl, rfl, -⟩ := (h _ _ _ hτ').resolve_right hσ'
    exact ⟨rfl, rfl⟩

end Extends

/-! ## The operations of the store -/

variable {σ σ' : Store} {v w : Value} {name text : String} {place : Place}

theorem boundAt?_bindIn {frame : Frame}
    (h : (σ.bindIn frame name v).boundAt? place text = some w) :
    (place = .table frame.table ∧ text = name ∧ w = v) ∨ σ.boundAt? place text = some w := by
  cases place with
  | host index => exact .inr h
  | table index =>
    by_cases hindex : index = frame.table
    · subst hindex
      by_cases htext : text = name
      · subst htext
        simp only [boundAt?, namesAt, bindIn, Array.getElem?_modify, if_true] at h
        cases hold : σ.tables[frame.table]? with
        | none => simp [hold, Table.find?] at h
        | some names =>
          rw [hold, Option.map_some, Option.getD_some, Table.find?_insert] at h
          exact .inl ⟨rfl, rfl, (Option.some.inj h).symm⟩
      · exact .inr ((find?_bindIn_ne htext frame.table).symm.trans h)
    · have hsame : (σ.bindIn frame name v).namesAt index = σ.namesAt index :=
        namesAt_bindIn_ne hindex
      exact .inr (by rwa [boundAt?, hsame] at h)

theorem boundAt?_bindAtHost {host : Nat}
    (h : (σ.bindAtHost host name v).boundAt? place text = some w) :
    (place = .host host ∧ text = name ∧ w = v) ∨ σ.boundAt? place text = some w := by
  cases place with
  | table index => exact .inr h
  | host index =>
    by_cases hindex : host = index
    · subst hindex
      simp only [boundAt?, bindAtHost, Array.getElem?_modify, if_true] at h
      cases hold : σ.hosts[host]? with
      | none =>
        rw [hold] at h
        exact .inr (by rwa [boundAt?, hold])
      | some old =>
        simp only [hold, Option.map_some, Option.getD_some, Host.find?] at h
        by_cases htext : text = name
        · subst htext
          rw [Table.find?_insert] at h
          exact .inl ⟨rfl, rfl, (Option.some.inj h).symm⟩
        · rw [Table.find?_insert_ne htext] at h
          exact .inr (by simpa only [boundAt?, hold, Option.getD_some, Host.find?] using h)
    · simp only [boundAt?, bindAtHost, Array.getElem?_modify, if_neg hindex] at h
      exact .inr h

/-- A new cell is bound in an environment. -/
theorem extends_declare (env : Env) (name : String) (v : Value) :
    σ.Extends ((σ.newCell v).2.bind env name (σ.newCell v).1) := by
  unfold bind
  split
  · exact .of_binding (by simp [newCell, bindIn]) fun _ _ _ h => boundAt?_bindIn h
  · exact .of_binding (by simp [newCell, bindAtHost]) fun _ _ _ h => boundAt?_bindAtHost h

theorem extends_resolveThrough {host : Nat} {frames : List Frame}
    (h : σ.resolveThrough host name frames = some (v, σ')) : σ.Extends σ' := by
  induction frames generalizing v σ' with
  | nil =>
    simp only [resolveThrough, Option.map_eq_some_iff] at h
    obtain ⟨w, -, heq⟩ := h
    cases heq
    exact .refl σ
  | cons frame outer ih =>
    simp only [resolveThrough] at h
    split at h
    · cases h
      exact .refl σ
    · split at h
      · exact ih h
      · cases h
      · next found =>
        have hcopy : ∀ (ρ : Store) u,
            ρ.Extends ((ρ.newCell u).2.bindIn frame name (ρ.newCell u).1) := fun ρ u =>
          .of_binding (by simp [newCell, bindIn]) fun _ _ _ h => boundAt?_bindIn h
        cases h
        exact (ih found).trans (hcopy _ _)

/-- A frame is opened, with names for new cells. -/
theorem extends_openFrame {run : Nat} {kind : FrameKind} {names : Table Value} {env : Env}
    (hnames : ∀ name v, names.find? name = some v →
      ∃ slot, v = .cell slot ∧ σ.slots.size ≤ slot ∧ slot < σ'.slots.size)
    (hdistinct : ∀ name name' slot, names.find? name = some (.cell slot) →
      names.find? name' = some (.cell slot) → name = name')
    (hsize : σ.slots.size ≤ σ'.slots.size) (htables : σ'.tables = σ.tables)
    (hhosts : σ'.hosts = σ.hosts) : σ.Extends (σ'.openFrame run kind names env).2 := by
  -- what is bound afterwards is bound in the new table or was bound before
  have hbound : ∀ place name v, (σ'.openFrame run kind names env).2.boundAt? place name = some v →
      (place = .table σ.tables.size ∧ names.find? name = some v) ∨
        σ.boundAt? place name = some v := by
    intro place name v hv
    cases place with
    | host index =>
      simp only [boundAt?, hosts_openFrame, hhosts] at hv
      exact .inr hv
    | table index =>
      simp only [boundAt?, namesAt, tables_openFrame, htables, Array.getElem?_push] at hv
      split at hv
      · next hindex => exact .inl ⟨congrArg Place.table hindex, hv⟩
      · exact .inr hv
  constructor
  · simpa using hsize
  · intro place name v hv
    rcases hbound place name v hv with ⟨-, hv⟩ | hv
    · obtain ⟨slot, rfl, hle, hlt⟩ := hnames name v hv
      exact .inr ⟨slot, rfl, hle, by simpa using hlt⟩
    · exact .inl hv
  · intro place name place' name' slot hτ hτ' hσ hσ'
    obtain ⟨rfl, hname⟩ := (hbound _ _ _ hτ).resolve_right hσ
    obtain ⟨rfl, hname'⟩ := (hbound _ _ _ hτ').resolve_right hσ'
    exact ⟨rfl, hdistinct name name' slot hname hname'⟩

theorem size_bindParams (σ : Store) (names : Table Value) (params : List String)
    (args : List Value) :
    (σ.bindParams names params args).2.slots.size = σ.slots.size + params.length ∧
      (σ.bindParams names params args).2.tables = σ.tables ∧
      (σ.bindParams names params args).2.hosts = σ.hosts := by
  induction params generalizing σ names args with
  | nil => exact ⟨rfl, rfl, rfl⟩
  | cons param params ih =>
    obtain ⟨hsize, htables, hhosts⟩ := ih (σ.newCell (args.headD .null)).2
      (names.insert param (σ.newCell (args.headD .null)).1) args.tail
    simp only [bindParams]
    refine ⟨?_, htables, hhosts⟩
    rw [hsize]
    simp only [newCell, Array.size_push, List.length_cons]
    omega

/-- A function is entered: its parameters are bound to new cells. -/
theorem extends_enter (run : Nat) (env : Env) (params : List String) (args : List Value) :
    σ.Extends ((σ.bindParams [] params args).2.openFrame run .scope
      (σ.bindParams [] params args).1 env).2 := by
  obtain ⟨hsize, htables, hhosts⟩ := size_bindParams σ [] params args
  have hcell : ∀ name v, (σ.bindParams [] params args).1.find? name = some v →
      ∃ i, params[i]? = some name ∧ v = .cell (σ.slots.size + i) := by
    intro name v hv
    rw [find?_bindParams] at hv
    split at hv
    · next i hi => exact ⟨i, getElem?_of_paramIndex? hi, (Option.some.inj hv).symm⟩
    · cases hv
  refine extends_openFrame (fun name v hv => ?_) (fun name name' slot hv hv' => ?_) (by omega)
    htables hhosts
  · obtain ⟨i, hi, rfl⟩ := hcell name v hv
    have := (List.getElem?_eq_some_iff.1 hi).1
    exact ⟨_, rfl, Nat.le_add_right _ _, by omega⟩
  · obtain ⟨i, hi, heq⟩ := hcell name _ hv
    obtain ⟨j, hj, heq'⟩ := hcell name' _ hv'
    simp only [Value.cell.injEq] at heq heq'
    have hij : i = j := by omega
    exact Option.some.inj (hi.symm.trans (hij ▸ hj))

/-- Whatever a walk does, new bindings have new cells of their own. -/
theorem extends_stable (σ : Store) : Stable σ.Extends where
  resolve h hres := h.trans (extends_resolveThrough hres)
  assign h hassign := by
    refine h.trans ?_
    unfold Store.assign at hassign
    split at hassign <;> cases hassign
    exact .of_boundAt? (by simp) fun place _ _ h => by cases place <;> exact h
  declare env name v h := h.trans (extends_declare env name v)
  function _ h := h.trans
    (.of_boundAt? (Nat.le_refl _) fun place _ _ h => by cases place <;> exact h)
  enter run env params args h := h.trans (extends_enter run env params args)
  shadow run env h := h.trans (extends_openFrame nofun nofun (Nat.le_refl _) rfl rfl)
  record _ h := h.trans (.of_boundAt? (Nat.le_refl _) fun place _ _ h => by cases place <;> exact h)

/-- The end of a run empties frames. -/
theorem extends_endRun (σ : Store) : σ.Extends σ.endRun := by
  refine .of_boundAt? (Nat.le_refl _) fun place name v h => ?_
  cases place with
  | host index => exact h
  | table index =>
    simp only [boundAt?, namesAt, getElem?_tables_endRun] at h
    split at h
    · cases hold : σ.tables[index]? <;> simp [hold, Table.find?] at h
    · exact h

/-! ## Bindings of their own -/

/-- Whether the bindings in the tables that were made since a store have cells that were made since,
and no two of them the same. -/
structure Separate (st σ : Store) : Prop where
  own : ∀ table name v, st.tables.size ≤ table → σ.boundAt? (.table table) name = some v →
    ∃ slot, v = .cell slot ∧ st.slots.size ≤ slot ∧ slot < σ.slots.size
  distinct : ∀ table name table' name' slot, st.tables.size ≤ table → st.tables.size ≤ table' →
    σ.boundAt? (.table table) name = some (.cell slot) →
    σ.boundAt? (.table table') name' = some (.cell slot) → table = table' ∧ name = name'

theorem boundAt?_eq_none {st : Store} {table : Nat} (h : st.tables.size ≤ table) (name : String) :
    st.boundAt? (.table table) name = none := by
  simp [boundAt?, namesAt, Array.getElem?_eq_none h, Table.find?]

/-- All bindings that a store came to have are such bindings. -/
theorem Extends.separate {st : Store} (h : st.Extends σ) : st.Separate σ where
  own table name v htable hv := by
    refine (h.bound _ name v hv).resolve_left fun hold => ?_
    rw [boundAt?_eq_none htable] at hold
    cases hold
  distinct table name table' name' slot htable htable' hσ hσ' := by
    obtain ⟨hplace, hname⟩ := h.distinct _ _ _ _ slot hσ hσ'
      (by simp [boundAt?_eq_none htable]) (by simp [boundAt?_eq_none htable'])
    exact ⟨Place.table.inj hplace, hname⟩

/-- At a host of data a run finds cells that are none of its bindings. -/
theorem Extends.apart {st : Store} {host slot table : Nat} (h : st.Extends σ)
    (hhost : st.HoldsData host) (hv : σ.boundAt? (.host host) name = some (.cell slot)) :
    slot < σ.slots.size ∧
      (st.tables.size ≤ table → σ.boundAt? (.table table) text ≠ some (.cell slot)) := by
  by_cases hold : st.boundAt? (.host host) name = some (.cell slot)
  · -- the cell was there before the run
    have hlt : slot < st.slots.size := by
      rcases hhost name _ hold with hdata | ⟨_, w, heq, hw, -⟩
      · cases hdata
      · cases heq
        exact (Array.getElem?_eq_some_iff.1 hw).1
    refine ⟨Nat.lt_of_lt_of_le hlt h.size, fun htable hbound => ?_⟩
    obtain ⟨_, heq, hle, -⟩ := h.separate.own table text _ htable hbound
    cases heq
    omega
  · obtain ⟨_, ⟨⟩, -, hlt⟩ := (h.bound _ _ _ hv).resolve_left hold
    refine ⟨hlt, fun htable hbound => ?_⟩
    obtain ⟨hplace, -⟩ := h.distinct _ _ _ _ slot hv hbound hold
      (by simp [boundAt?_eq_none htable])
    cases hplace

/-- An assignment to a cell is not seen through a binding to something else. -/
theorem reads?_assign {target : Value} (hassign : σ.assign target v = .ok σ')
    (h : σ.boundAt? place name ≠ some target) : σ'.reads? place name = σ.reads? place name := by
  unfold Store.assign at hassign
  split at hassign <;> cases hassign
  next slot =>
  have hsame : ({ σ with slots := σ.slots.setIfInBounds slot (σ.snapshot v) } : Store).boundAt?
      place name = σ.boundAt? place name := by
    cases place <;> rfl
  unfold reads?
  rw [hsame]
  cases hbound : σ.boundAt? place name with
  | none => rfl
  | some w =>
    cases w with
    | cell other =>
      have hne : slot ≠ other := fun heq => h (heq ▸ hbound)
      simp [snapshot, hne]
    | _ => rfl

/-- Scopes find a name where it is bound, and change nothing; at a host there is the function that
looks files up as well. -/
theorem resolve?_eq_some {env : Env} (hscopes : ∀ frame ∈ env.frames, frame.kind = .scope)
    (h : σ.resolve? env name = some (v, σ')) :
    σ' = σ ∧ (σ.boundAt? (σ.placeOf env name) name = some v ∨
      ∃ files, v = .fileConstructor files) := by
  obtain ⟨frames, host⟩ := env
  unfold resolve? at h
  dsimp only at h hscopes
  induction frames with
  | nil =>
    simp only [resolveThrough, Option.map_eq_some_iff] at h
    obtain ⟨w, hw, heq⟩ := h
    cases heq
    refine ⟨rfl, ?_⟩
    simp only [hostValue?] at hw
    split at hw
    · next hfind =>
      cases hw
      exact .inl hfind
    · split at hw <;> cases hw
      exact .inr ⟨_, rfl⟩
  | cons frame outer ih =>
    obtain ⟨hkind, houter⟩ := List.forall_mem_cons.1 hscopes
    simp only [resolveThrough, hkind, table_eq] at h
    split at h
    · next hfind =>
      cases h
      refine ⟨rfl, .inl ?_⟩
      have hbound : σ.boundAt? (.table frame.table) name = some v := hfind
      simp only [placeOf, List.find?_cons, hbound, Option.isSome_some]
    · next hfind =>
      have hnone : σ.boundAt? (.table frame.table) name = none := hfind
      -- a table without the name is passed over
      have hplace : σ.placeOf ⟨frame :: outer, host⟩ name = σ.placeOf ⟨outer, host⟩ name := by
        simp [placeOf, hnone]
      rw [hplace]
      exact ih houter h

/-- The place of a name is a table of the environment or its host. -/
theorem placeOf_cases (σ : Store) (env : Env) (name : String) :
    (∃ frame ∈ env.frames, σ.placeOf env name = .table frame.table) ∨
      σ.placeOf env name = .host env.host := by
  unfold placeOf
  split
  · next frame hfind => exact .inl ⟨frame, List.mem_of_find?_eq_some hfind, rfl⟩
  · exact .inr rfl

end Store

/-! ## Runs -/

namespace Walk

variable {S : Sphere} {fuel : Nat} {closure : Closure} {args : List Value} {v : Value}
  {σ σ' : Store}

/-- What a function of the program returns is no cell, unless there are cells that hold cells. -/
theorem ne_cell_of_apply (hS : S.Lawful) (hflat : ¬S.nested) (hmode : S.mode .real)
    (hclosure : (Callable.closure closure).Inside S) (hargs : ∀ v ∈ args, v.Inside S)
    (hσ : S.Encloses σ) (h : apply fuel .real (.closure closure) args σ = some (.ok v, σ'))
    (slot : Nat) : v ≠ .cell slot := by
  obtain ⟨hctx, hbody⟩ := hclosure
  cases fuel with
  | zero => cases h
  | succ fuel =>
    cases hown : closure.context.mode with
    | speculative cursor =>
      simp only [apply, hown] at h
      cases h
    | real =>
      simp only [apply, hown] at h
      have hkeeps := (inside_enter (J := fun _ => false) hS hctx hargs).bind fun ctx hctx =>
        read_settle hS hmode (hS.jumps _ hbody)
          ((enclosed hS fuel).code ctx closure.body hctx.1 (hS.bodies _ hbody))
      exact (hkeeps hσ h).2.2 hflat slot

/-- A name is found by looking it up. -/
theorem resolve?_of_name {ctx : Context} {span : Span} {text : String}
    (h : name ctx span text σ = some (.ok v, σ')) : σ.resolve? ctx.env text = some (v, σ') := by
  unfold name at h
  split at h
  · next hres =>
    cases h
    exact hres
  · split at h
    · cases h
    · split at h <;> cases h

/-- An assignment evaluates its operands and then stores a value into its target. -/
theorem assign_of_statement {ctx : Context} {span : Span} {op : AssignOp} {target value : Expr}
    (h : statement (fuel + 1) ctx (.assign span op target value) σ = some (.ok v, σ')) :
    ∃ t σ₁ w σ₂ u, expr fuel ctx target σ = some (.ok t, σ₁) ∧
      expr fuel ctx value σ₁ = some (.ok w, σ₂) ∧ σ₂.assign t u = .ok σ' := by
  have hstore : ∀ {t u : Value} {σ₂ : Store}, (assign t u >>= fun _ => pure Value.null) σ₂ =
      some (.ok v, σ') → σ₂.assign t u = .ok σ' := by
    intro t u σ₂ h
    obtain ⟨_, _, hassign, h⟩ := Run.of_bind_eq_ok h
    cases h
    unfold assign at hassign
    split at hassign <;> cases hassign
    next heq => exact heq
  obtain ⟨t, σ₁, htarget, h⟩ := Run.of_bind_eq_ok h
  obtain ⟨w, σ₂, hvalue, h⟩ := Run.of_bind_eq_ok h
  cases hop : op.binaryOp? with
  | none =>
    rw [hop] at h
    exact ⟨t, σ₁, w, σ₂, w, htarget, hvalue, hstore h⟩
  | some op =>
    -- an operator reads the store and leaves it as it is
    simp only [hop] at h
    obtain ⟨u, σ₃, hbinary, hassign⟩ := Run.of_bind_eq_ok h
    have hread : Run.Kept (· = σ₂) (fun _ => True) (binary op t w) := kept_binary fun _ => trivial
    obtain ⟨rfl, -⟩ := hread rfl hbinary
    exact ⟨t, σ₁, w, _, u, htarget, hvalue, hstore hassign⟩

end Walk

namespace Code

open Sphere

variable {code : Code} {st σ : Store} {host : Nat} {stage : Walk.Stage}

/-- What a real run at a host may come across, with any functions and errors. -/
abbrev sphere (st : Store) (host : Nat) : Sphere :=
  ofHost st host (· = .real) (fun _ => True) fun _ => True

theorem sphere_lawful : (sphere st host).Lawful :=
  ofHost_lawful (fun _ _ _ _ _ _ => trivial) (fun _ _ _ _ => trivial) (fun _ _ => trivial)
    fun _ _ _ => ⟨trivial, trivial⟩

theorem extends_start (st : Store) (env : Env) : st.Extends (start env st).2 :=
  Store.extends_openFrame nofun nofun (Nat.le_refl st.beginRun.2.slots.size) rfl rfl

/-- What holds wherever an evaluation comes. -/
theorem Visits.state (h : code.Visits host st stage σ) (hhost : st.HoldsData host) :
    st.Extends σ ∧ stage.Inside (sphere st host) ∧ (sphere st host).Encloses σ := by
  have hinside := Walk.inside_of_proceeds sphere_lawful h
    (Walk.Task.inside_ofCode (context_start rfl) fun _ _ _ _ => trivial)
    (encloses_start hhost.givesNoFunction)
  exact ⟨Walk.kept_of_proceeds (Store.extends_stable st) h (extends_start st _), hinside⟩

theorem everything_encloses_start (h : st.IsFlat) :
    (everything False).Encloses (start ⟨[], host⟩ st).2 :=
  (everything_encloses fun _ => h : (everything False).Encloses st.beginRun.2).openFrame
    (List.forall_mem_nil _)

/-- If no cell holds a cell at first, none ever does. -/
theorem Visits.isFlat (h : code.Visits host st stage σ) (hflat : st.IsFlat) : σ.IsFlat :=
  isFlat_of_encloses (Walk.inside_of_proceeds everything_lawful h
    (Walk.Task.inside_ofCode trivial fun _ _ _ _ => trivial) (everything_encloses_start hflat)).2

theorem isFlat_evaluate {fuel : Nat} {result : Except RunError Value} {st' : Store}
    (hflat : st.IsFlat) (h : code.evaluate fuel ⟨[], host⟩ st = some (result, st')) :
    st'.IsFlat := by
  rw [evaluate_eq_map] at h
  obtain ⟨⟨r, σ⟩, hcode, heq⟩ := Option.map_eq_some_iff.1 h
  cases heq
  have hσ : σ.IsFlat := isFlat_of_encloses ((Walk.enclosed everything_lawful fuel).code _ code
    trivial (fun _ _ _ _ => trivial) (everything_encloses_start hflat) hcode).1
  -- the end of a run empties tables and leaves the slots alone
  exact hσ

theorem extends_evaluate {fuel : Nat} {env : Env} {result : Except RunError Value} {st' : Store}
    (h : code.evaluate fuel env st = some (result, st')) : st.Extends st' := by
  rw [evaluate_eq_map] at h
  obtain ⟨⟨r, σ⟩, hcode, heq⟩ := Option.map_eq_some_iff.1 h
  cases heq
  exact (((Walk.kept (Store.extends_stable st) fuel).code _ code).store
    (extends_start st env) hcode).trans (Store.extends_endRun σ)

/-- An assignment to a name is seen through the binding that the name stands for, and through no
other one that the run made. -/
theorem reads?_of_assign {n : Nat} {ctx : Context} {span place : Span} {op : AssignOp} {x : String}
    {value : Expr} {v : Value} {σ' : Store} (hhost : st.HoldsData host)
    (h : code.Visits host st (.task (.statement ctx (.assign span op (.name place x) value))) σ)
    (hrun : Walk.statement (n + 1) ctx (.assign span op (.name place x) value) σ =
      some (.ok v, σ')) :
    ∃ t σ₁ w σ₂, Walk.expr n ctx (.name place x) σ = some (.ok t, σ₁) ∧
      Walk.expr n ctx value σ₁ = some (.ok w, σ₂) ∧
      ∀ table name, st.tables.size ≤ table → ¬(.table table = σ.placeOf ctx.env x ∧ name = x) →
        σ'.reads? (.table table) name = σ₂.reads? (.table table) name := by
  obtain ⟨hextends, ⟨⟨hmode, henv, hframes⟩, -⟩, -⟩ := h.state hhost
  obtain ⟨t, σ₁, w, σ₂, u, htarget, hvalue, hassign⟩ := Walk.assign_of_statement hrun
  refine ⟨t, σ₁, w, σ₂, htarget, hvalue, fun table name htable hother => ?_⟩
  refine Store.reads?_assign hassign fun hbound => hother ?_
  -- what the name stands for is a cell, since it is assigned to
  have hcell : ∃ slot, t = .cell slot := by
    cases t with
    | cell slot => exact ⟨slot, rfl⟩
    | _ => cases hassign
  obtain ⟨slot, rfl⟩ := hcell
  have hscopes : ∀ frame ∈ ctx.env.frames, frame.kind = .scope := by
    intro frame hmem
    cases hkind : frame.kind with
    | scope => rfl
    | shadow => exact absurd hmode ((hframes frame hmem).2 hkind)
  have hname : Walk.name ctx place x σ = some (.ok (.cell slot), σ₁) := by
    cases n with
    | zero => cases htarget
    | succ n => exact htarget
  obtain ⟨rfl, hplace | ⟨_, ⟨⟩⟩⟩ :=
    Store.resolve?_eq_some hscopes (Walk.resolve?_of_name hname)
  have hlater : σ₁.Extends σ₂ :=
    ((Walk.kept (Store.extends_stable σ₁) n).expr ctx value).store (.refl σ₁) hvalue
  -- the other binding was there when the name was looked up
  have hearlier : slot < σ₁.slots.size → σ₁.boundAt? (.table table) name = some (.cell slot) := by
    intro hlt
    refine (hlater.bound _ _ _ hbound).resolve_right ?_
    rintro ⟨_, ⟨⟩, hle, -⟩
    omega
  rcases Store.placeOf_cases σ₁ ctx.env x with ⟨frame, hmem, hat⟩ | hat
  · rw [hat] at hplace ⊢
    have hframe := (hframes frame hmem).1
    obtain ⟨_, ⟨⟩, -, hlt⟩ := hextends.separate.own _ _ _ hframe hplace
    obtain ⟨rfl, rfl⟩ :=
      hextends.separate.distinct _ _ _ _ slot htable hframe (hearlier hlt) hplace
    exact ⟨rfl, rfl⟩
  · rw [hat, henv] at hplace
    obtain ⟨hlt, hapart⟩ := hextends.apart hhost hplace
    exact absurd (hearlier hlt) (hapart htable)

/-- Wherever the evaluation of a program comes at a host that binds data, and at its end, no cell
holds a cell that the host binds or that was made since, and no other one unless there was one
before; and the bindings that were made since have cells of their own. No function returns a cell,
and the program neither. So what an assignment to a name changes is seen through no other of these
bindings. -/
theorem bindings_copy (hhost : st.HoldsData host) :
    (∀ stage σ, code.Visits host st stage σ →
      (∀ slot other, st.slots.size ≤ slot ∨ st.Gives host (.cell slot) →
        σ.slots[slot]? ≠ some (.cell other)) ∧
      (st.IsFlat → σ.IsFlat) ∧ st.Separate σ ∧
      (∀ n closure args v σ' slot, stage = .task (.apply .real (.closure closure) args) →
        Walk.apply n .real (.closure closure) args σ = some (.ok v, σ') → v ≠ .cell slot) ∧
      ∀ n ctx span op place x value v σ',
        stage = .task (.statement ctx (.assign span op (.name place x) value)) →
        Walk.statement (n + 1) ctx (.assign span op (.name place x) value) σ = some (.ok v, σ') →
        ∃ t σ₁ w σ₂, Walk.expr n ctx (.name place x) σ = some (.ok t, σ₁) ∧
          Walk.expr n ctx value σ₁ = some (.ok w, σ₂) ∧
          ∀ table name, st.tables.size ≤ table →
            ¬(.table table = σ.placeOf ctx.env x ∧ name = x) →
            σ'.reads? (.table table) name = σ₂.reads? (.table table) name) ∧
    ∀ fuel result st', code.evaluate fuel ⟨[], host⟩ st = some (result, st') →
      (∀ slot other, st.slots.size ≤ slot ∨ st.Gives host (.cell slot) →
        st'.slots[slot]? ≠ some (.cell other)) ∧
      (st.IsFlat → st'.IsFlat) ∧ st.Separate st' ∧ ∀ v slot, result = .ok v → v ≠ .cell slot := by
  have hflat : ¬(sphere st host).nested := not_nested_of_holdsData hhost
  refine ⟨fun stage σ h => ?_, fun fuel result st' h => ?_⟩
  · obtain ⟨hextends, hinside, hσ⟩ := h.state hhost
    refine ⟨fun slot other hslot => hσ.flat hflat slot other hslot, h.isFlat, hextends.separate,
      ?_, ?_⟩
    · rintro n closure args v σ' slot rfl hrun
      obtain ⟨hmode, hclosure, hargs⟩ := hinside
      exact Walk.ne_cell_of_apply sphere_lawful hflat hmode hclosure hargs hσ hrun slot
    · rintro n ctx span op place x value v σ' rfl hrun
      exact reads?_of_assign hhost h hrun
  · obtain ⟨σ, hσ, rfl, hvalue, -⟩ := inside_evaluate hhost.givesNoFunction sphere_lawful rfl
      (fun _ _ _ _ => trivial) (fun _ _ => trivial) h
    refine ⟨fun slot other hslot => hσ.flat hflat slot other hslot,
      fun hst => isFlat_evaluate hst h, (extends_evaluate h).separate, fun v slot hv => ?_⟩
    obtain ⟨u, hu, rfl⟩ := hvalue v hv
    exact hσ.snapshot_ne_cell hflat hu slot

private theorem exists_ok_of_any {x : Option (Except Signal Value × Store)}
    {p : Except Signal Value × Store → Bool} (h : x.any (fun r => r.1.isOk && p r) = true) :
    ∃ v σ, x = some (.ok v, σ) ∧ p (.ok v, σ) = true := by
  obtain ⟨⟨r, σ⟩, hx, hr⟩ := (Option.any_eq_true _ _).1 h
  obtain ⟨hok, hp⟩ := Bool.and_eq_true_iff.1 hr
  cases r with
  | error s => cases hok
  | ok v => exact ⟨v, σ, hx, hp⟩

/-- The binding `b` keeps its value although it was declared as a copy of `a`, which is assigned
to. -/
theorem bindings_copy_of_assignment :
    let st : Store := { slots := #[.boolean true], hosts := #[{ locals := [("x", .cell 0)] }] }
    let first : Statement := .declare ⟨0, 9⟩ "a" (some (.name ⟨8, 9⟩ "x"))
    let second : Statement := .declare ⟨11, 20⟩ "b" (some (.name ⟨19, 20⟩ "a"))
    let third : Statement := .assign ⟨22, 31⟩ .assign (.name ⟨22, 23⟩ "a") (.boolean ⟨26, 31⟩ false)
    let code : Code := .statement (.block ⟨0, 32⟩ [first, second, third])
    let ctx : Context := ⟨.real, 0, (start ⟨[], 0⟩ st).1⟩
    ∃ σ σ₁ σ₂ t w v σ', code.Visits 0 st (.task (.statement ctx third)) σ ∧
      Walk.statement 10 ctx third σ = some (.ok v, σ') ∧
      Walk.expr 9 ctx (.name ⟨22, 23⟩ "a") σ = some (.ok t, σ₁) ∧
      Walk.expr 9 ctx (.boolean ⟨26, 31⟩ false) σ₁ = some (.ok w, σ₂) ∧
      σ'.reads? (.table 0) "b" = σ₂.reads? (.table 0) "b" := by
  intro st first second third code ctx
  have hruns : (Walk.statement 10 ctx first (start ⟨[], 0⟩ st).2).any (fun r => r.1.isOk &&
      (Walk.statement 10 ctx second r.2).any fun r => r.1.isOk &&
        (Walk.statement 10 ctx third r.2).any fun r => r.1.isOk && true) = true := by
    decide +kernel
  obtain ⟨_, σ₁, hfirst, hruns⟩ := exists_ok_of_any hruns
  obtain ⟨_, σ₂, hsecond, hruns⟩ := exists_ok_of_any hruns
  obtain ⟨v, σ', hthird, -⟩ := exists_ok_of_any hruns
  have hvisits : code.Visits 0 st (.task (.statement ctx third)) σ₂ :=
    (((Relation.ReflTransGen.single (.part rfl .block)).tail
      (.part rfl (.otherStatements hfirst))).tail
      (.part rfl (.otherStatements hsecond))).tail (.part rfl .firstStatement)
  have hhost : st.HoldsData 0 := Store.holdsData_of_cell rfl rfl rfl
  obtain ⟨-, -, -, -, hassign⟩ := (bindings_copy hhost).1 _ _ hvisits
  obtain ⟨t, τ₁, w, τ₂, ht, hw, hreads⟩ := hassign 9 ctx _ _ _ _ _ v σ' rfl hthird
  exact ⟨σ₂, τ₁, τ₂, t, w, v, σ', hvisits, hthird, ht, hw, hreads 0 "b" (Nat.zero_le _) (by simp)⟩

end Code

end SearchScript
