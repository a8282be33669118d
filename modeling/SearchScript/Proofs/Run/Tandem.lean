import SearchScript.Proofs.Run.Mirror
import SearchScript.Proofs.Run.Operations
import SearchScript.Proofs.Run.Watch
import SearchScript.Proofs.Syntax.Nodes

/-!
# A speculative run beside a real one, through calls

A call of a function of the program opens one scope in a real run. In a speculative run it opens a
scope with the parameters and a shadow in front of it, and whatever the body reads from further out
is copied into that shadow. So each frame of the real environment has a shadow of its own, and one
value of the real run may have copies in several shadows: in that of the call that goes on now, and
in those of the calls around it.

The functions that were called and have not ended are *activations*. A trail lists, for every cell
that the speculative run has made, the value of the real run that it stands for and the activation
whose shadow or scope it belongs to. Two stores go in tandem by a trail if every such cell holds
what its value stands for now. A value that is older than the activation that runs now is not
changed by it, so only copies of the innermost activation are ever written to; when an activation
ends, its copies become plain values, which no name stands for any more.

## Key definitions

- `Level`: the frames that a program part of an activation runs in
- `Tandem`: the relation between the two stores
- `Tandem.Same`: the relation between values that are no cells
- `Tandem.Image`: the relation between the values of the innermost activation

## Key results

- `Tandem.snapshot`: values related in tandem have the same value
- `Tandem.Names.congr`: the names of a level depend on its tables, its copies and its cells
- `Tandem.Ledger.append`: a new cell of the speculative run
- `Tandem.grow`: a real run that only makes cells and tables
-/

namespace SearchScript

/-- Two runs of a program at a host: where they begin, and where the speculative one looks for
completions. If the cursor is beyond the program, nothing can be completed. -/
structure Setting where
  start : Store
  host : Nat
  run : Nat
  cursor : Nat
  beyond : Bool
  holdsData : start.HoldsData host
  bindsOnce : start.BindsOnce host

namespace Setting

/-- The first cell that the runs make. -/
abbrev firstSlot (S : Setting) : Nat := S.start.slots.size

/-- The table of the outermost frame of the runs. -/
abbrev firstTable (S : Setting) : Nat := S.start.tables.size

end Setting

/-- Where a part of a program runs: outermost, or in a call of a function that was made at a level.
A call has a table in the real run, and those of its scope and of its shadow in the other one. -/
inductive Level where
  | outermost
  | call (real scope shadow : Nat) (outer : Level)

namespace Level

variable (S : Setting)

/-- The frames of the real run. -/
def realFrames : Level → List Frame
  | outermost => [⟨.scope, S.firstTable⟩]
  | call real _ _ outer => ⟨.scope, real⟩ :: outer.realFrames

/-- The frames of the speculative run. -/
def shadowFrames : Level → List Frame
  | outermost => [⟨.shadow, S.firstTable⟩]
  | call _ scope shadow outer => ⟨.shadow, shadow⟩ :: ⟨.scope, scope⟩ :: outer.shadowFrames

/-- The innermost table of the real run. -/
def realTable : Level → Nat
  | outermost => S.firstTable
  | call real _ _ _ => real

/-- The innermost table of the speculative run. -/
def shadowTable : Level → Nat
  | outermost => S.firstTable
  | call _ _ shadow _ => shadow

/-- The first table that the speculative run made for the level. -/
def scopeTable : Level → Nat
  | outermost => S.firstTable
  | call _ scope _ _ => scope

end Level

/-- The context of the real run at a level. -/
def Setting.realContext (S : Setting) (level : Level) : Context :=
  ⟨.real, S.run, ⟨level.realFrames S, S.host⟩⟩

/-- The context of the speculative run at a level. -/
def Setting.shadowContext (S : Setting) (level : Level) : Context :=
  ⟨.speculative S.cursor, S.run, ⟨level.shadowFrames S, S.host⟩⟩

/-- A function that was called and has not ended, or the program itself: its level, and the first
cell that the real run made since it began. -/
structure Activation where
  level : Level
  first : Nat

/-- What a cell of the speculative run stands for, if anything depends on it, and the depth of the
activation that it belongs to. -/
structure Copy where
  value : Option Value
  owner : Nat

/-- Whether a cell is a copy of a value and belongs to an activation. -/
abbrev Stands (W : List Copy) (i : Nat) (v : Value) (depth : Nat) : Prop :=
  W[i]? = some ⟨some v, depth⟩

/-- What stands in a list with one more item stood there before, or is the item. -/
theorem Tandem.getElem?_concat {α : Type} {l : List α} {a b : α} {i : Nat}
    (h : (l ++ [a])[i]? = some b) : l[i]? = some b ∨ i = l.length ∧ b = a := by
  rcases Nat.lt_or_ge i l.length with hlt | hge
  · exact .inl (by rwa [List.getElem?_append_left hlt] at h)
  · rw [List.getElem?_append_right hge] at h
    obtain ⟨hlt, heq⟩ := List.getElem?_eq_some_iff.1 h
    simp only [List.length_singleton] at hlt
    exact .inr ⟨by omega, by simpa using heq.symm⟩

namespace Stands

variable {W W' : List Copy} {i depth : Nat} {v : Value}

theorem lt_length (h : Stands W i v depth) : i < W.length := (List.getElem?_eq_some_iff.1 h).1

theorem mono (h : Stands W i v depth) (hW : W <+: W') : Stands W' i v depth := by
  obtain ⟨rest, rfl⟩ := hW
  exact (List.getElem?_append_left h.lt_length).trans h

theorem concat (W : List Copy) (v : Value) (depth : Nat) :
    Stands (W ++ [⟨some v, depth⟩]) W.length v depth := by
  simp [Stands]

theorem of_concat {c : Copy} (h : Stands (W ++ [c]) i v depth) :
    Stands W i v depth ∨ i = W.length ∧ c = ⟨some v, depth⟩ :=
  (Tandem.getElem?_concat h).imp_right fun ⟨hi, hc⟩ => ⟨hi, hc.symm⟩

end Stands

/-- Whether the parts of a program are all there, and end in front of a cursor that is beyond
them. -/
def Setting.Plain (S : Setting) (nodes : List Code) : Prop :=
  ∀ node ∈ nodes, node.isPlaceholder = false ∧ (S.beyond = true → node.span.stop < S.cursor)

/-- What the names of a table stand for. -/
def Store.namesAt (st : Store) (table : Nat) : Table Value := st.tables[table]?.getD []

/-- What a name stands for in the real run at a level. -/
def Level.value? (S : Setting) (σ : Store) (name : String) : Level → Option Value
  | outermost =>
    match (σ.namesAt S.firstTable).find? name with
    | some v => some v
    | none => σ.hostValue? S.host name
  | call real _ _ outer =>
    match (σ.namesAt real).find? name with
    | some v => some v
    | none => outer.value? S σ name

namespace Tandem

/-- Whether functions of the two runs do the same. -/
inductive SameCallable (S : Setting) (L : List Activation) : Callable → Callable → Prop where
  | data {callable : Callable} (h : callable.isData = true) : SameCallable S L callable callable
  | closure {act : Activation} (hact : act ∈ L) (params : List String) {body : Code}
      (hbody : S.Plain body.nodes) :
      SameCallable S L (.closure ⟨S.realContext act.level, params, body⟩)
        (.closure ⟨S.shadowContext act.level, params, body⟩)

/-- Whether values of the two runs that are no cells are the same. -/
inductive Same (S : Setting) (L : List Activation) : Value → Value → Prop where
  | data {v : Value} (h : v.isData = true) : Same S L v v
  | function {callable callable' : Callable} (id id' : Nat)
      (h : SameCallable S L callable callable') :
      Same S L (.function id callable) (.function id' callable')

/-- Whether a value of the speculative run is the image of one of the real run: the same value, or
a cell of the innermost activation that stands for it. -/
def Image (S : Setting) (L : List Activation) (W : List Copy) (v w : Value) : Prop :=
  Same S L v w ∨ ∃ i, w = .cell (S.firstSlot + i) ∧ Stands W i v (L.length - 1)

/-- Whether a value of the real run was there when an activation began. -/
def Older (S : Setting) (σ : Store) (act : Activation) (v : Value) : Prop :=
  (∀ slot, v = .cell slot → slot < act.first) ∧
    (σ.snapshot v).isMadeSince (act.level.realTable S) = false

/-- Whether activations were begun one after the other, each by calling a function that was made in
an earlier one. -/
structure Stack (S : Setting) (L : List Activation) (σ τ : Store) : Prop where
  bottom : L[0]? = some ⟨.outermost, 0⟩
  outer : ∀ {depth : Nat} {real scope shadow outer first},
    L[depth]? = some ⟨.call real scope shadow outer, first⟩ →
      scope < shadow ∧ ∃ (below : Nat) (act : Activation), below < depth ∧ L[below]? = some act ∧
        act.level = outer
  order : ∀ {below depth : Nat} {act act' : Activation}, below < depth → L[below]? = some act →
    L[depth]? = some act' → act.level.realTable S < act'.level.realTable S ∧
      act.level.shadowTable S < act'.level.scopeTable S ∧ act.first ≤ act'.first
  made : ∀ act ∈ L, act.level.realTable S < σ.tables.size ∧
    act.level.shadowTable S < τ.tables.size ∧ act.first ≤ σ.slots.size

/-- Whether the cells of the speculative run hold what they stand for. -/
structure Ledger (S : Setting) (L : List Activation) (W : List Copy) (σ τ : Store) : Prop where
  hosts : σ.hosts = S.start.hosts ∧ τ.hosts = S.start.hosts
  grown : S.firstSlot ≤ σ.slots.size
  size : τ.slots.size = S.firstSlot + W.length
  /-- No cell of the host is changed. -/
  outside : ∀ slot < S.firstSlot, τ.slots[slot]? = S.start.slots[slot]?
  /-- A copy holds what its value stands for. -/
  holds : ∀ {i : Nat} {v : Value} {depth : Nat}, Stands W i v depth →
    ∃ w, τ.slots[S.firstSlot + i]? = some w ∧ Same S L (σ.snapshot v) w
  known : ∀ {i slot depth : Nat}, Stands W i (.cell slot) depth → slot < σ.slots.size
  owned : ∀ c ∈ W, c.owner < L.length
  /-- What belongs to an activation is older than those that it began. -/
  older : ∀ {i : Nat} {v : Value} {depth above : Nat} {act : Activation},
    Stands W i v depth → depth < above → L[above]? = some act → Older S σ act v
  /-- An activation has no two copies of one cell. -/
  once : ∀ {i j slot depth : Nat}, Stands W i (.cell slot) depth →
    Stands W j (.cell slot) depth → i = j

/-- Whether a name that the shadow of a level lacks is still found where it was when the activation
began: at the host, or among the parameters. -/
def Unread (S : Setting) (W : List Copy) (σ τ : Store) (depth : Nat) (name : String) :
    Level → Prop
  | .outermost => (σ.namesAt S.firstTable).find? name = none ∧
      ∀ slot, (S.start.hosts[S.host]?.getD {}).find? name = some (.cell slot) →
        σ.slots[slot]? = S.start.slots[slot]?
  | .call real scope _ _ =>
    match (τ.namesAt scope).find? name with
    | none => (σ.namesAt real).find? name = none
    | some w => ∃ i v slot, w = .cell (S.firstSlot + i) ∧ Stands W i v depth ∧
        (σ.namesAt real).find? name = some (.cell slot) ∧ σ.slots[slot]? = some v ∧
          ∀ other, v ≠ .cell other

/-- Whether the names of a level stand for the same in both runs. -/
structure Names (S : Setting) (W : List Copy) (σ τ : Store) (depth : Nat) (level : Level) :
    Prop where
  known : ∀ {name slot}, level.value? S σ name = some (.cell slot) → slot < σ.slots.size
  apart : ∀ {name name' slot}, level.value? S σ name = some (.cell slot) →
    level.value? S σ name' = some (.cell slot) → name = name'
  /-- The names of the shadow are bound to copies. -/
  bound : ∀ {name w}, (τ.namesAt (level.shadowTable S)).find? name = some w →
    ∃ i v, w = .cell (S.firstSlot + i) ∧ Stands W i v depth ∧
      level.value? S σ name = some v
  /-- What a name stands for that the shadow lacks has no copy there. -/
  free : ∀ {name}, (τ.namesAt (level.shadowTable S)).find? name = none →
    Unread S W σ τ depth name level ∧ ∀ {i slot : Nat},
      level.value? S σ name = some (.cell slot) → ¬Stands W i (.cell slot) depth

end Tandem

open Tandem in
/-- Whether the store `τ` of a speculative run goes in tandem with the store `σ` of a real one. The
cell that was made with a number stands for what the trail `W` has at that index. -/
structure Tandem (S : Setting) (L : List Activation) (W : List Copy) (σ τ : Store) : Prop where
  stack : Stack S L σ τ
  ledger : Ledger S L W σ τ
  names : ∀ {depth act}, L[depth]? = some act → Names S W σ τ depth act.level
  /-- A name does not stand for a cell that was made after its activation began another one. -/
  older : ∀ {depth above : Nat} {act act' : Activation} {name slot}, depth < above →
    L[depth]? = some act → L[above]? = some act' →
      act.level.value? S σ name = some (.cell slot) → slot < act'.first

namespace Store

variable {st st' : Store} {name : String} {v w : Value} {slot : Nat}

theorem table_eq (frame : Frame) : st.table frame = st.namesAt frame.table := rfl

theorem find?_bindIn {frame : Frame} (h : frame.table < st.tables.size) :
    ((st.bindIn frame name v).namesAt frame.table).find? name = some v := by
  rw [show (st.bindIn frame name v).namesAt frame.table = _ from table_bindIn h .scope,
    Table.find?_insert]

theorem find?_bindIn_ne {frame : Frame} {other : String} (hne : other ≠ name) (table : Nat) :
    ((st.bindIn frame name v).namesAt table).find? other = (st.namesAt table).find? other := by
  simp only [namesAt, bindIn, Array.getElem?_modify]
  split
  · cases st.tables[table]? <;> simp [Table.find?, Table.find?_insert_ne hne]
  · rfl

theorem namesAt_bindIn_ne {frame : Frame} {table : Nat} (h : table ≠ frame.table) :
    (st.bindIn frame name v).namesAt table = st.namesAt table := by
  simp [namesAt, bindIn, Array.getElem?_modify, h.symm]

theorem snapshot_of_ne_cell (h : ∀ slot, v ≠ .cell slot) : st.snapshot v = v := by
  cases v <;> first | rfl | exact absurd rfl (h _)

theorem snapshot_cell_congr (h : st'.slots[slot]? = st.slots[slot]?) :
    st'.snapshot (.cell slot) = st.snapshot (.cell slot) := by
  simp only [snapshot, h]

/-- A scope looks a name up in itself and then further out. -/
theorem resolveThrough_scope (st : Store) (host : Nat) (name : String) (table : Nat)
    (outer : List Frame) :
    st.resolveThrough host name (⟨.scope, table⟩ :: outer) =
      match (st.namesAt table).find? name with
      | some v => some (v, st)
      | none => st.resolveThrough host name outer := by
  cases h : (st.namesAt table).find? name <;> simp [resolveThrough, table_eq, h]

/-- A shadow looks a name up in itself, or copies what is found further out. -/
theorem resolveThrough_shadow (st : Store) (host : Nat) (name : String) (table : Nat)
    (outer : List Frame) :
    st.resolveThrough host name (⟨.shadow, table⟩ :: outer) =
      match (st.namesAt table).find? name with
      | some v => some (v, st)
      | none => (st.resolveThrough host name outer).map fun found =>
          ((found.2.newCell found.1).1,
            (found.2.newCell found.1).2.bindIn ⟨.shadow, table⟩ name (found.2.newCell found.1).1)
    := by
  cases h : (st.namesAt table).find? name <;> cases h' : st.resolveThrough host name outer <;>
    simp [resolveThrough, table_eq, h, h']

/-- Whether a store only got new cells, tables and functions. -/
structure Grows (st st' : Store) : Prop where
  hosts : st'.hosts = st.hosts
  slots_size : st.slots.size ≤ st'.slots.size
  slots : ∀ slot < st.slots.size, st'.slots[slot]? = st.slots[slot]?
  tables_size : st.tables.size ≤ st'.tables.size
  tables : ∀ table < st.tables.size, st'.namesAt table = st.namesAt table

/-- Making a cell leaves the cells that there are. -/
theorem getElem?_newCell (h : slot < st.slots.size) :
    (st.newCell v).2.slots[slot]? = st.slots[slot]? := by
  simp [newCell, Array.getElem?_push, Nat.ne_of_lt h]

end Store

namespace Level

variable {S : Setting} {σ σ' : Store} {name : String}

theorem realFrames_eq (level : Level) :
    ∃ outer, level.realFrames S = ⟨.scope, level.realTable S⟩ :: outer := by
  cases level <;> exact ⟨_, rfl⟩

theorem shadowFrames_eq (level : Level) :
    ∃ outer, level.shadowFrames S = ⟨.shadow, level.shadowTable S⟩ :: outer := by
  cases level <;> exact ⟨_, rfl⟩

theorem value?_of_find? {level : Level} {v : Value}
    (h : (σ.namesAt (level.realTable S)).find? name = some v) :
    level.value? S σ name = some v := by
  cases level <;> simp_all [value?, realTable]

/-- A real run finds a name without a change. -/
theorem resolveThrough_realFrames (level : Level) :
    σ.resolveThrough S.host name (level.realFrames S) = (level.value? S σ name).map (·, σ) := by
  induction level with
  | outermost =>
    simp only [realFrames, Store.resolveThrough, value?, Store.table_eq]
    cases (σ.namesAt S.firstTable).find? name <;> rfl
  | call real scope shadow outer ih =>
    simp only [realFrames, Store.resolveThrough, value?, Store.table_eq, ih]
    cases (σ.namesAt real).find? name <;> rfl

end Level

namespace Tandem

variable {S : Setting} {L : List Activation} {W W' : List Copy} {σ σ' τ τ' : Store} {v w : Value}
  {depth : Nat} {act : Activation} {name : String}

/-! ## Values -/

theorem Same.mono {L' : List Activation} (h : Same S L v w) (hL : ∀ act ∈ L, act ∈ L') :
    Same S L' v w := by
  cases h with
  | data h => exact .data h
  | function id id' h =>
    refine .function id id' ?_
    cases h with
    | data h => exact .data h
    | closure hact params hbody => exact .closure (hL _ hact) params hbody

/-- What is the same in both runs is no cell. -/
theorem Same.snapshot_left (h : Same S L v w) (st : Store) : st.snapshot v = v := by
  cases h with
  | data h => exact Store.snapshot_of_isData h
  | function => rfl

theorem Same.snapshot_right (h : Same S L v w) (st : Store) : st.snapshot w = w := by
  cases h with
  | data h => exact Store.snapshot_of_isData h
  | function => rfl

theorem Same.ne_cell (h : Same S L v w) (slot : Nat) : v ≠ .cell slot := by
  rintro rfl
  cases h with
  | data h => cases h

theorem Value.isMadeSince_of_isData {tables : Nat} (h : v.isData = true) :
    v.isMadeSince tables = false := by
  cases v <;> first | rfl | cases h

/-- A function that was made at a level was made since a table if and only if the level was. -/
theorem isMadeSince_realContext {level : Level} {id tables : Nat} {params : List String}
    {body : Code} :
    (Value.function id (.closure ⟨S.realContext level, params, body⟩)).isMadeSince tables =
      decide (tables ≤ level.realTable S) := by
  obtain ⟨outer, h⟩ := level.realFrames_eq (S := S)
  simp only [Value.isMadeSince, Setting.realContext, h]

/-- Functions made in activations that began before a table was made are older than the table. -/
theorem Same.not_isMadeSince {tables : Nat} (h : Same S L v w)
    (hL : ∀ act ∈ L, act.level.realTable S < tables) : v.isMadeSince tables = false := by
  cases h with
  | data h => exact Value.isMadeSince_of_isData h
  | function id id' h =>
    cases h with
    | data h =>
      rename_i callable
      cases callable <;> first | rfl | cases h
    | closure hact params hbody =>
      rw [isMadeSince_realContext, decide_eq_false_iff_not]
      exact Nat.not_le.2 (hL _ hact)

/-- What was not made in the innermost activation is the same without it. -/
theorem Same.of_concat (h : Same S (L ++ [act]) v w)
    (hmade : v.isMadeSince (act.level.realTable S) = false) : Same S L v w := by
  cases h with
  | data h => exact .data h
  | function id id' h =>
    refine .function id id' ?_
    cases h with
    | data h => exact .data h
    | closure hact params hbody =>
      rcases List.mem_append.1 hact with hact | hact
      · exact .closure hact params hbody
      · rw [List.mem_singleton.1 hact, isMadeSince_realContext] at hmade
        simp at hmade

theorem Image.mono (h : Image S L W v w) (hW : W <+: W') : Image S L W' v w := by
  rcases h with h | ⟨i, hw, hi⟩
  · exact .inl h
  · exact .inr ⟨i, hw, hi.mono hW⟩

theorem Image.of_isData (h : v.isData = true) : Image S L W v v := .inl (.data h)

theorem lt_length (h : Tandem S L W σ τ) {i : Nat} (hi : Stands W i v depth) :
    S.firstSlot + i < τ.slots.size := by
  have := hi.lt_length
  have := h.ledger.size
  omega

/-! ## What is left alone -/

namespace Stack

/-- What a name stands for at a level depends on the tables up to the innermost one of the level. -/
theorem value?_congr (h : Stack S L σ τ) (hact : L[depth]? = some act)
    (hhosts : σ'.hosts = σ.hosts)
    (htables : ∀ table ≤ act.level.realTable S,
      (σ'.namesAt table).find? name = (σ.namesAt table).find? name) :
    act.level.value? S σ' name = act.level.value? S σ name := by
  obtain ⟨level, first⟩ := act
  induction level generalizing depth first with
  | outermost =>
    simp only [Level.value?, htables S.firstTable (Nat.le_refl _), Store.hostValue?, hhosts]
  | call real scope shadow outer ih =>
    obtain ⟨-, below, ⟨level, first'⟩, hlt, hbelow, rfl⟩ := h.outer hact
    have hreal := (h.order hlt hbelow hact).1
    simp only [Level.value?, htables real (Nat.le_refl _),
      ih first' hbelow fun table ht => htables table (Nat.le_trans ht (Nat.le_of_lt hreal))]

theorem mono (h : Stack S L σ τ) (hslots : σ.slots.size ≤ σ'.slots.size)
    (hσ : σ.tables.size ≤ σ'.tables.size) (hτ : τ.tables.size ≤ τ'.tables.size) :
    Stack S L σ' τ' :=
  { h with
    made := fun act hact => by
      obtain ⟨hreal, hshadow, hfirst⟩ := h.made act hact
      exact ⟨Nat.lt_of_lt_of_le hreal hσ, Nat.lt_of_lt_of_le hshadow hτ,
        Nat.le_trans hfirst hslots⟩ }

theorem scopeTable_le (h : Stack S L σ τ) (hact : L[depth]? = some act) :
    act.level.scopeTable S ≤ act.level.shadowTable S := by
  obtain ⟨level, first⟩ := act
  cases level with
  | outermost => exact Nat.le_refl _
  | call => exact Nat.le_of_lt (h.outer hact).1

/-- The tables of one activation are not the shadow of another one. -/
theorem shadowTable_ne (h : Stack S L σ τ) {other : Nat} {act' : Activation}
    (hact : L[depth]? = some act) (hact' : L[other]? = some act') (hne : other ≠ depth) :
    act'.level.shadowTable S ≠ act.level.shadowTable S ∧
      act'.level.scopeTable S ≠ act.level.shadowTable S := by
  have hle := h.scopeTable_le hact
  have hle' := h.scopeTable_le hact'
  rcases Nat.lt_or_gt_of_ne hne with hlt | hlt
  · have := (h.order hlt hact' hact).2.1
    omega
  · have := (h.order hlt hact hact').2.1
    omega

end Stack

/-- A name that was not read stays where it is as long as its tables and its cell do. -/
theorem Unread.congr {level : Level} (h : Unread S W σ τ depth name level)
    (hhosts : σ.hosts = S.start.hosts)
    (hreal : (σ'.namesAt (level.realTable S)).find? name =
      (σ.namesAt (level.realTable S)).find? name)
    (hscope : (τ'.namesAt (level.scopeTable S)).find? name =
      (τ.namesAt (level.scopeTable S)).find? name)
    (hslots : ∀ slot, level.value? S σ name = some (.cell slot) →
      σ'.slots[slot]? = σ.slots[slot]?)
    (hkeep : ∀ {i : Nat} {v : Value}, Stands W i v depth → Stands W' i v depth) :
    Unread S W' σ' τ' depth name level := by
  -- outermost, the name is the one of the host; in a call it may be a parameter, which is a copy
  cases level with
  | outermost =>
    obtain ⟨hnone, hhost⟩ := h
    refine ⟨hreal.trans hnone, fun slot hslot => ?_⟩
    rw [← hhost slot hslot]
    exact hslots slot (by simp only [Level.value?, hnone, Store.hostValue?, hhosts, hslot])
  | call real scope shadow outer =>
    simp only [Level.realTable, Level.scopeTable] at hreal hscope
    simp only [Unread, hscope, hreal] at h ⊢
    cases hparam : (τ.namesAt scope).find? name with
    | none => simpa only [hparam] using h
    | some w =>
      rw [hparam] at h
      obtain ⟨i, v, slot, hw, hi, hfound, hslot, hv⟩ := h
      refine ⟨i, v, slot, hw, hkeep hi, hfound, ?_, hv⟩
      rw [hslots slot (Level.value?_of_find? hfound), hslot]

/-- The names of a level stand for the same as long as its tables, its copies and the cells that
its shadow has not read are left alone. -/
theorem Names.congr {level : Level} (h : Names S W σ τ depth level)
    (hhosts : σ.hosts = S.start.hosts)
    (hvalue : ∀ name, level.value? S σ' name = level.value? S σ name)
    (hreal : ∀ name, (σ'.namesAt (level.realTable S)).find? name =
      (σ.namesAt (level.realTable S)).find? name)
    (hscope : τ'.namesAt (level.scopeTable S) = τ.namesAt (level.scopeTable S))
    (hshadow : τ'.namesAt (level.shadowTable S) = τ.namesAt (level.shadowTable S))
    (hgrown : σ.slots.size ≤ σ'.slots.size)
    (hslots : ∀ {name : String} {slot : Nat}, (τ.namesAt (level.shadowTable S)).find? name = none →
      level.value? S σ name = some (.cell slot) → σ'.slots[slot]? = σ.slots[slot]?)
    (hkeep : ∀ {i : Nat} {v : Value}, Stands W i v depth → Stands W' i v depth)
    (hnew : ∀ {i slot : Nat}, Stands W' i (.cell slot) depth →
      Stands W i (.cell slot) depth ∨
        ∀ name, level.value? S σ name ≠ some (.cell slot)) :
    Names S W' σ' τ' depth level where
  known hname := Nat.lt_of_lt_of_le (h.known (hvalue _ ▸ hname)) hgrown
  apart hname hname' := h.apart (hvalue _ ▸ hname) (hvalue _ ▸ hname')
  bound hfind := by
    obtain ⟨i, v, hw, hi, hv⟩ := h.bound (hshadow ▸ hfind)
    exact ⟨i, v, hw, hkeep hi, (hvalue _).trans hv⟩
  free {name} hfind := by
    rw [hshadow] at hfind
    obtain ⟨hunread, hcopies⟩ := h.free hfind
    refine ⟨?_, fun {i slot} hname hi => ?_⟩
    · exact hunread.congr hhosts (hreal name) (by rw [hscope]) (fun slot => hslots hfind) hkeep
    · rw [hvalue] at hname
      -- a copy that is new stands for no cell that a name has
      rcases hnew hi with hi | hne
      · exact hcopies hname hi
      · exact hne name hname

/-- Copies that are added for other activations, or for cells that no name stands for, do not
matter. -/
theorem Names.append {level : Level} {c : Copy} (h : Names S W σ τ depth level)
    (hhosts : σ.hosts = S.start.hosts)
    (hscope : τ'.namesAt (level.scopeTable S) = τ.namesAt (level.scopeTable S))
    (hshadow : τ'.namesAt (level.shadowTable S) = τ.namesAt (level.shadowTable S))
    (hc : c.owner = depth → ∀ slot, c.value = some (.cell slot) →
      ∀ name, level.value? S σ name ≠ some (.cell slot)) :
    Names S (W ++ [c]) σ τ' depth level := by
  refine h.congr hhosts (fun _ => rfl) (fun _ => rfl) hscope hshadow (Nat.le_refl _)
    (fun _ _ => rfl) (fun hi => hi.mono (List.prefix_append W [c])) fun {i slot} hi => ?_
  rcases hi.of_concat with hi | ⟨-, rfl⟩
  · exact .inl hi
  · exact .inr (hc rfl slot rfl)

namespace Ledger

/-- A real run that only makes cells leaves what is known about the others. -/
theorem grow (h : Ledger S L W σ τ) (hhosts : σ'.hosts = σ.hosts)
    (hgrown : σ.slots.size ≤ σ'.slots.size)
    (hslots : ∀ slot < σ.slots.size, σ'.slots[slot]? = σ.slots[slot]?) : Ledger S L W σ' τ := by
  have hsnapshot : ∀ {i v depth}, Stands W i v depth →
      σ'.snapshot v = σ.snapshot v := by
    intro i v depth hi
    cases v with
    | cell slot => exact Store.snapshot_cell_congr (hslots slot (h.known hi))
    | _ => rfl
  exact { h with
    hosts := ⟨hhosts.trans h.hosts.1, h.hosts.2⟩
    grown := Nat.le_trans h.grown hgrown
    holds := fun hi => hsnapshot hi ▸ h.holds hi
    known := fun hi => Nat.lt_of_lt_of_le (h.known hi) hgrown
    older := fun hi hlt hact =>
      ⟨(h.older hi hlt hact).1, by rw [hsnapshot hi]; exact (h.older hi hlt hact).2⟩ }

/-- A copy has the value of what it stands for. -/
theorem snapshot (h : Ledger S L W σ τ) {i : Nat} (hi : Stands W i v depth) :
    Same S L (σ.snapshot v) (τ.snapshot (.cell (S.firstSlot + i))) := by
  obtain ⟨w, hw, hsame⟩ := h.holds hi
  simpa [Store.snapshot, hw] using hsame

/-- A new cell of the speculative run holds what it stands for. -/
theorem append {c : Copy} (h : Ledger S L W σ τ) (hτ : τ'.slots = τ.slots.push w)
    (hhosts : τ'.hosts = τ.hosts) (howner : c.owner < L.length)
    (hc : ∀ v, c.value = some v → Same S L (σ.snapshot v) w ∧
      (∀ slot, v = .cell slot → slot < σ.slots.size ∧ ∀ i, ¬Stands W i v c.owner) ∧
        ∀ {above : Nat} {act : Activation}, c.owner < above → L[above]? = some act → Older S σ act v) :
    Ledger S L (W ++ [c]) σ τ' := by
  have hsize := h.size
  constructor
  case hosts => exact ⟨h.hosts.1, hhosts.trans h.hosts.2⟩
  case grown => exact h.grown
  case size => simp [hτ, hsize, Nat.add_assoc]
  case outside =>
    intro slot hslot
    rw [← h.outside slot hslot, hτ, Array.getElem?_push, if_neg (by omega)]
  case holds =>
    intro i v depth hi
    rcases hi.of_concat with hi | ⟨rfl, rfl⟩
    · have := hi.lt_length
      rw [hτ, Array.getElem?_push, if_neg (by omega)]
      exact h.holds hi
    · exact ⟨w, by simp [hτ, ← hsize], (hc v rfl).1⟩
  case known =>
    intro i slot depth hi
    rcases hi.of_concat with hi | ⟨-, rfl⟩
    · exact h.known hi
    · exact ((hc _ rfl).2.1 slot rfl).1
  case owned =>
    intro c' hc'
    rcases List.mem_append.1 hc' with hc' | hc'
    · exact h.owned c' hc'
    · rwa [List.mem_singleton.1 hc']
  case older =>
    intro i v depth above act hi hlt hact
    rcases hi.of_concat with hi | ⟨-, rfl⟩
    · exact h.older hi hlt hact
    · exact (hc v rfl).2.2 hlt hact
  case once =>
    intro i j slot depth hi hj
    -- two old copies, the new one and an old one, or the new one twice
    rcases hi.of_concat with hi' | ⟨hi', hc₁⟩ <;> rcases hj.of_concat with hj' | ⟨hj', hc₂⟩
    · exact h.once hi' hj'
    · subst hc₂
      exact absurd hi' (((hc _ rfl).2.1 slot rfl).2 i)
    · subst hc₁
      exact absurd hj' (((hc _ rfl).2.1 slot rfl).2 j)
    · rw [hi', hj']

end Ledger

/-- Values related in tandem have the same value. -/
theorem snapshot (h : Tandem S L W σ τ) (hv : Image S L W v w) :
    Same S L (σ.snapshot v) (τ.snapshot w) := by
  rcases hv with hv | ⟨i, rfl, hi⟩
  · rwa [hv.snapshot_left, hv.snapshot_right]
  · exact h.ledger.snapshot hi

/-- A real run that only makes cells and tables leaves the tandem. -/
theorem grow (h : Tandem S L W σ τ) (hσ : σ.Grows σ') : Tandem S L W σ' τ := by
  have hvalue : ∀ {depth : Nat} {act : Activation} {name}, L[depth]? = some act →
      act.level.value? S σ' name = act.level.value? S σ name := by
    intro depth act name hact
    refine h.stack.value?_congr hact hσ.hosts fun table ht => ?_
    rw [hσ.tables table (Nat.lt_of_le_of_lt ht (h.stack.made act (List.mem_of_getElem? hact)).1)]
  refine ⟨h.stack.mono hσ.slots_size hσ.tables_size (Nat.le_refl _),
    h.ledger.grow hσ.hosts hσ.slots_size hσ.slots,
    fun {depth act} hact => ?_, fun hlt hact hact' hname => ?_⟩
  · refine (h.names hact).congr h.ledger.hosts.1 (fun _ => hvalue hact) (fun name => ?_) rfl rfl
      hσ.slots_size (fun {_ slot} _ hname => ?_) id .inl
    · rw [hσ.tables _ (h.stack.made act (List.mem_of_getElem? hact)).1]
    · exact hσ.slots slot ((h.names hact).known hname)
  · exact h.older hlt hact hact' (hvalue hact ▸ hname)

end Tandem

end SearchScript
