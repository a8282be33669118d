import Mathlib.Data.List.Forall2
import SearchScript.Proofs.Run.Tandem

/-!
# Calls in tandem

When a function is called, an activation begins: the real run opens a scope with the parameters, the
speculative one a scope and a shadow. When it ends, its copies are retired.

## Key results

- `Tandem.start`: the stores at the beginning of the runs
- `Tandem.enter`: a call begins
- `Tandem.exit`, `Tandem.Image.exit`: a call ends, and what it answers
-/

namespace SearchScript

namespace Tandem

variable {S : Setting} {L : List Activation} {W W' : List Copy} {σ σ' τ τ' : Store} {v w : Value}
  {depth : Nat} {act : Activation} {name : String}

/-- Both runs have made the cells of the parameters of a call, for an activation that begins. -/
theorem Ledger.appendAll (h : Ledger S (L ++ [act]) W σ τ) {us ws : List Value}
    (hsame : List.Forall₂ (Same S (L ++ [act])) us ws) (hτ : τ'.slots = τ.slots ++ ws.toArray)
    (hhosts : τ'.hosts = τ.hosts) :
    Ledger S (L ++ [act]) (W ++ us.map fun u => ⟨some u, L.length⟩) σ τ' := by
  induction hsame generalizing W τ with
  | nil =>
    rw [List.map_nil, List.append_nil]
    exact { h with
      hosts := ⟨h.hosts.1, hhosts.trans h.hosts.2⟩
      size := by simpa [hτ] using h.size
      outside := by simpa [hτ] using h.outside
      holds := fun hi => by simpa [hτ] using h.holds hi }
  | @cons u w us ws hsame _ ih =>
    have hstep : Ledger S (L ++ [act]) (W ++ [⟨some u, L.length⟩]) σ
        { τ with slots := τ.slots.push w } := by
      refine h.append rfl rfl (by simp) ?_
      rintro v ⟨⟩
      refine ⟨(hsame.snapshot_left σ).symm ▸ hsame, fun slot hslot => absurd hslot (hsame.ne_cell _),
        fun {above act'} hlt hact' => ?_⟩
      have := (List.getElem?_eq_some_iff.1 hact').1
      simp only [List.length_append, List.length_singleton] at this hlt
      omega
    have := ih hstep (by simpa using hτ) hhosts
    simpa using this

end Tandem

namespace Store

/-- The index of the parameter that a name stands for: the last one of the name. -/
def paramIndex? (name : String) : List String → Option Nat
  | [] => none
  | param :: params =>
    match paramIndex? name params with
    | some i => some (i + 1)
    | none => if name = param then some 0 else none

theorem getElem?_of_paramIndex? {name : String} {params : List String} {i : Nat}
    (h : paramIndex? name params = some i) : params[i]? = some name := by
  induction params generalizing i with
  | nil => cases h
  | cons param params ih =>
    unfold paramIndex? at h
    split at h
    · next j hj =>
      cases h
      simpa using ih hj
    · split at h <;> cases h
      next heq => simp [heq]

/-- The values of the cells of parameters. -/
def paramValues (st : Store) : List String → List Value → List Value
  | [], _ => []
  | _ :: params, args => st.snapshot (args.headD .null) :: paramValues st params args.tail

theorem length_paramValues (st : Store) (params : List String) (args : List Value) :
    (st.paramValues params args).length = params.length := by
  induction params generalizing args with
  | nil => rfl
  | cons _ _ ih => simp [paramValues, ih]

/-- Names are bound to the cells of their parameters. -/
theorem find?_bindParams (st : Store) (names : Table Value) (params : List String)
    (args : List Value) (name : String) :
    (st.bindParams names params args).1.find? name =
      match paramIndex? name params with
      | some i => some (.cell (st.slots.size + i))
      | none => names.find? name := by
  induction params generalizing st names args with
  | nil => rfl
  | cons param params ih =>
    have hsize : (st.newCell (args.headD .null)).2.slots.size = st.slots.size + 1 := by
      simp [newCell]
    simp only [bindParams, paramIndex?, ih, hsize]
    cases paramIndex? name params with
    | some i => simp [Nat.add_assoc, Nat.add_comm 1 i]
    | none =>
      by_cases hname : name = param
      · subst hname
        simp [newCell]
      · simp [hname, Table.find?_insert_ne hname]

/-- Whether a value is no cell that is still to be made. -/
def Knows (st : Store) (v : Value) : Prop := ∀ slot, v = .cell slot → slot < st.slots.size

theorem paramValues_newCell {st : Store} {v : Value} {params : List String} {args : List Value}
    (hargs : ∀ arg ∈ args, st.Knows arg) :
    (st.newCell v).2.paramValues params args = st.paramValues params args := by
  induction params generalizing args with
  | nil => rfl
  | cons param params ih =>
    have hhead : (st.newCell v).2.snapshot (args.headD .null) =
        st.snapshot (args.headD .null) := by
      cases args with
      | nil => rfl
      | cons arg rest =>
        cases arg with
        | cell slot => exact snapshot_cell_congr (getElem?_newCell (hargs _ (by simp) slot rfl))
        | _ => rfl
    simp only [paramValues, hhead, ih fun arg h => hargs arg (List.mem_of_mem_tail h)]

/-- The cells of parameters are made in their order, and nothing else. -/
theorem bindParams_snd {st : Store} {params : List String} {args : List Value}
    (names : Table Value) (hargs : ∀ arg ∈ args, st.Knows arg) :
    (st.bindParams names params args).2 =
      { st with slots := st.slots ++ (st.paramValues params args).toArray } := by
  induction params generalizing st args names with
  | nil => simp [bindParams, paramValues]
  | cons param params ih =>
    have htail : ∀ arg ∈ args.tail, (st.newCell (args.headD .null)).2.Knows arg :=
      fun arg harg slot hslot => by
        have := hargs arg (List.mem_of_mem_tail harg) slot hslot
        simp only [newCell, Array.size_push]
        omega
    simp only [bindParams]
    rw [ih _ htail, paramValues_newCell fun arg h => hargs arg (List.mem_of_mem_tail h)]
    simp [newCell, paramValues]

end Store

namespace Tandem

variable {S : Setting} {L : List Activation} {W W' : List Copy} {σ σ' τ τ' : Store} {v w : Value}
  {depth : Nat} {act : Activation} {name : String}

theorem knows (h : Tandem S L W σ τ) (hv : Image S L W v w) : σ.Knows v ∧ τ.Knows w := by
  rcases hv with hv | ⟨i, rfl, hi⟩
  · refine ⟨fun slot hslot => absurd hslot (hv.ne_cell slot), ?_⟩
    rintro slot rfl
    cases hv with
    | data hv => cases hv
  · refine ⟨?_, ?_⟩
    · rintro slot rfl
      exact h.ledger.known hi
    · rintro slot ⟨⟩
      exact h.lt_length hi

theorem knowsAll (h : Tandem S L W σ τ) {vs ws : List Value}
    (hargs : List.Forall₂ (Image S L W) vs ws) :
    (∀ arg ∈ vs, σ.Knows arg) ∧ ∀ arg ∈ ws, τ.Knows arg := by
  induction hargs with
  | nil => simp
  | cons hv _ ih =>
    exact ⟨List.forall_mem_cons.2 ⟨(h.knows hv).1, ih.1⟩,
      List.forall_mem_cons.2 ⟨(h.knows hv).2, ih.2⟩⟩

/-- The parameters have the same values in both runs. -/
theorem paramValues (h : Tandem S L W σ τ) {vs ws : List Value}
    (hargs : List.Forall₂ (Image S L W) vs ws) (params : List String) :
    List.Forall₂ (Same S L) (σ.paramValues params vs) (τ.paramValues params ws) := by
  induction params generalizing vs ws with
  | nil => exact .nil
  | cons param params ih =>
    cases hargs with
    | nil => exact .cons (.data rfl) (ih .nil)
    | cons hv hargs => exact .cons (h.snapshot hv) (ih hargs)

/-- The activation that a call begins. -/
def begun (σ τ : Store) (outer : Level) : Activation :=
  ⟨.call σ.tables.size τ.tables.size (τ.tables.size + 1) outer, σ.slots.size⟩

theorem Stack.enter (h : Stack S L σ τ) (hact : L[depth]? = some act)
    (hslots : σ.slots.size ≤ σ'.slots.size) (hσ : σ'.tables.size = σ.tables.size + 1)
    (hτ : τ'.tables.size = τ.tables.size + 2) :
    Stack S (L ++ [begun σ τ act.level]) σ' τ' := by
  have hold : ∀ {i : Nat} {act' : Activation}, L[i]? = some act' →
      (L ++ [begun σ τ act.level])[i]? = some act' := fun hi => by
    rw [List.getElem?_append_left (List.getElem?_eq_some_iff.1 hi).1, hi]
  -- the new activation comes last; its tables lie behind all that have been made
  constructor
  case bottom => exact hold h.bottom
  case outer =>
    intro i real scope shadow outer first hi
    rcases getElem?_concat hi with hi | ⟨rfl, heq⟩
    · obtain ⟨hlt, below, act', hbelow, hact', houter⟩ := h.outer hi
      exact ⟨hlt, below, act', hbelow, hold hact', houter⟩
    · cases heq
      exact ⟨Nat.lt_succ_self _, depth, act, (List.getElem?_eq_some_iff.1 hact).1, hold hact, rfl⟩
  case order =>
    intro below above act₁ act₂ hlt h₁ h₂
    rcases getElem?_concat h₂ with h₂ | ⟨rfl, rfl⟩
    · have := (List.getElem?_eq_some_iff.1 h₂).1
      rw [List.getElem?_append_left (by omega)] at h₁
      exact h.order hlt h₁ h₂
    · rw [List.getElem?_append_left hlt] at h₁
      have hmem := List.mem_of_getElem? h₁
      exact h.made act₁ hmem
  case made =>
    intro act' hact'
    rw [hσ, hτ]
    rcases List.mem_append.1 hact' with hact' | hact'
    · have := h.made act' hact'
      omega
    · rw [List.mem_singleton.1 hact']
      simp only [begun, Level.realTable, Level.shadowTable]
      omega


/-- An activation begins to which no copy belongs so far. -/
theorem Ledger.begin (h : Ledger S L W σ τ)
    (hact : ∀ {i : Nat} {v : Value} {depth : Nat}, Stands W i v depth → Older S σ act v) :
    Ledger S (L ++ [act]) W σ τ :=
  { h with
    holds := fun hi => by
      obtain ⟨w, hw, hsame⟩ := h.holds hi
      exact ⟨w, hw, hsame.mono fun _ hmem => List.mem_append_left _ hmem⟩
    owned := fun c hc => by
      have := h.owned c hc
      simp only [List.length_append, List.length_singleton]
      omega
    older := fun hi hlt habove => by
      rcases getElem?_concat habove with habove | ⟨-, rfl⟩
      · exact h.older hi hlt habove
      · exact hact hi }

theorem ne_cell_of_forall₂ {us ws : List Value} (h : List.Forall₂ (Same S L) us ws) :
    ∀ u ∈ us, ∀ slot, u ≠ .cell slot := by
  induction h with
  | nil => simp
  | cons hsame _ ih => exact List.forall_mem_cons.2 ⟨hsame.ne_cell, ih⟩

/-- The trail with copies of the parameters of a call at its end. -/
def withParams (W : List Copy) (us : List Value) (depth : Nat) : List Copy :=
  W ++ us.map fun u => ⟨some u, depth⟩

theorem stands_withParams {us : List Value} {i other : Nat} :
    Stands (withParams W us depth) i v other ↔
      Stands W i v other ∨ other = depth ∧ W.length ≤ i ∧ us[i - W.length]? = some v := by
  unfold withParams Stands
  rcases Nat.lt_or_ge i W.length with hlt | hge
  · rw [List.getElem?_append_left hlt]
    simp [Nat.not_le.2 hlt]
  · rw [List.getElem?_append_right hge, List.getElem?_eq_none hge]
    simp only [List.getElem?_map, Option.map_eq_some_iff, Copy.mk.injEq, Option.some.injEq, hge,
      true_and, reduceCtorEq, false_or]
    grind

/-- The parameters of a call stand for the same in both runs, and so does what is further out. -/
theorem names_begun (h : Tandem S L W σ τ) (hact : L[depth]? = some act) {params : List String}
    {vs ws : List Value} (hparams : List.Forall₂ (Same S L) (σ.paramValues params vs)
      (τ.paramValues params ws))
    (hσslots : σ'.slots = σ.slots ++ (σ.paramValues params vs).toArray)
    (hσhosts : σ'.hosts = σ.hosts)
    (hσtables : σ'.tables = σ.tables.push (σ.bindParams [] params vs).1)
    (hτtables : τ'.tables = (τ.tables.push (τ.bindParams [] params ws).1).push []) :
    Names S (withParams W (σ.paramValues params vs) L.length) σ' τ' L.length
      (begun σ τ act.level).level := by
  -- the scope of the parameters is one table in the first run and two in the second, where an empty
  -- one lies on top
  have hreal : σ'.namesAt σ.tables.size = (σ.bindParams [] params vs).1 := by
    simp [Store.namesAt, hσtables]
  have hscope : τ'.namesAt τ.tables.size = (τ.bindParams [] params ws).1 := by
    rw [Store.namesAt, hτtables, Array.getElem?_push, if_neg (by simp), Array.getElem?_push_size,
      Option.getD_some]
  have hshadow : τ'.namesAt (τ.tables.size + 1) = [] := by
    have : τ.tables.size + 1 = (τ.tables.push (τ.bindParams [] params ws).1).size := by simp
    simp only [Store.namesAt, hτtables, this, Array.getElem?_push_size, Option.getD_some]
  have houter : ∀ name, act.level.value? S σ' name = act.level.value? S σ name := fun name =>
    h.stack.value?_congr hact hσhosts fun table htable => by
      have := (h.stack.made act (List.mem_of_getElem? hact)).1
      have hne : table ≠ σ.tables.size := by omega
      simp [Store.namesAt, hσtables, Array.getElem?_push, hne]
  -- a name is a parameter or what it was outside the call
  have hvalue : ∀ name, (begun σ τ act.level).level.value? S σ' name =
      match Store.paramIndex? name params with
      | some i => some (.cell (σ.slots.size + i))
      | none => act.level.value? S σ name := by
    intro name
    simp only [begun, Level.value?, hreal, Store.find?_bindParams, houter]
    cases Store.paramIndex? name params <;> rfl
  have hindex : ∀ {name i}, Store.paramIndex? name params = some i → i < params.length :=
    fun hi => (List.getElem?_eq_some_iff.1 (Store.getElem?_of_paramIndex? hi)).1
  have hlength := Store.length_paramValues σ params vs
  constructor
  case known =>
    intro name slot hslot
    rw [hvalue] at hslot
    have hsize : σ'.slots.size = σ.slots.size + params.length := by simp [hσslots, hlength]
    rw [hsize]
    cases hi : Store.paramIndex? name params with
    | some i =>
      simp only [hi, Option.some.injEq, Value.cell.injEq] at hslot
      have := hindex hi
      omega
    | none =>
      simp only [hi] at hslot
      have := (h.names hact).known hslot
      omega
  case apart =>
    intro name name' slot hslot hslot'
    rw [hvalue] at hslot hslot'
    cases hi : Store.paramIndex? name params <;> cases hi' : Store.paramIndex? name' params <;>
      simp only [hi, hi', Option.some.injEq, Value.cell.injEq] at hslot hslot'
    · exact (h.names hact).apart hslot hslot'
    · have := (h.names hact).known hslot
      omega
    · have := (h.names hact).known hslot'
      omega
    · obtain rfl : _ = _ := Nat.add_left_cancel (hslot.trans hslot'.symm)
      have := (Store.getElem?_of_paramIndex? hi).symm.trans (Store.getElem?_of_paramIndex? hi')
      exact Option.some.inj this
  case bound =>
    intro name w hw
    simp only [begun, Level.shadowTable, hshadow, Table.find?] at hw
    cases hw
  case free =>
    intro name _
    refine ⟨?_, fun {i slot} hslot hi => ?_⟩
    · simp only [begun, Unread, hscope, hreal, Store.find?_bindParams]
      cases hi : Store.paramIndex? name params with
      | none => rfl
      | some i =>
        have hlt : i < (σ.paramValues params vs).length := hlength ▸ hindex hi
        refine ⟨W.length + i, (σ.paramValues params vs)[i], σ.slots.size + i, ?_, ?_, rfl, ?_, ?_⟩
        · rw [h.ledger.size, Nat.add_assoc]
        · exact stands_withParams.2 (.inr ⟨rfl, by omega, by simp [hlt]⟩)
        · simp [hσslots, hlt]
        · exact ne_cell_of_forall₂ hparams _ (List.getElem_mem hlt)
    · rcases stands_withParams.1 hi with hi | ⟨-, -, hi⟩
      · exact Nat.lt_irrefl _ (h.ledger.owned _ (List.mem_of_getElem? hi))
      · exact ne_cell_of_forall₂ hparams _ (List.mem_of_getElem? hi) slot rfl

/-- Both runs begin a call: each parameter is bound to a copy of its argument, and the shadow in
front of them is empty. -/
theorem enter (h : Tandem S L W σ τ) (hact : L[depth]? = some act) {params : List String}
    {vs ws : List Value} (hargs : List.Forall₂ (Image S L W) vs ws)
    (hσslots : σ'.slots = σ.slots ++ (σ.paramValues params vs).toArray)
    (hσhosts : σ'.hosts = σ.hosts)
    (hσtables : σ'.tables = σ.tables.push (σ.bindParams [] params vs).1)
    (hτslots : τ'.slots = τ.slots ++ (τ.paramValues params ws).toArray)
    (hτhosts : τ'.hosts = τ.hosts)
    (hτtables : τ'.tables = (τ.tables.push (τ.bindParams [] params ws).1).push []) :
    Tandem S (L ++ [begun σ τ act.level])
      (withParams W (σ.paramValues params vs) L.length) σ' τ' := by
  have hparams := h.paramValues hargs params
  have hgrows : σ.Grows σ' :=
    ⟨hσhosts, by simp [hσslots], fun slot hslot => by simp [hσslots, Array.getElem?_append, hslot],
      by simp [hσtables], fun table htable => by
        simp [Store.namesAt, hσtables, Array.getElem?_push, Nat.ne_of_lt htable]⟩
  have hg := h.grow hgrows
  -- first the activation begins with the old copies, then the parameters are appended to them
  have hledger : Ledger S (L ++ [begun σ τ act.level]) W σ' τ := by
    refine hg.ledger.begin fun {i v depth} hi => ⟨fun slot hslot => ?_, ?_⟩
    · subst hslot
      exact h.ledger.known hi
    · obtain ⟨w, -, hsame⟩ := hg.ledger.holds hi
      exact hsame.not_isMadeSince fun act' hact' => (h.stack.made act' hact').1
  refine ⟨h.stack.enter hact hgrows.slots_size (by simp [hσtables]) (by simp [hτtables]), ?_,
    fun {other act'} hact' => ?_, fun {below above act₁ act₂ name slot} hlt h₁ h₂ hname => ?_⟩
  · exact hledger.appendAll
      (hparams.imp fun _ _ hsame => hsame.mono fun _ hmem => List.mem_append_left _ hmem)
      hτslots hτhosts
  -- the older activations see neither the new tables nor the parameters
  · rcases getElem?_concat hact' with hact' | ⟨rfl, rfl⟩
    · have hlt := (List.getElem?_eq_some_iff.1 hact').1
      have hmade := (h.stack.made act' (List.mem_of_getElem? hact')).2.1
      have hle := h.stack.scopeTable_le hact'
      have htables : ∀ table < τ.tables.size, τ'.namesAt table = τ.namesAt table := by
        intro table htable
        have : table ≠ τ.tables.size + 1 := by omega
        simp [Store.namesAt, hτtables, Array.getElem?_push, Nat.ne_of_lt htable, this]
      refine (hg.names hact').congr hg.ledger.hosts.1 (fun _ => rfl) (fun _ => rfl)
        (htables _ (by omega)) (htables _ hmade) (Nat.le_refl _) (fun _ _ => rfl)
        (fun hi => stands_withParams.2 (.inl hi)) fun hi => ?_
      rcases stands_withParams.1 hi with hi | ⟨rfl, -⟩
      · exact .inl hi
      · exact absurd hlt (Nat.lt_irrefl _)
    · exact h.names_begun hact hparams hσslots hσhosts hσtables hτtables
  · rcases getElem?_concat h₂ with h₂ | ⟨rfl, rfl⟩
    · have := (List.getElem?_eq_some_iff.1 h₂).1
      rw [List.getElem?_append_left (by omega)] at h₁
      exact hg.older hlt h₁ h₂ hname
    · rw [List.getElem?_append_left hlt] at h₁
      have hvalue : act₁.level.value? S σ' name = act₁.level.value? S σ name :=
        h.stack.value?_congr h₁ hσhosts fun table htable => by
          have := (h.stack.made act₁ (List.mem_of_getElem? h₁)).1
          rw [hgrows.tables table (by omega)]
      exact (h.names h₁).known (hvalue ▸ hname)


/-- What becomes of a copy when the activation at a depth ends: if it belongs to the activation, it
is from now on the plain value that it has, unless that was made in the activation. -/
def Copy.retire (σ : Store) (depth table : Nat) (c : Copy) : Copy :=
  if c.owner < depth then c
  else ⟨(c.value.map σ.snapshot).filter fun v => !v.isMadeSince table, depth - 1⟩

/-- The trail after the end of an activation. -/
def retire (S : Setting) (L : List Activation) (σ : Store) (act : Activation) (W : List Copy) :
    List Copy :=
  W.map (Copy.retire σ L.length (act.level.realTable S))

theorem stands_retire {i : Nat} :
    Stands (retire S L σ act W) i v depth ↔ Stands W i v depth ∧ depth < L.length ∨
      ∃ u other, Stands W i u other ∧ L.length ≤ other ∧ v = σ.snapshot u ∧ depth = L.length - 1 ∧
        v.isMadeSince (act.level.realTable S) = false := by
  unfold retire Stands
  rw [List.getElem?_map, Option.map_eq_some_iff]
  constructor
  · rintro ⟨⟨value, owner⟩, hi, heq⟩
    unfold Copy.retire at heq
    split at heq
    · next hlt =>
      cases heq
      exact .inl ⟨hi, hlt⟩
    · next hge =>
      simp only [Copy.mk.injEq, Option.filter_eq_some_iff, Option.map_eq_some_iff,
        Bool.not_eq_true'] at heq
      obtain ⟨⟨⟨u, rfl, rfl⟩, hmade⟩, rfl⟩ := heq
      exact .inr ⟨u, owner, hi, Nat.not_lt.1 hge, rfl, rfl, hmade⟩
  · rintro (⟨hi, hlt⟩ | ⟨u, other, hi, hle, rfl, rfl, hmade⟩)
    · exact ⟨_, hi, by simp [Copy.retire, hlt]⟩
    · exact ⟨_, hi, by simp [Copy.retire, Nat.not_lt.2 hle, hmade]⟩

/-- The copies of the activations that go on stay. -/
theorem prefix_retire (hW : W <+: W') (howned : ∀ c ∈ W, c.owner < L.length) :
    W <+: retire S L σ act W' := by
  obtain ⟨rest, rfl⟩ := hW
  refine ⟨rest.map (Copy.retire σ L.length (act.level.realTable S)), ?_⟩
  rw [retire, List.map_append]
  congr 1
  conv_lhs => rw [← List.map_id W]
  refine List.map_congr_left fun c hc => ?_
  simp [Copy.retire, howned c hc]

theorem Stack.exit (h : Stack S (L ++ [act]) σ τ) (hL : L ≠ []) : Stack S L σ τ := by
  have hold : ∀ {i : Nat} {act' : Activation}, L[i]? = some act' →
      (L ++ [act])[i]? = some act' := fun hi => by
    rw [List.getElem?_append_left (List.getElem?_eq_some_iff.1 hi).1, hi]
  constructor
  case bottom =>
    have := h.bottom
    rwa [List.getElem?_append_left (List.length_pos_of_ne_nil hL)] at this
  case outer =>
    intro i real scope shadow outer first hi
    obtain ⟨hlt, below, act', hbelow, hact', houter⟩ := h.outer (hold hi)
    have := (List.getElem?_eq_some_iff.1 hi).1
    rw [List.getElem?_append_left (by omega)] at hact'
    exact ⟨hlt, below, act', hbelow, hact', houter⟩
  case order => exact fun hlt h₁ h₂ => h.order hlt (hold h₁) (hold h₂)
  case made => exact fun act' hact' => h.made act' (List.mem_append_left _ hact')

/-- The innermost activation ends. -/
theorem exit (h : Tandem S (L ++ [act]) W σ τ) (hL : L ≠ []) :
    Tandem S L (retire S L σ act W) σ τ := by
  have htop : (L ++ [act])[L.length]? = some act := by simp
  have hpos := List.length_pos_of_ne_nil hL
  have hold : ∀ {i : Nat} {act' : Activation}, L[i]? = some act' →
      (L ++ [act])[i]? = some act' := fun hi => by
    rw [List.getElem?_append_left (List.getElem?_eq_some_iff.1 hi).1, hi]
  -- what becomes a plain value is no cell
  have hplain : ∀ {i : Nat} {u other}, Stands W i u other → ∀ slot, σ.snapshot u ≠ .cell slot := by
    intro i u other hi
    obtain ⟨w, -, hsame⟩ := h.ledger.holds hi
    exact hsame.ne_cell
  refine ⟨h.stack.exit hL, ?_, fun {other act'} hact' => ?_,
    fun hlt h₁ h₂ hname => h.older hlt (hold h₁) (hold h₂) hname⟩
  · constructor
    case hosts => exact h.ledger.hosts
    case grown => exact h.ledger.grown
    case size => simpa [retire] using h.ledger.size
    case outside => exact h.ledger.outside
    case holds =>
      intro i v depth hi
      rcases stands_retire.1 hi with ⟨hi, hlt⟩ | ⟨u, other, hu, -, rfl, -, hmade⟩
      · obtain ⟨w, hw, hsame⟩ := h.ledger.holds hi
        exact ⟨w, hw, hsame.of_concat (h.ledger.older hi hlt htop).2⟩
      · obtain ⟨w, hw, hsame⟩ := h.ledger.holds hu
        exact ⟨w, hw, (hsame.snapshot_left σ).symm ▸ hsame.of_concat hmade⟩
    case known =>
      intro i slot depth hi
      rcases stands_retire.1 hi with ⟨hi, -⟩ | ⟨u, other, hi, -, hu, -⟩
      · exact h.ledger.known hi
      · exact absurd hu.symm (hplain hi slot)
    case owned =>
      intro c hc
      obtain ⟨c', hc', rfl⟩ := List.mem_map.1 hc
      unfold Copy.retire
      split
      · assumption
      · exact Nat.sub_lt hpos Nat.one_pos
    case older =>
      intro i v depth above act' hi hlt hact'
      have := (List.getElem?_eq_some_iff.1 hact').1
      rcases stands_retire.1 hi with ⟨hi, -⟩ | ⟨u, other, -, -, -, rfl, -⟩
      · exact h.ledger.older hi hlt (hold hact')
      · omega
    case once =>
      intro i j slot depth hi hj
      rcases stands_retire.1 hi with ⟨hi, -⟩ | ⟨u, other, hi, -, hu, -⟩
      · rcases stands_retire.1 hj with ⟨hj, -⟩ | ⟨u, other, hj, -, hu, -⟩
        · exact h.ledger.once hi hj
        · exact absurd hu.symm (hplain hj slot)
      · exact absurd hu.symm (hplain hi slot)
  · have hlt := (List.getElem?_eq_some_iff.1 hact').1
    refine (h.names (hold hact')).congr h.ledger.hosts.1 (fun _ => rfl) (fun _ => rfl) rfl rfl
      (Nat.le_refl _) (fun _ _ => rfl) (fun hi => stands_retire.2 (.inl ⟨hi, hlt⟩)) fun hi => ?_
    rcases stands_retire.1 hi with ⟨hi, -⟩ | ⟨u, other, hi, -, hu, -⟩
    · exact .inl hi
    · exact absurd hu.symm (hplain hi _)

/-- What a call answers is the image of the value that the real run takes from it, if it was not
made in the call. -/
theorem Image.exit (hv : Image S (L ++ [act]) W v w)
    (hmade : (σ.snapshot v).isMadeSince (act.level.realTable S) = false) :
    Image S L (retire S L σ act W) (σ.snapshot v) w := by
  rcases hv with hv | ⟨i, rfl, hi⟩
  · rw [hv.snapshot_left] at hmade ⊢
    exact .inl (hv.of_concat hmade)
  · exact .inr ⟨i, rfl, stands_retire.2 (.inr ⟨v, _, hi, by simp, rfl, rfl, hmade⟩)⟩

/-- When both runs have opened their frames, no cell was made yet. -/
theorem start (S : Setting) :
    Tandem S [⟨.outermost, 0⟩] []
      (S.start.beginRun.2.openFrame S.run .scope [] ⟨[], S.host⟩).2
      (S.start.beginRun.2.openFrame S.run .shadow [] ⟨[], S.host⟩).2 := by
  have hnames : ∀ {kind}, (S.start.beginRun.2.openFrame S.run kind [] ⟨[], S.host⟩).2.namesAt
      S.firstTable = [] := by
    intro kind
    simp [Store.namesAt, Store.beginRun]
  have hvalue : ∀ {name}, Level.outermost.value? S
      (S.start.beginRun.2.openFrame S.run .scope [] ⟨[], S.host⟩).2 name =
        S.start.hostValue? S.host name := by
    intro name
    simp only [Level.value?, hnames, Table.find?, Store.hostValue?, Store.hosts_openFrame]
    rfl
  -- a host gives away no cell but those that it binds
  have hcell : ∀ {name slot}, S.start.hostValue? S.host name = some (.cell slot) →
      (S.start.hosts[S.host]?.getD {}).find? name = some (.cell slot) := by
    intro name slot h
    simp only [Store.hostValue?] at h
    split at h
    · next v hv =>
      cases h
      exact hv
    · split at h <;> cases h
  have hact : ∀ {depth : Nat} {act : Activation}, [Activation.mk .outermost 0][depth]? = some act →
      depth = 0 ∧ act = ⟨.outermost, 0⟩ := by
    intro depth act h
    cases depth with
    | zero =>
      cases h
      exact ⟨rfl, rfl⟩
    | succ => cases h
  constructor
  case stack =>
    constructor
    case bottom => rfl
    case outer =>
      intro depth real scope shadow outer first h
      cases (hact h).2
    case order =>
      intro below depth act act' hlt _ h
      obtain ⟨rfl, -⟩ := hact h
      exact absurd hlt (Nat.not_lt_zero _)
    case made =>
      intro act hmem
      cases List.mem_singleton.1 hmem
      simp [Level.realTable, Level.shadowTable, Store.beginRun]
  case ledger =>
    constructor <;> simp [Store.beginRun, Stands]
  case names =>
    intro depth act h
    obtain ⟨rfl, rfl⟩ := hact h
    constructor
    case known =>
      intro name slot hname
      rw [hvalue] at hname
      simpa [Store.beginRun] using Store.lt_of_holdsData S.holdsData (hcell hname)
    case apart =>
      intro name name' slot hname hname'
      rw [hvalue] at hname hname'
      exact S.bindsOnce name name' slot (hcell hname) (hcell hname')
    case bound =>
      intro name w hw
      simp only [Level.shadowTable, hnames, Table.find?] at hw
      cases hw
    case free =>
      intro name _
      refine ⟨⟨by rw [hnames]; rfl, fun slot _ => by simp [Store.beginRun]⟩, ?_⟩
      simp [Stands]
  case older =>
    intro depth above act act' name slot hlt _ h
    obtain ⟨rfl, -⟩ := hact h
    exact absurd hlt (Nat.not_lt_zero _)

end Tandem

end SearchScript
