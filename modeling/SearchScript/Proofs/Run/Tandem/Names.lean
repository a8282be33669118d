import SearchScript.Proofs.Run.Tandem

/-!
# Names and assignments in tandem

A name is found in the real run through the scopes of its level. In the speculative run it is found
in the shadow of the level, or it is copied into the shadow from further out, and on the way also
into the shadows of the levels around it. What is declared or assigned to is a cell of the innermost
activation in both runs.

## Key results

- `Tandem.resolveThrough`: a name stands for the same in both runs
- `Tandem.declare`: a declaration
- `Tandem.assign`: an assignment to a cell that the innermost activation made
-/

namespace SearchScript

namespace Tandem

variable {S : Setting} {L : List Activation} {W W' : List Copy} {σ σ' τ τ' : Store} {v w : Value}
  {depth : Nat} {act : Activation} {name : String}

/-! ## Names -/

/-- A shadow copies what a name stands for. -/
theorem copy (h : Tandem S L W σ τ) (hact : L[depth]? = some act)
    (hfree : (τ.namesAt (act.level.shadowTable S)).find? name = none)
    (hv : act.level.value? S σ name = some v) {x : Value}
    (hsame : Same S L (σ.snapshot v) (τ.snapshot x))
    (hmade : ∀ {above : Nat} {act' : Activation}, depth < above → L[above]? = some act' →
      (σ.snapshot v).isMadeSince (act'.level.realTable S) = false) :
    Tandem S L (W ++ [⟨some v, depth⟩]) σ
      ((τ.newCell x).2.bindIn ⟨.shadow, act.level.shadowTable S⟩ name (τ.newCell x).1) := by
  have hmem := List.mem_of_getElem? hact
  have hnames := h.names hact
  have hhosts := h.ledger.hosts.1
  have hfind : (((τ.newCell x).2.bindIn ⟨.shadow, act.level.shadowTable S⟩ name
      (τ.newCell x).1).namesAt (act.level.shadowTable S)).find? name = some (τ.newCell x).1 :=
    Store.find?_bindIn (h.stack.made act hmem).2.1
  have hfind_ne : ∀ other, other ≠ name →
      (((τ.newCell x).2.bindIn ⟨.shadow, act.level.shadowTable S⟩ name
        (τ.newCell x).1).namesAt (act.level.shadowTable S)).find? other =
          (τ.namesAt (act.level.shadowTable S)).find? other :=
    fun other hne => Store.find?_bindIn_ne hne _
  refine ⟨h.stack.mono (Nat.le_refl _) (Nat.le_refl _) (by simp [Store.bindIn, Store.newCell]), ?_,
    fun {other act'} hact' => ?_, h.older⟩
  · refine h.ledger.append rfl rfl (List.getElem?_eq_some_iff.1 hact).1 fun u hu => ?_
    cases hu
    refine ⟨hsame, ?_, fun {above act'} hlt hact' => ?_⟩
    · rintro slot rfl
      exact ⟨hnames.known hv, fun i => (hnames.free hfree).2 hv⟩
    · exact ⟨fun slot hslot => h.older hlt hact hact' (hslot ▸ hv), hmade hlt hact'⟩
  -- in the activation that copies, `name` now has a copy; in the others nothing changes
  by_cases hne : other = depth
  · subst hne
    cases hact.symm.trans hact'
    constructor
    case known => exact hnames.known
    case apart => exact hnames.apart
    case bound =>
      intro other w hw
      -- the new cell is at the end of the trail
      by_cases hother : other = name
      · subst hother
        rw [hfind] at hw
        cases hw
        exact ⟨W.length, v, by simp [Store.newCell, h.ledger.size], .concat W v _, hv⟩
      · rw [hfind_ne other hother] at hw
        obtain ⟨i, u, hw, hi, hu⟩ := hnames.bound hw
        exact ⟨i, u, hw, hi.mono (List.prefix_append W _), hu⟩
    case free =>
      intro other hother
      -- a name that is still free is another one, and no two names share a cell
      have hne : other ≠ name := by
        rintro rfl
        rw [hfind] at hother
        cases hother
      rw [hfind_ne other hne] at hother
      obtain ⟨hunread, hcopies⟩ := hnames.free hother
      refine ⟨?_, fun {i slot} hslot hi => ?_⟩
      · exact hunread.congr hhosts rfl (Store.find?_bindIn_ne hne _) (fun _ _ => rfl) fun hi =>
          hi.mono (List.prefix_append W _)
      · rcases hi.of_concat with hi | ⟨-, hc⟩
        · exact hcopies hslot hi
        · cases hc
          exact hne (hnames.apart hslot hv)
  · obtain ⟨hshadow, hscope⟩ := h.stack.shadowTable_ne hact hact' hne
    exact (h.names hact').append hhosts (Store.namesAt_bindIn_ne hscope)
      (Store.namesAt_bindIn_ne hshadow) fun hdepth => absurd hdepth.symm hne


/-- What is copied is in the trail. -/
theorem newCell_eq (h : Ledger S L W σ τ) (x : Value) :
    (τ.newCell x).1 = .cell (S.firstSlot + W.length) := by
  simp [Store.newCell, h.size]

/-- A name of a level is found in the speculative run as a copy of what it stands for, or in no run.
Only tables up to the shadow of the level change. -/
theorem resolveThrough (h : Tandem S L W σ τ) (hname : name ≠ "File") {level : Level}
    {first : Nat} (hact : L[depth]? = some ⟨level, first⟩) :
    (∃ v i τ' W', level.value? S σ name = some v ∧
      τ.resolveThrough S.host name (level.shadowFrames S) = some (.cell (S.firstSlot + i), τ') ∧
        W <+: W' ∧ Tandem S L W' σ τ' ∧ Stands W' i v depth ∧
          ∀ table > level.shadowTable S, τ'.namesAt table = τ.namesAt table) ∨
    (level.value? S σ name = none ∧
      τ.resolveThrough S.host name (level.shadowFrames S) = none) := by
  induction depth using Nat.strongRecOn generalizing level first with | ind depth ih =>
  have hnames := h.names hact
  -- what is found further out is copied into the shadow of the level
  have hcopy : ∀ {W₁ τ₁ v x}, Tandem S L W₁ σ τ₁ → W <+: W₁ →
      (∀ table ≥ level.shadowTable S, τ₁.namesAt table = τ.namesAt table) →
      (τ.namesAt (level.shadowTable S)).find? name = none → level.value? S σ name = some v →
      Same S L (σ.snapshot v) (τ₁.snapshot x) →
      (∀ {above : Nat} {act' : Activation}, depth < above → L[above]? = some act' →
        (σ.snapshot v).isMadeSince (act'.level.realTable S) = false) →
      ∃ i τ' W', ((τ₁.newCell x).1, (τ₁.newCell x).2.bindIn ⟨.shadow, level.shadowTable S⟩ name
          (τ₁.newCell x).1) = (Value.cell (S.firstSlot + i), τ') ∧
        W <+: W' ∧ Tandem S L W' σ τ' ∧ Stands W' i v depth ∧
          ∀ table > level.shadowTable S, τ'.namesAt table = τ.namesAt table := by
    intro W₁ τ₁ v x h₁ hW htables hfree hv hsame hmade
    refine ⟨W₁.length, _, W₁ ++ [⟨some v, depth⟩], Prod.ext_iff.2 ⟨newCell_eq h₁.ledger x, rfl⟩,
      hW.trans (List.prefix_append W₁ _),
      h₁.copy hact (by rw [htables _ (Nat.le_refl _), hfree]) hv hsame hmade, .concat W₁ v depth,
      fun table htable => ?_⟩
    rw [Store.namesAt_bindIn_ne (Nat.ne_of_gt htable)]
    exact htables table (Nat.le_of_lt htable)
  cases hfind : (τ.namesAt (level.shadowTable S)).find? name with
  | some w =>
    obtain ⟨i, v, rfl, hi, hv⟩ := hnames.bound hfind
    obtain ⟨outer, hframes⟩ := level.shadowFrames_eq (S := S)
    refine .inl ⟨v, i, τ, W, hv, ?_, List.prefix_refl W, h, hi, fun _ _ => rfl⟩
    rw [hframes, Store.resolveThrough_shadow, hfind]
  | none =>
    obtain ⟨hunread, hcopies⟩ := hnames.free hfind
    cases level with
    | outermost =>
      obtain ⟨hnone, hhost⟩ := hunread
      have hvalue : Level.outermost.value? S σ name = S.start.hostValue? S.host name := by
        simp only [Level.value?, hnone, Store.hostValue?, h.ledger.hosts.1]
      have hfound : τ.hostValue? S.host name = S.start.hostValue? S.host name := by
        simp only [Store.hostValue?, h.ledger.hosts.2]
      simp only [Level.shadowFrames, Store.resolveThrough_shadow, Level.shadowTable] at hfind ⊢
      simp only [hfind, Store.resolveThrough, hfound]
      cases hv : S.start.hostValue? S.host name with
      | none => exact .inr ⟨hvalue.trans hv, rfl⟩
      | some v =>
        have hv' := hv
        rw [Store.hostValue?_of_ne hname] at hv'
        -- what the host binds is data, or a cell that nothing has changed so far
        have hdata : σ.snapshot v = τ.snapshot v ∧ (σ.snapshot v).isData = true := by
          rcases S.holdsData name v hv' with hdata | ⟨slot, w, rfl, hw, hdata⟩
          · rw [Store.snapshot_of_isData hdata, Store.snapshot_of_isData hdata]
            exact ⟨rfl, hdata⟩
          · have hlt := (Array.getElem?_eq_some_iff.1 hw).1
            simp only [Store.snapshot, hhost slot hv', h.ledger.outside slot hlt, hw,
              Option.getD_some]
            exact ⟨trivial, hdata⟩
        obtain ⟨i, τ', W', heq, hW, htandem, hi, htables⟩ := hcopy h (List.prefix_refl W)
          (fun _ _ => rfl) hfind (hvalue.trans hv) (x := v) (hdata.1 ▸ .data hdata.2)
          fun _ _ => Value.isMadeSince_of_isData hdata.2
        exact .inl ⟨v, i, τ', W', hvalue.trans hv, congrArg some heq, hW, htandem, hi, htables⟩
    | call real scope shadow outer =>
      obtain ⟨hscope, below, ⟨outer, first'⟩, hlt, hbelow, rfl⟩ := h.stack.outer hact
      have horder : outer.shadowTable S < scope := (h.stack.order hlt hbelow hact).2.1
      simp only [Level.shadowFrames, Store.resolveThrough_shadow, Store.resolveThrough_scope]
      simp only [Level.shadowTable] at hfind hcopy ⊢
      rw [hfind]
      simp only [Unread] at hunread
      cases hparam : (τ.namesAt scope).find? name with
      | some w =>
        rw [hparam] at hunread
        obtain ⟨j, u, slot, rfl, hj, hfound, hslot, hu⟩ := hunread
        have hv : (Level.call real scope shadow outer).value? S σ name = some (.cell slot) :=
          Level.value?_of_find? hfound
        have hsnapshot : σ.snapshot (.cell slot) = u := by simp [Store.snapshot, hslot]
        have hsame := h.ledger.snapshot hj
        have holder := fun {above act'} (hlt : depth < above) (hact' : L[above]? = some act') =>
          (h.ledger.older hj hlt hact').2
        rw [Store.snapshot_of_ne_cell hu] at hsame holder
        obtain ⟨i, τ', W', heq, hW, htandem, hi, htables⟩ := hcopy h (List.prefix_refl W)
          (fun _ _ => rfl) hfind hv (hsnapshot ▸ hsame) (hsnapshot ▸ holder)
        exact .inl ⟨_, i, τ', W', hv, congrArg some heq, hW, htandem, hi, htables⟩
      | none =>
        rw [hparam] at hunread
        have hvalue : (Level.call real scope shadow outer).value? S σ name =
            outer.value? S σ name := by
          simp only [Level.value?, hunread]
        rw [hvalue]
        rcases ih below hlt hbelow with ⟨v, j, τ₁, W₁, hv, hfound, hW₁, h₁, hj, htables₁⟩ | ⟨hv, hfound⟩
        · simp only [hfound, Option.map_some]
          obtain ⟨i, τ', W', heq, hW, htandem, hi, htables⟩ := hcopy h₁ hW₁
            (fun table htable => htables₁ table (by omega)) hfind (hvalue.trans hv)
            (h₁.ledger.snapshot hj) fun hlt' hact' => (h₁.ledger.older hj (by omega) hact').2
          exact .inl ⟨v, i, τ', W', hv, congrArg some heq, hW, htandem, hi, htables⟩
        · exact .inr ⟨hv, by simp only [hfound, Option.map_none]⟩


/-! ## The innermost activation -/

/-- No name stands for a cell that is just made. -/
theorem value?_newCell_ne (h : Tandem S L W σ τ) (hact : L[depth]? = some act) (v : Value)
    (name : String) : act.level.value? S (σ.newCell v).2 name ≠ some (.cell σ.slots.size) := by
  have hvalue : act.level.value? S (σ.newCell v).2 name = act.level.value? S σ name :=
    h.stack.value?_congr hact rfl fun _ _ => rfl
  rw [hvalue]
  exact fun hname => Nat.lt_irrefl _ ((h.names hact).known hname)

section

variable (hact : L[depth]? = some act) (htop : L.length = depth + 1)
include hact htop

/-- Both runs make a cell. -/
theorem newCell (h : Tandem S L W σ τ) (hv : Image S L W v w) :
    Tandem S L (W ++ [⟨some (.cell σ.slots.size), depth⟩]) (σ.newCell v).2 (τ.newCell w).2 := by
  have hgrows : σ.Grows (σ.newCell v).2 :=
    ⟨rfl, by simp [Store.newCell], fun _ => Store.getElem?_newCell, Nat.le_refl _, fun _ _ => rfl⟩
  have hg := h.grow hgrows
  refine ⟨hg.stack.mono (Nat.le_refl _) (Nat.le_refl _) (Nat.le_refl _),
    hg.ledger.append rfl rfl ?_ ?_, ?_, hg.older⟩
  · exact htop ▸ Nat.lt_succ_self depth
  · rintro u ⟨⟩
    refine ⟨?_, ?_, fun {above act'} hlt hact' => ?_⟩
    · have : (σ.newCell v).2.snapshot (.cell σ.slots.size) = σ.snapshot v := by
        simp [Store.newCell, Store.snapshot]
      rw [this]
      exact h.snapshot hv
    · rintro slot ⟨⟩
      exact ⟨by simp [Store.newCell], fun i hi => Nat.lt_irrefl _ (h.ledger.known hi)⟩
    · have := (List.getElem?_eq_some_iff.1 hact').1
      dsimp only at hlt
      omega
  · intro other act' hact'
    refine (hg.names hact').append hg.ledger.hosts.1 rfl rfl ?_
    rintro rfl slot ⟨⟩
    cases hact.symm.trans hact'
    exact h.value?_newCell_ne hact v

/-- Both runs bind a name to a cell that has no name so far. -/
theorem bindIn (h : Tandem S L W σ τ) {i slot : Nat} (hi : Stands W i (.cell slot) depth)
    (hfresh : ∀ name, act.level.value? S σ name ≠ some (.cell slot)) (name : String) :
    Tandem S L W (σ.bindIn ⟨.scope, act.level.realTable S⟩ name (.cell slot))
      (τ.bindIn ⟨.shadow, act.level.shadowTable S⟩ name (.cell (S.firstSlot + i))) := by
  obtain ⟨hreal, hshadow, -⟩ := h.stack.made act (List.mem_of_getElem? hact)
  have hnames := h.names hact
  generalize hσ : σ.bindIn ⟨.scope, act.level.realTable S⟩ name (.cell slot) = σ'
  generalize hτ : τ.bindIn ⟨.shadow, act.level.shadowTable S⟩ name (.cell (S.firstSlot + i)) = τ'
  have hσfind : (σ'.namesAt (act.level.realTable S)).find? name = some (.cell slot) :=
    hσ ▸ Store.find?_bindIn hreal
  have hτfind : (τ'.namesAt (act.level.shadowTable S)).find? name =
      some (.cell (S.firstSlot + i)) := hτ ▸ Store.find?_bindIn hshadow
  have hσother : ∀ other, other ≠ name → ∀ table,
      (σ'.namesAt table).find? other = (σ.namesAt table).find? other :=
    fun other hne table => hσ ▸ Store.find?_bindIn_ne hne table
  have hτother : ∀ other, other ≠ name → ∀ table,
      (τ'.namesAt table).find? other = (τ.namesAt table).find? other :=
    fun other hne table => hτ ▸ Store.find?_bindIn_ne hne table
  have hhosts : σ'.hosts = σ.hosts := hσ ▸ rfl
  have hslots : σ'.slots = σ.slots := hσ ▸ rfl
  have hvalue : act.level.value? S σ' name = some (.cell slot) := Level.value?_of_find? hσfind
  have hvalueother : ∀ other, other ≠ name →
      act.level.value? S σ' other = act.level.value? S σ other := fun other hne =>
    h.stack.value?_congr hact hhosts fun table _ => hσother other hne table
  -- the activations around it do not see the table
  have hbelow : ∀ {below : Nat} {act' : Activation}, L[below]? = some act' → below ≠ depth → below < depth ∧
      ∀ table ≤ act'.level.realTable S, σ'.namesAt table = σ.namesAt table := by
    intro below act' hact' hne
    have := (List.getElem?_eq_some_iff.1 hact').1
    have hlt : below < depth := by omega
    have horder := (h.stack.order hlt hact' hact).1
    refine ⟨hlt, fun table htable => ?_⟩
    rw [← hσ, Store.namesAt_bindIn_ne]
    exact Nat.ne_of_lt (Nat.lt_of_le_of_lt htable horder)
  have hvaluebelow : ∀ {below : Nat} {act' : Activation} {other}, L[below]? = some act' → below ≠ depth →
      act'.level.value? S σ' other = act'.level.value? S σ other := by
    intro below act' other hact' hne
    refine h.stack.value?_congr hact' hhosts fun table htable => ?_
    rw [(hbelow hact' hne).2 table htable]
  refine ⟨?_, ?_, fun {other act'} hact' => ?_, fun {below above act₁ act₂ other slot'} hlt hact₁
    hact₂ hother => ?_⟩
  · refine h.stack.mono ?_ ?_ ?_ <;> simp [← hσ, ← hτ, Store.bindIn]
  · subst hσ hτ
    exact { h.ledger with }
  · by_cases hne : other = depth
    · subst hne
      cases hact.symm.trans hact'
      constructor
      case known =>
        intro other slot' hother
        rw [hslots]
        by_cases hname : other = name
        · subst hname
          cases hvalue.symm.trans hother
          exact h.ledger.known hi
        · exact hnames.known (hvalueother other hname ▸ hother)
      case apart =>
        intro other other' slot' hother hother'
        by_cases hname : other = name <;> by_cases hname' : other' = name
        · rw [hname, hname']
        · subst hname
          cases hvalue.symm.trans hother
          exact absurd (hvalueother other' hname' ▸ hother') (hfresh other')
        · subst hname'
          cases hvalue.symm.trans hother'
          exact absurd (hvalueother other hname ▸ hother) (hfresh other)
        · exact hnames.apart (hvalueother other hname ▸ hother)
            (hvalueother other' hname' ▸ hother')
      case bound =>
        intro other w hw
        by_cases hname : other = name
        · subst hname
          cases hτfind.symm.trans hw
          exact ⟨i, _, rfl, hi, hvalue⟩
        · rw [hτother other hname] at hw
          obtain ⟨j, v, hw, hj, hv⟩ := hnames.bound hw
          exact ⟨j, v, hw, hj, (hvalueother other hname).trans hv⟩
      case free =>
        intro other hother
        have hname : other ≠ name := by
          rintro rfl
          cases hτfind.symm.trans hother
        rw [hτother other hname] at hother
        obtain ⟨hunread, hcopies⟩ := hnames.free hother
        refine ⟨hunread.congr h.ledger.hosts.1 (hσother other hname _) (hτother other hname _)
          (fun _ _ => by rw [hslots]) id, fun {j slot'} hslot' => hcopies ?_⟩
        rwa [hvalueother other hname] at hslot'
    · obtain ⟨hne₁, hne₂⟩ := h.stack.shadowTable_ne hact hact' hne
      refine (h.names hact').congr h.ledger.hosts.1 (fun _ => hvaluebelow hact' hne)
        (fun _ => by rw [(hbelow hact' hne).2 _ (Nat.le_refl _)]) ?_ ?_ (Nat.le_of_eq (by rw [hslots]))
        (fun _ _ => by rw [hslots]) id .inl
      · rw [← hτ, Store.namesAt_bindIn_ne hne₂]
      · rw [← hτ, Store.namesAt_bindIn_ne hne₁]
  · have := (List.getElem?_eq_some_iff.1 hact₂).1
    rw [hvaluebelow hact₁ (by omega)] at hother
    exact h.older hlt hact₁ hact₂ hother

/-- A declaration binds a name in both runs. -/
theorem declare (h : Tandem S L W σ τ) (hv : Image S L W v w) (name : String) :
    Tandem S L (W ++ [⟨some (.cell σ.slots.size), depth⟩])
      ((σ.newCell v).2.bindIn ⟨.scope, act.level.realTable S⟩ name (σ.newCell v).1)
      ((τ.newCell w).2.bindIn ⟨.shadow, act.level.shadowTable S⟩ name (τ.newCell w).1) := by
  rw [newCell_eq h.ledger]
  exact (h.newCell hact htop hv).bindIn hact htop (.concat W _ depth)
    (h.value?_newCell_ne hact v) name

/-- An assignment to a cell of the innermost activation changes the one cell that stands for it. -/
theorem assign {slot : Nat} {u u' : Value} (h : Tandem S L W σ τ)
    (ht : Image S L W (.cell slot) w) (hslot : act.first ≤ slot) (hu : Image S L W u u') :
    ∃ τ', τ.assign w u' = .ok τ' ∧
      Tandem S L W { σ with slots := σ.slots.setIfInBounds slot (σ.snapshot u) } τ' := by
  rcases ht with ht | ⟨i, rfl, hi⟩
  · exact absurd rfl (ht.ne_cell slot)
  rw [htop, Nat.add_sub_cancel] at hi
  have hsame := h.snapshot hu
  have hlt := h.ledger.known hi
  generalize hσ : { σ with slots := σ.slots.setIfInBounds slot (σ.snapshot u) } = σ'
  have hother : ∀ other, other ≠ slot → σ'.slots[other]? = σ.slots[other]? := by
    intro other hne
    simp [← hσ, hne.symm]
  have hchanged : σ'.snapshot (.cell slot) = σ.snapshot u := by
    simp [← hσ, Store.snapshot, hlt]
  have hhosts : σ'.hosts = σ.hosts := hσ ▸ rfl
  have hsize : σ'.slots.size = σ.slots.size := by simp [← hσ]
  -- only the one copy stands for the cell that is changed
  have hsnapshot : ∀ {j v depth'}, Stands W j v depth' → j ≠ i →
      σ'.snapshot v = σ.snapshot v := by
    intro j v depth' hj hne
    by_cases hv : ∃ other, v = .cell other
    · obtain ⟨other, rfl⟩ := hv
      refine Store.snapshot_cell_congr (hother other ?_)
      rintro rfl
      have howned := h.ledger.owned _ (List.mem_of_getElem? hj)
      by_cases hdepth : depth' = depth
      · exact hne (h.ledger.once (hdepth ▸ hj) hi)
      · have := (h.ledger.older hj (by dsimp only at howned; omega) hact).1 other rfl
        omega
    · have hv := not_exists.1 hv
      rw [Store.snapshot_of_ne_cell hv, Store.snapshot_of_ne_cell hv]
  have hvalue : ∀ {below : Nat} {act' : Activation} {name}, L[below]? = some act' →
      act'.level.value? S σ' name = act'.level.value? S σ name := fun hact' =>
    h.stack.value?_congr hact' hhosts fun _ _ => by rw [← hσ]; rfl
  refine ⟨_, rfl, h.stack.mono (Nat.le_of_eq hsize.symm) (by simp [← hσ]) (Nat.le_refl _), ?_,
    fun {below act'} hact' => ?_,
    fun hlt hact₁ hact₂ hname => h.older hlt hact₁ hact₂ (hvalue hact₁ ▸ hname)⟩
  · constructor
    case hosts => exact ⟨hhosts.trans h.ledger.hosts.1, h.ledger.hosts.2⟩
    case grown => exact hsize ▸ h.ledger.grown
    case size => simpa using h.ledger.size
    case outside =>
      intro other hother
      have : S.firstSlot + i ≠ other := by omega
      simpa [this] using h.ledger.outside other hother
    case holds =>
      intro j v depth' hj
      by_cases hne : j = i
      · subst hne
        cases hi.symm.trans hj
        exact ⟨τ.snapshot u', by simp [h.lt_length hi], hchanged ▸ hsame⟩
      · have : S.firstSlot + i ≠ S.firstSlot + j := by omega
        rw [hsnapshot hj hne]
        simpa only [Array.getElem?_setIfInBounds_ne this] using h.ledger.holds hj
    case known => exact fun hj => hsize ▸ h.ledger.known hj
    case owned => exact h.ledger.owned
    case older =>
      intro j v depth' above act' hj hlt hact'
      have hne : j ≠ i := by
        rintro rfl
        cases hi.symm.trans hj
        have := (List.getElem?_eq_some_iff.1 hact').1
        omega
      exact ⟨(h.ledger.older hj hlt hact').1,
        by rw [hsnapshot hj hne]; exact (h.ledger.older hj hlt hact').2⟩
    case once => exact h.ledger.once
  · refine (h.names hact').congr h.ledger.hosts.1 (fun _ => hvalue hact')
      (fun _ => by rw [← hσ]; rfl) rfl rfl (Nat.le_of_eq hsize.symm) (fun {name other} hfree hname =>
        hother other ?_) id .inl
    rintro rfl
    by_cases hdepth : below = depth
    · subst hdepth
      cases hact.symm.trans hact'
      exact ((h.names hact).free hfree).2 hname hi
    · have := (List.getElem?_eq_some_iff.1 hact').1
      have := h.older (by omega) hact' hact hname
      omega

end

end Tandem

end SearchScript
