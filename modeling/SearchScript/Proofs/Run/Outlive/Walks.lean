import SearchScript.Proofs.Run.Loops
import SearchScript.Proofs.Run.Outlive.Stores
import SearchScript.Proofs.Run.Steps
import SearchScript.Run.Walk

/-!
# Programs run without some of their frames

Whatever a program does, in either mode, it does the same if frames that hold no names are left out
of its context and of all functions: it comes to the same result, with the frames left out of it,
and leaves the same store. The proof has one lemma for each step that is not a program, and an
induction on the steps that are left for those that are.

## Key definitions

- `Run.Matches`: a step does the same as another one does without the frames
- `Walk.MatchedBy`: all parts of programs do

## Key results

- `Run.Matches.bind`: one step after the other
- `Walk.matched`: every part of a program does the same without the frames that are gone
-/

namespace SearchScript

namespace Run

variable {gone : List Nat} {G : Guard gone} {st : Store} {α β : Type} [HasClosures α]
  [HasClosures β]

/-- Whether a step, taken in a sound store, comes to what another one comes to in the store without
the frames that are gone; and whether the store stays sound, and the result is admitted. -/
def Matches (G : Guard gone) (st : Store) (step step' : Run α) : Prop :=
  G.Sound st →
    step' (st.without gone) =
        (step st).map (Prod.map (HasClosures.without gone) (Store.without gone)) ∧
      ∀ r st', step st = some (r, st') → G.Sound st' ∧ st.Precedes st' ∧ G.AdmitsAll st' r

theorem matches_of_eq_some {step step' : Run α} {r : Except Signal α} {st' : Store}
    (h : step st = some (r, st'))
    (h' : step' (st.without gone) = some (HasClosures.without gone r, st'.without gone))
    (hkept : G.Sound st → G.Sound st' ∧ st.Precedes st' ∧ G.AdmitsAll st' r) :
    Matches G st step step' := by
  intro hsound
  refine ⟨by rw [h, h']; rfl, fun r₁ st₁ h₁ => ?_⟩
  rw [h] at h₁
  cases h₁
  exact hkept hsound

theorem matches_pure {a : α} (ha : G.AdmitsAll st a) :
    Matches G st (Pure.pure a) (Pure.pure (HasClosures.without gone a)) :=
  matches_of_eq_some rfl rfl fun h => ⟨h, .refl st, ha⟩

theorem matches_cutOff : Matches G st (cutOff : Run α) cutOff :=
  fun _ => ⟨rfl, fun _ _ h => by cases h⟩

theorem matches_raise {s : Signal} (hs : ∀ c ∈ s.closures, G.Admits st c.context) :
    Matches G st (raise s : Run α) (raise (s.without gone)) :=
  matches_of_eq_some rfl rfl fun h => ⟨h, .refl st, hs⟩

theorem matches_fail {e : RunError} : Matches G st (fail e : Run α) (fail e) :=
  matches_raise (List.forall_mem_nil _)

theorem Matches.bind {step step' : Run α} {next next' : α → Run β} (h : Matches G st step step')
    (hnext : ∀ a st₁, st.Precedes st₁ → G.AdmitsAll st₁ a →
      Matches G st₁ (next a) (next' (HasClosures.without gone a))) :
    Matches G st (step >>= next) (step' >>= next') := by
  intro hsound
  obtain ⟨heq, hkept⟩ := h hsound
  change Run.bind step' next' _ = (Run.bind step next st).map _ ∧
    ∀ r st', Run.bind step next st = some (r, st') → _
  unfold Run.bind
  rw [heq]
  cases hstep : step st with
  | none => exact ⟨rfl, fun _ _ h => by cases h⟩
  | some found =>
    obtain ⟨r, st₁⟩ := found
    obtain ⟨hsound₁, hprec₁, hr⟩ := hkept r st₁ hstep
    cases r with
    | error s =>
      refine ⟨rfl, fun r' st' heq => ?_⟩
      cases heq
      exact ⟨hsound₁, hprec₁, hr⟩
    | ok a =>
      obtain ⟨heq₁, hkept₁⟩ := hnext a st₁ hprec₁ hr hsound₁
      refine ⟨heq₁, fun r' st' h' => ?_⟩
      obtain ⟨hsound', hprec', hr'⟩ := hkept₁ r' st' h'
      exact ⟨hsound', hprec₁.trans hprec', hr'⟩

theorem Matches.attempt {step step' : Run α} (h : Matches G st step step') :
    Matches G st (Run.attempt step) (Run.attempt step') := by
  intro hsound
  obtain ⟨heq, hkept⟩ := h hsound
  unfold Run.attempt
  rw [heq]
  cases hstep : step st with
  | none => exact ⟨rfl, fun _ _ h => by cases h⟩
  | some found =>
    refine ⟨rfl, fun r' st' heq => ?_⟩
    cases heq
    exact hkept _ _ hstep

theorem matches_ofAnswer {x x' : Except RunError α} (hx : x' = x.map (HasClosures.without gone))
    (ha : ∀ a, x = .ok a → G.AdmitsAll st a) : Matches G st (ofAnswer x) (ofAnswer x') := by
  subst hx
  cases x with
  | ok a => exact matches_pure (ha a rfl)
  | error e => exact matches_fail

theorem matches_ofValue {x x' : Except ValueError α} (hx : x' = x.map (HasClosures.without gone))
    (ha : ∀ a, x = .ok a → G.AdmitsAll st a) : Matches G st (ofValue x) (ofValue x') := by
  subst hx
  cases x with
  | ok a => exact matches_pure (ha a rfl)
  | error e => exact matches_fail

theorem matches_read {f f' : Store → α}
    (hf : f' (st.without gone) = HasClosures.without gone (f st))
    (ha : G.Sound st → G.AdmitsAll st (f st)) : Matches G st (read f) (read f') :=
  matches_of_eq_some rfl (by simp only [read, hf]; rfl) fun h => ⟨h, .refl st, ha h⟩

theorem matches_update {f f' : Store → α × Store}
    (hf : G.Sound st → f' (st.without gone) =
      (HasClosures.without gone (f st).1, (f st).2.without gone) ∧
        G.Sound (f st).2 ∧ st.Precedes (f st).2 ∧ G.AdmitsAll (f st).2 (f st).1) :
    Matches G st (update f) (update f') := by
  intro hsound
  obtain ⟨heq, hkept⟩ := hf hsound
  refine ⟨by simp only [update, heq]; rfl, fun r st' h => ?_⟩
  cases h
  exact hkept

theorem matches_modify {f f' : Store → Store}
    (hf : G.Sound st → f' (st.without gone) = (f st).without gone ∧ G.Sound (f st) ∧
      st.Precedes (f st)) : Matches G st (modify f) (modify f') := by
  intro hsound
  obtain ⟨heq, hkept, hprec⟩ := hf hsound
  refine ⟨by simp only [modify, heq]; rfl, fun r st' h => ?_⟩
  cases h
  exact ⟨hkept, hprec, List.forall_mem_nil _⟩

theorem matches_snapshot {v : Value} (hv : G.AdmitsAll st v) :
    Matches G st (snapshot v) (snapshot (v.without gone)) :=
  matches_read (Store.snapshot_without v) fun h => h.snapshot hv

theorem matches_withSnapshot {v : Value} {next next' : Value → Run β} (hv : G.AdmitsAll st v)
    (hnext : ∀ u st₁, st.Precedes st₁ → G.AdmitsAll st₁ u →
      Matches G st₁ (next u) (next' (u.without gone))) :
    Matches G st (snapshot v >>= next) (snapshot (v.without gone) >>= next') :=
  (matches_snapshot hv).bind hnext

/-- What is read from the store, followed by steps that depend on it. -/
theorem matches_readThen {γ : Type} {f f' : Store → γ} {next next' : γ → Run β}
    (h : Matches G st (next (f st)) (next' (f' (st.without gone)))) :
    Matches G st (read f >>= next) (read f' >>= next') := h

/-- A change of the store followed by steps that depend on what was made. -/
theorem matches_updateThen {γ : Type} {f f' : Store → γ × Store} {next next' : γ → Run β}
    (h : G.Sound st → ∃ c, f' (st.without gone) = (c, (f st).2.without gone) ∧ G.Sound (f st).2 ∧
      st.Precedes (f st).2 ∧ Matches G (f st).2 (next (f st).1) (next' c)) :
    Matches G st (update f >>= next) (update f' >>= next') := by
  intro hsound
  obtain ⟨c, heq, hsound₁, hprec₁, hnext⟩ := h hsound
  have hbind : (update f >>= next) st = next (f st).1 (f st).2 := bind_of_ok rfl
  have hbind' : (update f' >>= next') (st.without gone) = next' c ((f st).2.without gone) :=
    bind_of_ok (by simp only [update, heq])
  obtain ⟨heq₁, hkept₁⟩ := hnext hsound₁
  rw [hbind, hbind']
  refine ⟨heq₁, fun r st' h' => ?_⟩
  obtain ⟨hsound', hprec', hr'⟩ := hkept₁ r st' h'
  exact ⟨hsound', hprec₁.trans hprec', hr'⟩

end Run

namespace Walk

open Run hiding pure bind

variable {gone : List Nat} {G : Guard gone} {st : Store} {ctx : Context} {mode : Mode}
  {v w target : Value} {args : List Value}

/-! ## Names and members -/

theorem matches_name {span : Span} {text : String} (hctx : G.Admits st ctx) :
    Matches G st (name ctx span text) (name (ctx.without gone) span text) := by
  intro hsound
  unfold name
  rw [show (ctx.without gone).env = ctx.env.without gone from rfl, hsound.resolve?_without hctx]
  cases hfound : st.resolve? ctx.env text with
  | some found =>
    refine ⟨rfl, fun r st' h => ?_⟩
    cases h
    exact hsound.of_resolveThrough (G.scope hctx) hfound
  | none =>
    dsimp only [Option.map_none]
    have hmode : (ctx.without gone).mode = ctx.mode := rfl
    rw [hmode]
    split
    · exact matches_fail hsound
    · rw [hsound.visibleNames]
      split
      · exact matches_raise (s := .suggest _) (List.forall_mem_nil _) hsound
      · exact matches_fail hsound

theorem matches_newFunction {callable : Callable} (h : G.AdmitsAll st callable) :
    Matches G st (update (·.newFunction callable))
      (update (·.newFunction (callable.without gone))) :=
  matches_update fun hsound => by
    obtain ⟨hsound', hprec'⟩ := hsound.newFunction callable
    exact ⟨rfl, hsound', hprec', h.mono hprec'⟩

theorem matches_makeClosure {params : List String} {body : Code} (hctx : G.Admits st ctx) :
    Matches G st (makeClosure ctx params body) (makeClosure (ctx.without gone) params body) :=
  matches_newFunction fun c hc => by
    cases List.mem_singleton.1 hc
    exact hctx

theorem matches_memberOf {member : String} (hv : G.AdmitsAll st v) :
    Matches G st (memberOf v member) (memberOf (v.without gone) member) := by
  refine matches_withSnapshot hv fun u st₁ _ hu => ?_
  refine (matches_ofValue Value.memberOf_without fun m hm =>
    Guard.admitsAll_of_subset hu (Value.closures_of_memberOf hm)).bind fun m st₂ _ hm => ?_
  cases m with
  | data w => exact matches_pure hm
  | function callable => exact matches_newFunction hm

theorem matches_namedMember {right : Expr} (hv : G.AdmitsAll st v) :
    Matches G st (namedMember v right) (namedMember (v.without gone) right) := by
  unfold namedMember
  split
  · exact matches_memberOf hv
  · exact matches_fail

theorem offeredMembers_without {right : Expr} :
    offeredMembers (v.without gone) right = offeredMembers v right := by
  unfold offeredMembers
  split <;> rw [Value.memberNames_without]

theorem matches_member {left right : Expr} (hv : G.AdmitsAll st v) :
    Matches G st (member ctx v left right)
      (member (ctx.without gone) (v.without gone) left right) := by
  unfold member
  rw [show (ctx.without gone).mode = ctx.mode from rfl]
  split
  · exact matches_namedMember hv
  · split
    · refine matches_withSnapshot hv fun u st₁ _ _ => ?_
      rw [offeredMembers_without]
      exact matches_raise (s := .suggest _) (List.forall_mem_nil _)
    · exact matches_namedMember hv

/-! ## Operators -/

theorem matches_unary {op : UnaryOp} (hv : G.AdmitsAll st v) :
    Matches G st (unary op v) (unary op (v.without gone)) := by
  have hdata : ∀ {f : Value → Except ValueError Value} {u : Value} {st : Store},
      (∀ u, f (u.without gone) = f u) → (∀ {u w}, f u = .ok w → w.isData = true) →
        Matches G st (ofValue (f u)) (ofValue (f (u.without gone))) := by
    intro f u st hf hdata
    refine matches_ofValue ?_ fun w hw => Guard.admitsAll_of_isData (hdata hw)
    rw [hf]
    cases h : f u with
    | error e => rfl
    | ok w => exact congrArg Except.ok (Value.without_of_isData w (hdata h)).symm
  cases op with
  | plus => exact matches_pure hv
  | negate =>
    exact matches_withSnapshot hv fun u st₁ _ _ =>
      hdata (fun _ => Value.negate_without) fun {u w} h => by cases u <;> cases h <;> rfl
  | not =>
    exact matches_withSnapshot hv fun u st₁ _ _ =>
      hdata (fun _ => Value.not_without) fun {u w} h => by cases u <;> cases h <;> rfl
  | bitNot =>
    exact matches_withSnapshot hv fun u st₁ _ _ =>
      hdata (fun _ => Value.bitNot_without) fun {u w} h => by cases u <;> cases h <;> rfl

theorem matches_binary {op : BinaryOp} (hv : G.AdmitsAll st v) (hw : G.AdmitsAll st w) :
    Matches G st (binary op v w) (binary op (v.without gone) (w.without gone)) :=
  matches_withSnapshot hv fun _ _ hprec₁ hl =>
    matches_withSnapshot (hw.mono hprec₁) fun _ _ hprec₂ _ =>
      matches_ofAnswer Value.binary_without fun _ hu =>
        Guard.admitsAll_of_subset (hl.mono hprec₂) (Value.closures_of_binary hu)

theorem matches_assign (hv : G.AdmitsAll st v) :
    Matches G st (assign target v) (assign (target.without gone) (v.without gone)) := by
  intro hsound
  unfold assign
  rw [Store.assign_without]
  cases hassign : st.assign target v with
  | error e => exact matches_fail hsound
  | ok st₁ =>
    refine ⟨rfl, fun r st' h => ?_⟩
    cases h
    obtain ⟨hsound₁, hprec₁⟩ := hsound.assign hv hassign
    exact ⟨hsound₁, hprec₁, List.forall_mem_nil _⟩

/-! ## Calls of what is not made by a program -/

theorem admitsAll_cons : G.AdmitsAll st (v :: args) ↔ G.AdmitsAll st v ∧ G.AdmitsAll st args :=
  List.forall_mem_append

theorem admitsAll_iff : G.AdmitsAll st args ↔ ∀ v ∈ args, G.AdmitsAll st v := by
  induction args with
  | nil => exact iff_of_true (List.forall_mem_nil _) (List.forall_mem_nil _)
  | cons v rest ih => rw [admitsAll_cons, ih, List.forall_mem_cons]

theorem matches_pureData (h : v.isData = true) :
    Matches G st (pure v : Run Value) (pure v) := by
  have hpure := matches_pure (Guard.admitsAll_of_isData h : G.AdmitsAll st v)
  rwa [show HasClosures.without gone v = v from Value.without_of_isData v h] at hpure

theorem matches_null : Matches G st (pure .null : Run Value) (pure .null) := matches_pureData rfl

/-- Steps whose results are data are the same without any frames. -/
theorem matches_data {x : Except RunError Value} (h : ∀ u, x = .ok u → u.isData = true) :
    Matches G st (ofAnswer x) (ofAnswer x) := by
  refine matches_ofAnswer ?_ fun u hu => Guard.admitsAll_of_isData (h u hu)
  cases hx : x with
  | error e => rfl
  | ok u => exact congrArg Except.ok (Value.without_of_isData u (h u hx)).symm

theorem matches_convert {type : TypeName} (hargs : G.AdmitsAll st args) :
    Matches G st (convert type args) (convert type (Value.allWithout gone args)) := by
  cases args with
  | nil => cases type <;> exact matches_fail
  | cons v rest =>
    obtain ⟨hv, -⟩ := admitsAll_cons.1 hargs
    cases type with
    | boolean =>
      refine matches_withSnapshot hv fun u st₁ _ _ => ?_
      rw [Value.toBoolean_without]
      cases u.toBoolean with
      | error e => exact matches_fail
      | ok b => exact matches_pureData rfl
    | number =>
      refine matches_withSnapshot hv fun u st₁ _ _ => ?_
      rw [Value.toNumber_without]
      cases u.toNumber with
      | error e => exact matches_fail
      | ok n => exact matches_pureData rfl
    | string =>
      refine matches_withSnapshot hv fun u st₁ _ _ => ?_
      rw [Value.toText_without]
      cases u.toText with
      | error e => exact matches_fail
      | ok s => exact matches_pureData rfl

theorem isData_of_lookUp {files : FileStore} {u : Value} (h : lookUp files v = .ok u) :
    u.isData = true := by
  unfold lookUp at h
  split at h
  · split at h <;> cases h
    rfl
  · split at h <;> cases h
    rfl
  · cases h

theorem lookUp_without {files : FileStore} : lookUp files (v.without gone) = lookUp files v := by
  cases v <;> rfl

theorem matches_findFile {files : Option FileStore} (hargs : G.AdmitsAll st args) :
    Matches G st (findFile mode files args)
      (findFile mode files (Value.allWithout gone args)) := by
  cases args with
  | nil => exact matches_fail
  | cons v rest =>
    obtain ⟨hv, -⟩ := admitsAll_cons.1 hargs
    refine matches_withSnapshot hv fun u st₁ _ _ => ?_
    cases mode with
    | real =>
      cases files with
      | none => exact matches_fail
      | some files =>
        dsimp only
        rw [lookUp_without]
        exact matches_data fun w hw => isData_of_lookUp hw
    | speculative cursor =>
      have hfail {w : Value} : Matches G st₁ (fail (.fileArgument w.type) : Run Value)
          (fail (.fileArgument (w.without gone).type)) := by
        rw [Value.type_without]
        exact matches_fail
      cases u <;> cases files <;> first | exact matches_pureData rfl | exact hfail

theorem snapshots_without : (Value.allWithout gone args).map (st.without gone).snapshot =
    (args.map st.snapshot).map (Value.without gone) := by
  rw [Value.allWithout_eq_map, List.map_map, List.map_map]
  exact List.map_congr_left fun v _ => Store.snapshot_without v

theorem matches_holds {items : List String} :
    Matches G st (holds items args) (holds items (Value.allWithout gone args)) := by
  refine matches_readThen ?_
  rw [snapshots_without, Value.stringArgument_without]
  cases stringArgument (args.map st.snapshot) 0 with
  | error e => exact matches_fail
  | ok needle => exact matches_pureData rfl

theorem matches_record (hargs : G.AdmitsAll st args) :
    Matches G st (record args) (record (Value.allWithout gone args)) := by
  have hhead : (Value.allWithout gone args).headD .null = (args.headD .null).without gone := by
    cases args <;> rfl
  rw [record, record, hhead]
  refine (matches_modify fun hsound => ⟨?_, hsound.record hargs⟩).bind fun _ st₁ hprec _ =>
    matches_pure ?_
  · simp [Store.without, Value.allWithout_eq_map]
  · cases args with
    | nil => exact List.forall_mem_nil _
    | cons v rest => exact (admitsAll_cons.1 hargs).1.mono hprec

theorem matches_predicate {quantifier : Quantifier} (hargs : G.AdmitsAll st args) :
    Matches G st (predicate quantifier args)
      (predicate quantifier (Value.allWithout gone args)) := by
  cases args with
  | nil => exact matches_fail
  | cons v rest =>
    refine matches_withSnapshot (admitsAll_cons.1 hargs).1 fun u st₁ _ hu => ?_
    refine matches_ofValue Value.requireFunction_without fun callable h => ?_
    have hsame : HasClosures.closures callable = HasClosures.closures u :=
      Value.closures_of_requireFunction h
    exact Guard.admitsAll_of_subset hu (hsame ▸ List.Subset.refl _)

theorem matches_predicateAnswer (hv : G.AdmitsAll st v) :
    Matches G st (predicateAnswer v) (predicateAnswer (v.without gone)) := by
  refine matches_withSnapshot hv fun u st₁ _ _ => ?_
  have hfail {w : Value} : Matches G st₁ (fail (.predicateResult w.type) : Run Bool)
      (fail (.predicateResult (w.without gone).type)) := by
    rw [Value.type_without]
    exact matches_fail
  cases u <;> first
    | exact hfail
    | exact matches_pure (List.forall_mem_nil _)

/-! ## Ends of functions -/

theorem realOutcome_without {r : Except Signal Value} :
    realOutcome (HasClosures.without gone r) = (realOutcome r).map (Value.without gone) := by
  cases r with
  | ok v => rfl
  | error s => cases s <;> rfl

theorem closures_of_realOutcome {r : Except Signal Value} (h : realOutcome r = .ok v) :
    v.closures = HasClosures.closures r := by
  cases r with
  | ok v => cases h; rfl
  | error s =>
    cases s <;> cases h
    rfl

theorem matches_settle {step step' : Run Value} (h : Matches G st step step') :
    Matches G st (settle step) (settle step') := by
  refine h.attempt.bind fun r st₁ _ hr => ?_
  refine (matches_ofAnswer realOutcome_without fun v hv c hc => hr c ?_).bind fun v st₂ _ hv =>
    matches_snapshot hv
  exact closures_of_realOutcome hv ▸ hc

theorem matches_settleSpeculative {step step' : Run Value} (h : Matches G st step step') :
    Matches G st (settleSpeculative step) (settleSpeculative step') := by
  refine h.attempt.bind fun r st₁ _ hr => ?_
  cases r with
  | ok v => exact matches_pure hr
  | error s =>
    cases s with
    | leave v => exact matches_pure (a := v) hr
    | breakLoop | continueLoop => exact matches_null
    | suggest | fail => exact matches_raise hr

/-! ## Steps in a context -/

theorem matches_declare {name : String} (hctx : G.AdmitsRun st ctx) (hv : G.AdmitsAll st v) :
    Matches G st (modify fun st => (st.newCell v).2.bind ctx.env name (st.newCell v).1)
      (modify fun st => (st.newCell (v.without gone)).2.bind (ctx.without gone).env name
        (st.newCell (v.without gone)).1) := by
  refine matches_modify fun hsound => ?_
  obtain ⟨hsound₁, hprec₁⟩ := hsound.newCell hv
  obtain ⟨hsound₂, hprec₂⟩ := hsound₁.bind (v := (st.newCell v).1) hctx.2 (List.forall_mem_nil _)
  refine ⟨?_, hsound₂, hprec₁.trans hprec₂⟩
  rw [Store.newCell_without]
  exact Guard.Sound.bind_without (v := (st.newCell v).1) hctx.2

theorem matches_enter {β : Type} [HasClosures β] {closure : Closure} {next next' : Context → Run β}
    (hclosure : G.Admits st closure.context) (hargs : G.AdmitsAll st args)
    (hnext : ∀ ctx st₁, ctx.mode = closure.context.mode → G.AdmitsRun st₁ ctx →
      Matches G st₁ (next ctx) (next' (ctx.without gone))) :
    Matches G st (enter closure args >>= next)
      (enter (closure.without gone) (Value.allWithout gone args) >>= next') := by
  refine matches_updateThen fun hsound => ?_
  obtain ⟨heq, hsound₁, hprec₁, hnames⟩ := hsound.bindParams closure.params
    (admitsAll_iff.1 hargs) (List.forall_mem_nil (fun entry => G.AdmitsAll st (Prod.snd entry)))
  rw [← Value.allWithout_eq_map] at heq
  have heq : (st.without gone).bindParams [] closure.params (Value.allWithout gone args) = _ := heq
  obtain ⟨hsound₂, hprec₂⟩ := hsound₁.openFrame hnames
  have hctx := G.mono hprec₁ hclosure
  refine ⟨_, ?_, hsound₂, hprec₁.trans hprec₂,
    hnext _ _ rfl (hsound₁.admitsRun_openFrame (.inl rfl) hctx)⟩
  simp only [Closure.without, Context.without, heq, Store.openFrame_without _ hsound₁.size_notMem]

theorem matches_behindShadow {β : Type} [HasClosures β] {next next' : Context → Run β}
    (hmode : ctx.mode ≠ .real) (hctx : G.Admits st ctx)
    (hnext : ∀ ctx' st₁, ctx'.mode = ctx.mode → G.AdmitsRun st₁ ctx' →
      Matches G st₁ (next ctx') (next' (ctx'.without gone))) :
    Matches G st (behindShadow ctx >>= next) (behindShadow (ctx.without gone) >>= next') := by
  refine matches_updateThen fun hsound => ?_
  obtain ⟨hsound₁, hprec₁⟩ := hsound.openFrame
    (List.forall_mem_nil (fun entry => G.AdmitsAll st (Prod.snd entry)))
  refine ⟨_, ?_, hsound₁, hprec₁, hnext _ _ rfl (hsound.admitsRun_openFrame (.inr hmode) hctx)⟩
  have hopen : (st.without gone).openFrame ctx.run .shadow [] (ctx.env.without gone) =
      ((st.openFrame ctx.run .shadow [] ctx.env).1.without gone,
        (st.openFrame ctx.run .shadow [] ctx.env).2.without gone) :=
    Store.openFrame_without [] hsound.size_notMem
  simp only [Context.without, hopen]

/-! ## Programs -/

/-- Whether everything that runs with this fuel does the same without the frames that are gone. -/
structure MatchedBy (G : Guard gone) (fuel : Nat) : Prop where
  expr : ∀ {st ctx} e, G.AdmitsRun st ctx →
    Matches G st (Walk.expr fuel ctx e) (Walk.expr fuel (ctx.without gone) e)
  exprs : ∀ {st ctx} es, G.AdmitsRun st ctx →
    Matches G st (Walk.exprs fuel ctx es) (Walk.exprs fuel (ctx.without gone) es)
  call : ∀ {st} mode {callee args}, G.AdmitsAll st callee → G.AdmitsAll st args →
    Matches G st (Walk.call fuel mode callee args)
      (Walk.call fuel mode (callee.without gone) (Value.allWithout gone args))
  apply : ∀ {st} mode {callable args}, G.AdmitsAll st callable → G.AdmitsAll st args →
    Matches G st (Walk.apply fuel mode callable args)
      (Walk.apply fuel mode (callable.without gone) (Value.allWithout gone args))
  quantify : ∀ {st} mode quantifier {callable items}, G.AdmitsAll st callable →
    G.AdmitsAll st items → Matches G st (Walk.quantify fuel mode quantifier callable items)
      (Walk.quantify fuel mode quantifier (callable.without gone) (Value.allWithout gone items))
  code : ∀ {st ctx} code, G.AdmitsRun st ctx →
    Matches G st (Walk.code fuel ctx code) (Walk.code fuel (ctx.without gone) code)
  statement : ∀ {st ctx} s, G.AdmitsRun st ctx →
    Matches G st (Walk.statement fuel ctx s) (Walk.statement fuel (ctx.without gone) s)
  optional : ∀ {st ctx} e?, G.AdmitsRun st ctx →
    Matches G st (Walk.optional fuel ctx e?) (Walk.optional fuel (ctx.without gone) e?)
  truth : ∀ {st ctx} e, G.AdmitsRun st ctx →
    Matches G st (Walk.truth fuel ctx e) (Walk.truth fuel (ctx.without gone) e)
  statements : ∀ {st ctx} ss, G.AdmitsRun st ctx →
    Matches G st (Walk.statements fuel ctx ss) (Walk.statements fuel (ctx.without gone) ss)
  rounds : ∀ {st ctx} condition iterator body, G.AdmitsRun st ctx →
    Matches G st (Walk.rounds fuel ctx condition iterator body)
      (Walk.rounds fuel (ctx.without gone) condition iterator body)
  oneRound : ∀ {st ctx} body, G.AdmitsRun st ctx →
    Matches G st (Walk.oneRound fuel ctx body) (Walk.oneRound fuel (ctx.without gone) body)

section

variable {fuel : Nat} (ih : MatchedBy G fuel)
include ih

private theorem matches_expr (hctx : G.AdmitsRun st ctx) (e : Expr) :
    Matches G st (expr (fuel + 1) ctx e) (expr (fuel + 1) (ctx.without gone) e) := by
  have hmode : (ctx.without gone).mode = ctx.mode := rfl
  cases e with
  | placeholder =>
    simp only [expr, hmode]
    split
    · exact matches_fail
    · exact matches_null
  | name => exact matches_name hctx.1
  | typeName | number | boolean | string | null => exact matches_pureData rfl
  | unary _ op operand => exact (ih.expr operand hctx).bind fun _ _ _ hv => matches_unary hv
  | ternary _ condition whenTrue whenFalse =>
    refine (ih.expr condition hctx).bind fun v st₁ hprec₁ hv =>
      matches_withSnapshot hv fun u st₂ hprec₂ _ => ?_
    rw [Value.requireBoolean_without]
    have hctx₂ := (hctx.mono hprec₁).mono hprec₂
    cases u.requireBoolean with
    | error e => exact matches_fail
    | ok b =>
      cases b
      · exact ih.expr whenFalse hctx₂
      · exact ih.expr whenTrue hctx₂
  | lambda | function => exact matches_makeClosure hctx.1
  | binary _ op left right =>
    refine (ih.expr left hctx).bind fun l st₁ hprec₁ hl => ?_
    have hctx₁ := hctx.mono hprec₁
    split
    · exact matches_member hl
    · exact (ih.exprs right.arguments hctx₁).bind fun args st₂ hprec₂ hargs =>
        ih.call ctx.mode (hl.mono hprec₂) hargs
    · exact ih.expr right hctx₁
    · exact (ih.expr right hctx₁).bind fun r st₂ hprec₂ hr => matches_binary (hl.mono hprec₂) hr

private theorem matches_apply {callable : Callable} (hcallable : G.AdmitsAll st callable)
    (hargs : G.AdmitsAll st args) : Matches G st (apply (fuel + 1) mode callable args)
      (apply (fuel + 1) mode (callable.without gone) (Value.allWithout gone args)) := by
  cases callable with
  | text receiver function =>
    refine matches_readThen ?_
    rw [snapshots_without, Value.textFunction_without]
    exact matches_data fun u hu => Value.isData_of_textFunction hu
  | holds items => exact matches_holds
  | quantifier quantifier items =>
    exact (matches_predicate hargs).bind fun callable st₁ hprec₁ h =>
      ih.quantify mode quantifier h (hcallable.mono hprec₁ : G.AdmitsAll st₁ items)
  | closure closure =>
    have hclosure : G.Admits st closure.context := hcallable closure (List.mem_singleton.2 rfl)
    simp only [apply, Callable.without]
    rw [show (closure.without gone).context.mode = closure.context.mode from rfl]
    -- a function is called in the mode in which it was made, or not at all
    split
    · exact matches_fail
    · exact matches_fail
    · exact matches_enter hclosure hargs fun ctx st₁ _ hctx =>
        matches_settle (ih.code closure.body hctx)
    · next hmode =>
      refine matches_enter hclosure hargs fun ctx st₁ hsame hctx => ?_
      refine matches_behindShadow (by simp [hsame, hmode]) hctx.1 fun ctx' st₂ _ hctx' => ?_
      exact matches_settleSpeculative (ih.code closure.body hctx')
  | recorder => exact matches_record hargs

private theorem matches_loop (hctx : G.AdmitsRun st ctx) (condition : Option Expr)
    (iterator : Option Statement) (body : Statement) :
    Matches G st (loop fuel ctx condition iterator body)
      (loop fuel (ctx.without gone) condition iterator body) := by
  have hmode : (ctx.without gone).mode = ctx.mode := rfl
  unfold loop
  rw [hmode]
  split
  · exact ih.rounds condition iterator body hctx
  · exact ih.oneRound body hctx

private theorem matches_statement (hctx : G.AdmitsRun st ctx) (s : Statement) :
    Matches G st (statement (fuel + 1) ctx s) (statement (fuel + 1) (ctx.without gone) s) := by
  cases s with
  | expression _ e => exact ih.expr e hctx
  | assign _ op target value =>
    refine (ih.expr target hctx).bind fun t st₁ hprec₁ ht =>
      (ih.expr value (hctx.mono hprec₁)).bind fun v st₂ hprec₂ hv => ?_
    dsimp only
    split
    · exact (matches_binary (ht.mono hprec₂) hv).bind fun w st₃ _ hw =>
        (matches_assign hw).bind fun _ _ _ _ => matches_null
    · exact (matches_assign hv).bind fun _ _ _ _ => matches_null
  | declare _ name initializer =>
    exact (ih.optional initializer hctx).bind fun v st₁ hprec₁ hv =>
      (matches_declare (hctx.mono hprec₁) hv).bind fun _ _ _ _ => matches_null
  | leave _ value =>
    exact (ih.optional value hctx).bind fun v st₁ _ hv =>
      matches_withSnapshot hv fun u st₂ _ hu => matches_raise (s := .leave u) hu
  | breakLoop => exact matches_raise (s := .breakLoop) (List.forall_mem_nil _)
  | continueLoop => exact matches_raise (s := .continueLoop) (List.forall_mem_nil _)
  | block _ body => exact ih.statements body hctx
  | branch _ condition whenTrue whenFalse =>
    refine (ih.truth condition hctx).bind fun b st₁ hprec₁ _ => ?_
    have hctx₁ := hctx.mono hprec₁
    cases b with
    | true => exact (ih.statement whenTrue hctx₁).bind fun _ _ _ _ => matches_null
    | false =>
      cases whenFalse with
      | none => exact matches_null
      | some s => exact (ih.statement s hctx₁).bind fun _ _ _ _ => matches_null
  | forLoop _ initializer condition iterator body =>
    cases initializer with
    | none => exact matches_loop ih hctx condition iterator body
    | some s =>
      exact (ih.statement s hctx).bind fun _ _ hprec _ =>
        matches_loop ih (hctx.mono hprec) condition iterator body
  | whileLoop _ condition body => exact matches_loop ih hctx (some condition) none body
  | empty => exact matches_null

private theorem matches_rounds (hctx : G.AdmitsRun st ctx) (condition : Option Expr)
    (iterator : Option Statement) (body : Statement) :
    Matches G st (rounds (fuel + 1) ctx condition iterator body)
      (rounds (fuel + 1) (ctx.without gone) condition iterator body) := by
  have hrest {st : Store} (hctx : G.AdmitsRun st ctx) : Matches G st
      (nextRound fuel ctx condition iterator body)
      (nextRound fuel (ctx.without gone) condition iterator body) := by
    cases iterator with
    | none => exact ih.rounds condition none body hctx
    | some s =>
      exact (ih.statement s hctx).bind fun _ _ hprec _ =>
        ih.rounds condition (some s) body (hctx.mono hprec)
  -- what follows the condition, which is true if there is none
  have hround {st : Store} (hctx : G.AdmitsRun st ctx) (b : Bool) : Matches G st
      (round fuel ctx condition iterator body b)
      (round fuel (ctx.without gone) condition iterator body b) := by
    cases b with
    | false => exact matches_null
    | true =>
      refine (ih.statement body hctx).attempt.bind fun r st₁ hprec₁ hr => ?_
      have hrest₁ := hrest (hctx.mono hprec₁)
      cases r with
      | ok v => exact hrest₁
      | error s =>
        cases s with
        | breakLoop => exact matches_null
        | continueLoop => exact hrest₁
        | leave | suggest | fail => exact matches_raise hr
  cases condition with
  | none =>
    rw [rounds_none, rounds_none]
    exact hround hctx true
  | some e =>
    rw [rounds_some, rounds_some]
    exact (ih.truth e hctx).bind fun b _ hprec _ => hround (hctx.mono hprec) b

end

/-- Every part of a program does the same without the frames that are gone. -/
theorem matched (G : Guard gone) : ∀ fuel, MatchedBy G fuel := by
  intro fuel
  induction fuel with
  | zero => -- nothing is run any more, with the frames or without them
    constructor <;> intros <;> exact matches_cutOff
  | succ fuel ih =>
    constructor
    case expr => exact fun e hctx => matches_expr ih hctx e
    case exprs =>
      intro st ctx es hctx
      cases es with
      | nil => exact matches_pure (a := ([] : List Value)) (List.forall_mem_nil _)
      | cons e rest =>
        exact (ih.expr e hctx).bind fun v st₁ hprec₁ hv =>
          (ih.exprs rest (hctx.mono hprec₁)).bind fun vs st₂ hprec₂ hvs =>
            matches_pure (a := v :: vs) (admitsAll_cons.2 ⟨hv.mono hprec₂, hvs⟩)
    case call =>
      intro st mode callee args hcallee hargs
      refine matches_withSnapshot hcallee fun u st₁ hprec₁ hu => ?_
      have hargs₁ := hargs.mono hprec₁
      cases u with
      | function id callable => exact ih.apply mode hu hargs₁
      | constructor type => exact matches_convert hargs₁
      | fileConstructor files => exact matches_findFile hargs₁
      | list | boolean | number | string | null | stringList | file | cell => exact matches_fail
    case apply =>
      intro st mode callable args hcallable hargs
      exact matches_apply ih hcallable hargs
    case quantify =>
      intro st mode quantifier callable items hcallable hitems
      cases items with
      | nil => exact matches_pureData rfl
      | cons item rest =>
        obtain ⟨hitem, hrest⟩ := admitsAll_cons.1 hitems
        have hitem : G.AdmitsAll st [item] := admitsAll_cons.2 ⟨hitem, List.forall_mem_nil _⟩
        -- the predicate runs as a program, so the items that are left are seen in a later store
        refine (ih.apply mode hcallable hitem).bind fun answer st₁ hprec₁ hanswer =>
          (matches_predicateAnswer hanswer).bind fun b st₂ hprec₂ _ => ?_
        change Matches G st₂ (if _ then _ else _) (if b == quantifier.decisive then _ else _)
        split
        · exact matches_pureData rfl
        · exact ih.quantify mode quantifier ((hcallable.mono hprec₁).mono hprec₂)
            ((hrest.mono hprec₁).mono hprec₂)
    case code =>
      intro st ctx code hctx
      cases code with
      | expression e => exact ih.expr e hctx
      | statement s => exact ih.statement s hctx
    case statement => exact fun s hctx => matches_statement ih hctx s
    case optional =>
      intro st ctx e? hctx
      cases e? with
      | none => exact matches_null
      | some e => exact ih.expr e hctx
    case truth =>
      intro st ctx e hctx
      refine (ih.expr e hctx).bind fun v st₁ _ hv => matches_withSnapshot hv fun u st₂ _ _ => ?_
      rw [Value.toBoolean_without]
      cases u.toBoolean with
      | error e => exact matches_fail
      | ok b => exact matches_pure (a := b) (List.forall_mem_nil _)
    case statements =>
      intro st ctx ss hctx
      cases ss with
      | nil => exact matches_null
      | cons s rest =>
        exact (ih.statement s hctx).bind fun _ _ hprec _ => ih.statements rest (hctx.mono hprec)
    case rounds =>
      exact fun condition iterator body hctx => matches_rounds ih hctx condition iterator body
    case oneRound =>
      refine fun body hctx => (ih.statement body hctx).attempt.bind fun r st₁ _ hr => ?_
      cases r with
      | ok v => exact matches_null
      | error s =>
        cases s with
        | breakLoop | continueLoop => exact matches_null
        | leave | suggest | fail => exact matches_raise hr

end Walk

end SearchScript
