import SearchScript.Proofs.Run.Pursuit.Steps

/-!
# Programs are pursued

The speculative run pursues the real one through calls of functions, loops and all else, by
induction on the steps that are left.

## Key results

- `Walk.pursues_closure`: a call of a function of the program
- `Walk.pursued`: each part of a program
- `Code.pursues`: the whole program
-/

namespace SearchScript

open Tandem

namespace Watched

variable {α β : Type}

theorem pure_apply (a : α) (st : Store) : (pure a : Watched α) st = ([], some (.ok a, st)) := rfl

theorem pure_bind (a : α) (next : α → Watched β) : (pure a >>= next) = next a := by
  funext st
  rw [Pursues.events_bind, pure_apply]
  simp

/-- A step that ends with a value and notes nothing. -/
theorem lift_bind_of_ok {step : Run α} {next : α → Watched β} {st st' : Store} {a : α}
    (h : step st = some (.ok a, st')) : (lift step >>= next) st = next a st' := by
  rw [Pursues.events_bind]
  simp only [lift, h, List.nil_append]

end Watched

/-- A call of a function in a real run, from where its body begins. -/
theorem Watch.apply_closure {fuel : Nat} {ctx ctx' : Context} {params : List String} {body : Code}
    {args : List Value} {st st₁ : Store} (hmode : ctx.mode = .real)
    (h : Walk.enter ⟨ctx, params, body⟩ args st = some (.ok ctx', st₁)) :
    Watch.apply (fuel + 1) (.closure ⟨ctx, params, body⟩) args st =
      match Watch.code fuel st.slots.size ctx' body st₁ with
      | (events, none) => (.call :: events, none)
      | (events, some (r, st₂)) =>
        let answer := (Walk.realOutcome r).map st₂.snapshot
        (.call :: events ++ if answer.toOption.any (·.isMadeSince st.tables.size) then
          [.handedOut] else [], some (answer.mapError .fail, st₂)) := by
  have hnote : ∀ {α : Type} (next : Unit → Watched α) st, (Watched.note .call >>= next) st =
      (.call :: (next () st).1, (next () st).2) := fun _ _ => rfl
  simp only [Watch.apply, hmode]
  rw [hnote, Watched.lift_bind_of_ok rfl, Watched.lift_bind_of_ok rfl, Watched.lift_bind_of_ok h]
  simp only [settle, Pursues.events_bind, Watched.attempt]
  rcases Watch.code fuel st.slots.size ctx' body st₁ with ⟨events, _ | ⟨r, st₂⟩⟩
  · rfl
  · simp only [Option.map_some]
    cases Walk.realOutcome r with
    | error e => simp [Watched.lift, Run.ofAnswer, Run.fail, Run.raise, Except.map, Except.mapError,
        Except.toOption]
    | ok v =>
      cases hmade : (st₂.snapshot v).isMadeSince st.tables.size <;>
        simp [Watched.lift, Watched.noteIf, Watched.pure_apply, Run.ofAnswer, Run.pure,
          Run.snapshot, Run.read, Except.map, Except.mapError, Except.toOption, hmade]

/-- What a call answers is alike in both runs, if the real one does not hand out a function made in
it. A jump out of a function is an error of real runs only. -/
theorem Tandem.answer_alike {S : Setting} {L : List Activation} {W : List Copy} {act : Activation}
    {σ : Store} {r r' : Except Signal Value}
    (h : EndsAlike S (L ++ [act]) (Image S (L ++ [act]) W) r r')
    (hmade : ((Walk.realOutcome r).map σ.snapshot).toOption.any
      (·.isMadeSince (act.level.realTable S)) = false) :
    Excused (((Walk.realOutcome r).map σ.snapshot).mapError Signal.fail) ∨
      EndsAlike S L (Image S L (retire S L σ act W))
        (((Walk.realOutcome r).map σ.snapshot).mapError .fail) (Code.speculativeOutcome r') := by
  rcases r with s | v <;> rcases r' with s' | w
  · cases s <;> cases s' <;> try exact h.elim
    · exact .inr (Image.exit (.inl h) hmade)
    · exact .inl ⟨_, rfl, rfl⟩
    · exact .inl ⟨_, rfl, rfl⟩
    · exact .inr h
  · exact h.elim
  · exact h.elim
  · exact .inr (Image.exit h hmade)

namespace Walk

open Pursues

/-! ## Calls -/

/-- The context of a call, and the store in which its body begins. -/
theorem enter_eq {ctx : Context} {params : List String} {body : Code} {args : List Value}
    {st : Store} (hargs : ∀ arg ∈ args, st.Knows arg) :
    ∃ st', enter ⟨ctx, params, body⟩ args st =
        some (.ok ⟨ctx.mode, ctx.run, ⟨⟨.scope, st.tables.size⟩ :: ctx.env.frames, ctx.env.host⟩⟩,
          st') ∧
      st'.slots = st.slots ++ (st.paramValues params args).toArray ∧ st'.hosts = st.hosts ∧
        st'.tables = st.tables.push (st.bindParams [] params args).1 := by
  have hparams := @Store.bindParams_snd st params args [] hargs
  refine ⟨((st.bindParams [] params args).2.openFrame ctx.run .scope
    (st.bindParams [] params args).1 ctx.env).2, ?_, ?_, ?_, ?_⟩
  · simp only [enter, Run.update, Store.openFrame_fst, hparams]
  all_goals simp [hparams]

theorem behindShadow_eq {ctx : Context} {st : Store} :
    ∃ st', behindShadow ctx st =
        some (.ok ⟨ctx.mode, ctx.run, ⟨⟨.shadow, st.tables.size⟩ :: ctx.env.frames, ctx.env.host⟩⟩,
          st') ∧
      st'.slots = st.slots ∧ st'.hosts = st.hosts ∧ st'.tables = st.tables.push [] := by
  refine ⟨(st.openFrame ctx.run .shadow [] ctx.env).2, ?_, ?_, ?_, ?_⟩
  · simp only [behindShadow, Run.update, Store.openFrame_fst]
  all_goals simp

variable {S : Setting} {L : List Activation} {W : List Copy} {v w : Value} {depth fuel : Nat}
  {act : Activation} {vs ws : List Value}

/-- A call begins one activation in both runs, and its body is pursued in it. What it answers is
handed out, unless it is a function that was made in the call. -/
theorem pursues_closure {params : List String} {body : Code}
    (hbody : ∀ L W depth act, Innermost L depth act →
      Pursues S L W (Image S L) (Watch.code fuel act.first (S.realContext act.level) body)
        (code fuel (S.shadowContext act.level) body))
    (hact : act ∈ L) (hargs : List.Forall₂ (Image S L W) vs ws) :
    Pursues S L W (Image S L)
      (Watch.apply (fuel + 1) (.closure ⟨S.realContext act.level, params, body⟩) vs)
      (apply (fuel + 1) (.speculative S.cursor) (.closure ⟨S.shadowContext act.level, params, body⟩)
        ws) := by
  obtain ⟨depth, hdepth, hget⟩ := List.mem_iff_getElem.1 hact
  have hget : L[depth]? = some act := by rw [List.getElem?_eq_getElem hdepth, hget]
  intro W₁ σ τ hW ht
  have hargs := hargs.imp fun _ _ h => h.mono hW
  obtain ⟨hknows, hknows'⟩ := ht.knowsAll hargs
  -- both runs open the frames of the call
  obtain ⟨σ₁, hσ, hσslots, hσhosts, hσtables⟩ := @enter_eq (S.realContext act.level) params body vs
    σ hknows
  obtain ⟨τ₀, hτ₀, hτslots₀, hτhosts₀, hτtables₀⟩ := @enter_eq (S.shadowContext act.level) params
    body ws τ hknows'
  obtain ⟨τ₁, hτ₁, hτslots₁, hτhosts₁, hτtables₁⟩ := @behindShadow_eq
    ⟨.speculative S.cursor, S.run, ⟨⟨.scope, τ.tables.size⟩ :: act.level.shadowFrames S, S.host⟩⟩ τ₀
  have hsize : τ₀.tables.size = τ.tables.size + 1 := by simp [hτtables₀]
  rw [hsize] at hτ₁
  have hσ : enter ⟨S.realContext act.level, params, body⟩ vs σ =
      some (.ok (S.realContext (begun σ τ act.level).level), σ₁) := hσ
  have hτ : apply (fuel + 1) (.speculative S.cursor)
      (.closure ⟨S.shadowContext act.level, params, body⟩) ws τ =
        settleSpeculative (code fuel (S.shadowContext (begun σ τ act.level).level) body) τ₁ := by
    simp only [apply, Setting.shadowContext]
    exact (Run.bind_of_ok hτ₀).trans (Run.bind_of_ok hτ₁)
  have hbegun := ht.enter hget hargs hσslots hσhosts hσtables (hτslots₁.trans hτslots₀)
    (hτhosts₁.trans hτhosts₀) (by rw [hτtables₁, hτtables₀])
  have hinner := hbody _ _ L.length (begun σ τ act.level) ⟨by simp, by simp⟩ (List.prefix_refl _)
    hbegun
  have hfirst : (begun σ τ act.level).first = σ.slots.size := rfl
  rw [hfirst] at hinner
  rw [Watch.apply_closure rfl hσ, hτ]
  rcases hinner with ⟨hbeyond, found, τ₂, hcode⟩ | ⟨hcomes, hend⟩
  · exact .inl ⟨hbeyond, found, τ₂, Code.settleSpeculative_eq hcode⟩
  generalize Watch.code fuel σ.slots.size (S.realContext (begun σ τ act.level).level) body σ₁ = p
    at hcomes hend ⊢
  have hcall : ∀ {events}, ¬Comes S.cursor events → ¬Comes S.cursor (.call :: events) :=
    fun hcomes h => h.elim id fun h => hcomes h.2
  obtain ⟨events, _ | ⟨r, σ₂⟩⟩ := p
  · refine .inr ⟨hcall hcomes, hend.imp ?_ fun _ r σ' hr => by cases hr⟩
    rintro ⟨event, hmem, h⟩
    exact ⟨event, List.mem_cons_of_mem _ hmem, h⟩
  by_cases hdeparts : ∃ event ∈ events, event.departs = true
  · obtain ⟨event, hmem, h⟩ := hdeparts
    exact .inr ((departed_append (hcall hcomes) ⟨event, List.mem_cons_of_mem _ hmem, h⟩).imp_right
      .inl)
  by_cases hmade : (((realOutcome r).map σ₂.snapshot).toOption.any
      (·.isMadeSince σ.tables.size)) = true
  · -- the function that is handed out would still see the shadow of the call
    simp only [hmade, if_true]
    refine .inr ⟨fun h => ?_, .inl ⟨.handedOut, by simp, rfl⟩⟩
    rcases comes_append.1 h with h | ⟨-, h | ⟨-, h⟩⟩
    · exact hcall hcomes h
    · exact h
    · exact h
  · simp only [hmade, Bool.false_eq_true, if_false, List.append_nil]
    refine .inr ⟨hcall hcomes, .inr fun r₁ σ' hr => ?_⟩
    cases hr
    rcases (hend.resolve_left hdeparts) rfl with ⟨e, rfl, hreal⟩ | ⟨r', τ₂, W₂, hcode, hW₂, ht₂, halike⟩
    · exact .inl ⟨e, rfl, hreal⟩
    · refine (answer_alike halike (Bool.eq_false_iff.2 hmade)).imp_right fun halike => ?_
      have hL : L ≠ [] := List.ne_nil_of_mem hact
      exact ⟨_, τ₂, _, Code.settleSpeculative_eq hcode,
        prefix_retire ((List.prefix_append W₁ _).trans hW₂) ht.ledger.owned, ht₂.exit hL, halike⟩

/-! ## The induction on the steps that are left -/

/-- Whether everything that runs for real with this fuel is pursued by the speculative run. -/
structure Pursued (S : Setting) (fuel : Nat) : Prop where
  expr : ∀ L W depth act e, Innermost L depth act → S.Plain e.nodes →
    Pursues S L W (Image S L) (Watch.expr fuel act.first (S.realContext act.level) e)
      (Walk.expr fuel (S.shadowContext act.level) e)
  exprs : ∀ L W depth act es, Innermost L depth act → (∀ e ∈ es, S.Plain e.nodes) →
    Pursues S L W (fun W' => List.Forall₂ (Image S L W'))
      (Watch.exprs fuel act.first (S.realContext act.level) es)
      (Walk.exprs fuel (S.shadowContext act.level) es)
  call : ∀ L W v w vs ws, Image S L W v w → List.Forall₂ (Image S L W) vs ws →
    Pursues S L W (Image S L) (Watch.call fuel v vs) (Walk.call fuel (.speculative S.cursor) w ws)
  apply : ∀ L W callable callable' vs ws, SameCallable S L callable callable' →
    List.Forall₂ (Image S L W) vs ws →
    Pursues S L W (Image S L) (Watch.apply fuel callable vs)
      (Walk.apply fuel (.speculative S.cursor) callable' ws)
  quantify : ∀ L W quantifier callable callable' items, SameCallable S L callable callable' →
    Value.allData items = true →
    Pursues S L W (Image S L) (Watch.quantify fuel quantifier callable items)
      (Walk.quantify fuel (.speculative S.cursor) quantifier callable' items)
  code : ∀ L W depth act code, Innermost L depth act → S.Plain code.nodes →
    Pursues S L W (Image S L) (Watch.code fuel act.first (S.realContext act.level) code)
      (Walk.code fuel (S.shadowContext act.level) code)
  statement : ∀ L W depth act s, Innermost L depth act → S.Plain s.nodes →
    Pursues S L W (Image S L) (Watch.statement fuel act.first (S.realContext act.level) s)
      (Walk.statement fuel (S.shadowContext act.level) s)
  optional : ∀ L W depth act e?, Innermost L depth act → S.Plain (Expr.optionNodes e?) →
    Pursues S L W (Image S L) (Watch.optional fuel act.first (S.realContext act.level) e?)
      (Walk.optional fuel (S.shadowContext act.level) e?)
  truth : ∀ L W depth act e, Innermost L depth act → S.Plain e.nodes →
    Pursues S L W (fun _ a b => a = b)
      (Watch.truth fuel act.first (S.realContext act.level) e)
      (Walk.truth fuel (S.shadowContext act.level) e)
  statements : ∀ L W depth act ss, Innermost L depth act → S.Plain (Statement.listNodes ss) →
    Pursues S L W (Image S L) (Watch.statements fuel act.first (S.realContext act.level) ss)
      (Walk.statements fuel (S.shadowContext act.level) ss)
  rounds : ∀ L W depth act condition iterator body, Innermost L depth act → S.Plain body.nodes →
    Pursues S L W (Image S L)
      (Watch.rounds fuel act.first (S.realContext act.level) true condition iterator body)
      (Walk.oneRound fuel (S.shadowContext act.level) body)

/-- After the body of a loop was run once, the speculative run goes past the loop. So does the real
one if the condition does not hold again. -/
theorem pursues_past {since : Nat} {level : Level} {condition : Option Expr}
    {iterator : Option Statement} {body : Statement} :
    Pursues S L W (Image S L)
      (Watch.rounds fuel since (S.realContext level) false condition iterator body)
      (Pure.pure .null) := by
  cases fuel with
  | zero => exact cutOff
  | succ fuel =>
    cases condition with
    | none =>
      simp only [Watch.rounds, Watched.pure_bind, if_true]
      exact @departure _ _ S L W _ .repeated _ _ id rfl
    | some e =>
      refine header_bind (Watch.idle_truth fuel since level e) fun goesOn => ?_
      cases goesOn with
      | true => exact @departure _ _ S L W _ .repeated _ _ id rfl
      | false => exact pure fun _ _ => .of_isData rfl

section

variable (ih : Pursued S fuel)
include ih

private theorem pursues_expr (hact : Innermost L depth act) {e : Expr} (he : S.Plain e.nodes) :
    Pursues S L W (Image S L) (Watch.expr (fuel + 1) act.first (S.realContext act.level) e)
      (expr (fuel + 1) (S.shadowContext act.level) e) := by
  have hnode := he (.expression e) (by unfold Expr.nodes; simp)
  have hmem := List.mem_of_getElem? hact.get
  cases e with
  | placeholder => simp [Code.isPlaceholder] at hnode
  | name span text =>
    exact noteIf_bind id rfl fun hname => pursues_name hact (by simpa using hname) hnode.2
  | typeName | number | boolean | string | null => exact lift_pure fun _ _ => .of_isData rfl
  | lambda _ params body =>
    simp only [Expr.nodes, Setting.plain_cons] at he
    exact pursues_newFunction (.closure hmem params he.2)
  | function _ params body =>
    simp only [Expr.nodes, Setting.plain_cons] at he
    exact pursues_newFunction (.closure hmem params he.2)
  | unary _ op operand =>
    simp only [Expr.nodes, Setting.plain_cons] at he
    exact (ih.expr L W depth act operand hact he.2).bind fun W' _ v w hv => pursues_unary hv
  | ternary _ condition whenTrue whenFalse =>
    simp only [Expr.nodes, Setting.plain_cons, Setting.plain_append] at he
    refine (ih.expr L W depth act condition hact he.2.1).bind fun W₁ _ v w hv =>
      (snapshot hv).bind fun W₂ _ u u' hu =>
        (pursues_requireBoolean hu).bind fun W₃ _ a b hab => ?_
    subst hab
    cases a
    · exact ih.expr L W₃ depth act whenFalse hact he.2.2.2
    · exact ih.expr L W₃ depth act whenTrue hact he.2.2.1
  | binary _ op left right =>
    simp only [Expr.nodes, Setting.plain_cons, Setting.plain_append] at he
    have hright := (he.2.2 (.expression right) (by unfold Expr.nodes; simp)).2
    refine (ih.expr L W depth act left hact he.2.1).bind fun W₁ _ l l' hl => ?_
    cases op with
    | member => exact pursues_member hl hright
    | call =>
      -- the trail may grow while the arguments are evaluated, and the callee still stands for the
      -- same
      refine (ih.exprs L W₁ depth act right.arguments hact fun arg harg node hnode =>
        he.2.2 node (nodes_subset_of_mem_arguments harg hnode)).bind fun W₂ hW vs ws hargs => ?_
      exact ih.call L W₂ l l' vs ws (hl.mono hW) hargs
    | group => exact ih.expr L W₁ depth act right hact he.2.2
    | _ =>
      exact (ih.expr L W₁ depth act right hact he.2.2).bind fun W₂ hW r r' hr =>
        pursues_binary (hl.mono hW) hr

private theorem pursues_exprs (hact : Innermost L depth act) {es : List Expr}
    (hes : ∀ e ∈ es, S.Plain e.nodes) :
    Pursues S L W (fun W' => List.Forall₂ (Image S L W'))
      (Watch.exprs (fuel + 1) act.first (S.realContext act.level) es)
      (exprs (fuel + 1) (S.shadowContext act.level) es) := by
  cases es with
  | nil => exact pure fun _ _ => .nil
  | cons e rest =>
    obtain ⟨he, hrest⟩ := List.forall_mem_cons.1 hes
    refine (ih.expr L W depth act e hact he).bind fun W₁ _ v w hv =>
      (ih.exprs L W₁ depth act rest hact hrest).bind fun W₂ hW vs ws hvs => pure fun W₃ hW' => ?_
    exact .cons (hv.mono (hW.trans hW')) (hvs.imp fun _ _ h => h.mono hW')

private theorem pursues_call (hv : Image S L W v w) (hargs : List.Forall₂ (Image S L W) vs ws) :
    Pursues S L W (Image S L) (Watch.call (fuel + 1) v vs)
      (call (fuel + 1) (.speculative S.cursor) w ws) := by
  refine (snapshot hv).bind fun W' hW u u' hu => ?_
  have hargs' : List.Forall₂ (Image S L W') vs ws := hargs.imp fun _ _ h => h.mono hW
  cases hu with
  | function _ _ h => exact ih.apply L W' _ _ vs ws h hargs'
  | data hu =>
    cases u with
    | constructor type => exact pursues_convert hargs'
    | function | fileConstructor => cases hu
    | _ => exact fail

private theorem pursues_apply {callable callable' : Callable}
    (h : SameCallable S L callable callable') (hargs : List.Forall₂ (Image S L W) vs ws) :
    Pursues S L W (Image S L) (Watch.apply (fuel + 1) callable vs)
      (apply (fuel + 1) (.speculative S.cursor) callable' ws) := by
  cases h with
  | closure hact params hbody =>
    exact pursues_closure (fun L W depth act hact => ih.code L W depth act _ hact hbody) hact hargs
  | data hdata =>
    cases callable with
    | quantifier quantifier items =>
      refine (pursues_predicate hargs).bind fun W' _ f g hfg => ?_
      exact ih.quantify L W' quantifier f g items hfg hdata
    | closure | recorder => cases hdata
    | text | holds => exact pursues_apply_data hdata (by simp) hargs

private theorem pursues_quantify {quantifier : Quantifier} {callable callable' : Callable}
    {items : List Value} (h : SameCallable S L callable callable')
    (hitems : Value.allData items = true) :
    Pursues S L W (Image S L) (Watch.quantify (fuel + 1) quantifier callable items)
      (quantify (fuel + 1) (.speculative S.cursor) quantifier callable' items) := by
  cases items with
  | nil => exact pure fun _ _ => .of_isData rfl
  | cons item rest =>
    simp only [Value.allData, Bool.and_eq_true] at hitems
    refine (ih.apply L W callable callable' [item] [item] h (.cons (.of_isData hitems.1) .nil)).bind
      fun W₁ _ v w hv => (pursues_predicateAnswer hv).bind fun W₂ _ a b hab => ?_
    subst hab
    split
    · exact pure fun _ _ => .of_isData rfl
    · exact ih.quantify L W₂ quantifier callable callable' rest h hitems.2

private theorem pursues_statement (hact : Innermost L depth act) {s : Statement}
    (hs : S.Plain s.nodes) :
    Pursues S L W (Image S L) (Watch.statement (fuel + 1) act.first (S.realContext act.level) s)
      (statement (fuel + 1) (S.shadowContext act.level) s) := by
  cases s with
  | expression _ e =>
    simp only [Statement.nodes, Setting.plain_cons] at hs
    exact ih.expr L W depth act e hact hs.2
  | assign _ op target value =>
    simp only [Statement.nodes, Setting.plain_cons, Setting.plain_append] at hs
    refine (ih.expr L W depth act target hact hs.2.1).bind fun W₁ _ t t' ht =>
      (ih.expr L W₁ depth act value hact hs.2.2).bind fun W₂ hW v w hv => ?_
    dsimp only
    cases op.binaryOp? with
    | some op =>
      refine (pursues_binary (ht.mono hW) hv).bind fun W₃ hW' u u' hu => ?_
      exact (pursues_assign hact (ht.mono (hW.trans hW')) hu).bind fun _ _ _ _ _ =>
        pure fun _ _ => .of_isData rfl
    | none =>
      exact (pursues_assign hact (ht.mono hW) hv).bind fun _ _ _ _ _ =>
        pure fun _ _ => .of_isData rfl
  | declare _ name initializer =>
    simp only [Statement.nodes, Setting.plain_cons] at hs
    exact (ih.optional L W depth act initializer hact hs.2).bind fun W₁ _ v w hv =>
      (pursues_declare hact hv).bind fun _ _ _ _ _ => pure fun _ _ => .of_isData rfl
  | leave _ value =>
    simp only [Statement.nodes, Setting.plain_cons] at hs
    exact (ih.optional L W depth act value hact hs.2).bind fun W₁ _ v w hv =>
      (snapshot hv).bind fun _ _ u u' hu => raise hu
  | breakLoop => exact @raise _ _ S L W _ .breakLoop .breakLoop trivial
  | continueLoop => exact @raise _ _ S L W _ .continueLoop .continueLoop trivial
  | block _ body =>
    simp only [Statement.nodes, Setting.plain_cons] at hs
    exact ih.statements L W depth act body hact hs.2
  | branch _ condition whenTrue whenFalse =>
    simp only [Statement.nodes, Setting.plain_cons, Setting.plain_append] at hs
    refine (ih.truth L W depth act condition hact hs.2.1).bind fun W₁ _ a b hab => ?_
    subst hab
    cases a with
    | true =>
      exact (ih.statement L W₁ depth act whenTrue hact hs.2.2.1).bind fun _ _ _ _ _ =>
        pure fun _ _ => .of_isData rfl
    | false =>
      cases whenFalse with
      | none => exact pure fun _ _ => .of_isData rfl
      | some s =>
        exact (ih.statement L W₁ depth act s hact hs.2.2.2).bind fun _ _ _ _ _ =>
          pure fun _ _ => .of_isData rfl
  | forLoop _ initializer condition iterator body =>
    simp only [Statement.nodes, Setting.plain_cons, Setting.plain_append] at hs
    -- the rounds are followed from whatever trail the initializer leaves
    have hrounds := fun W =>
      ih.rounds L W depth act condition iterator body hact hs.2.2.2.2
    cases initializer with
    | some s => exact (ih.statement L W depth act s hact hs.2.1).bind fun W₁ _ _ _ _ => hrounds W₁
    | none =>
      exact hrounds W
  | whileLoop _ condition body =>
    simp only [Statement.nodes, Setting.plain_cons, Setting.plain_append] at hs
    exact ih.rounds L W depth act (some condition) none body hact hs.2.2
  | empty => exact lift_pure fun _ _ => .of_isData rfl

private theorem pursues_rounds (hact : Innermost L depth act) {condition : Option Expr}
    {iterator : Option Statement} {body : Statement} (hbody : S.Plain body.nodes) :
    Pursues S L W (Image S L)
      (Watch.rounds (fuel + 1) act.first (S.realContext act.level) true condition iterator body)
      (oneRound (fuel + 1) (S.shadowContext act.level) body) := by
  -- what follows the body is an iterator or the condition
  have hround : ∀ W, Pursues S L W (Image S L) (do
      Watched.noteIf (!true) .repeated
      let result ← Watched.attempt
        (Watch.statement fuel act.first (S.realContext act.level) body)
      Watch.afterBody result
        (Watch.nextRound fuel act.first (S.realContext act.level) condition iterator body))
      (oneRound (fuel + 1) (S.shadowContext act.level) body) := by
    intro W
    refine noteIf_bind id rfl fun _ =>
      Pursues.oneRound (ih.statement L W depth act body hact hbody) fun W' _ => ?_
    cases iterator with
    | some s => exact @departure _ _ S L W' _ .iterated _ _ id rfl
    | none => exact pursues_past
  cases condition with
  | none =>
    simp only [Watch.rounds, Watched.pure_bind, if_true]
    exact hround W
  | some e =>
    refine header_bind (Watch.idle_truth fuel act.first act.level e) fun goesOn => ?_
    cases goesOn with
    | true => exact hround W
    | false => exact @departure _ _ S L W _ .bodySkipped _ _ id rfl

end

/-- Each part of a program is pursued. -/
theorem pursued : ∀ fuel, Pursued S fuel := by
  intro fuel
  induction fuel with
  | zero => constructor <;> intros <;> exact cutOff
  | succ fuel ih =>
    constructor
    case expr => exact fun L W depth act e hact he => pursues_expr ih hact he
    case exprs => exact fun L W depth act es hact hes => pursues_exprs ih hact hes
    case call => exact fun L W v w vs ws hv hargs => pursues_call ih hv hargs
    case apply => exact fun L W f g vs ws h hargs => pursues_apply ih h hargs
    case quantify => exact fun L W q f g items h hitems => pursues_quantify ih h hitems
    case code =>
      intro L W depth act code hact hcode
      cases code with
      | expression e => exact ih.expr L W depth act e hact hcode
      | statement s => exact ih.statement L W depth act s hact hcode
    case statement => exact fun L W depth act s hact hs => pursues_statement ih hact hs
    case optional =>
      intro L W depth act e? hact he
      cases e? with
      | none => exact pure fun _ _ => .of_isData rfl
      | some e => exact ih.expr L W depth act e hact he
    case truth =>
      intro L W depth act e hact he
      exact (ih.expr L W depth act e hact he).bind fun W₁ _ v w hv =>
        (snapshot hv).bind fun W₂ _ u u' hu => pursues_toBoolean hu
    case statements =>
      intro L W depth act ss hact hss
      cases ss with
      | nil => exact pure fun _ _ => .of_isData rfl
      | cons s rest =>
        simp only [Statement.listNodes, Setting.plain_append] at hss
        exact (ih.statement L W depth act s hact hss.1).bind fun W₁ _ _ _ _ =>
          ih.statements L W₁ depth act rest hact hss.2
    case rounds =>
      exact fun L W depth act condition iterator body hact hbody => pursues_rounds ih hact hbody

end Walk

namespace Code

/-- The speculative run of a program behind its shadow pursues the watched run in its scope. -/
theorem pursues {S : Setting} {code : Code} (hcode : S.Plain code.nodes) (hrun : S.run = S.start.runs)
    (fuel : Nat) :
    (S.beyond = false ∧ ∃ found τ,
      speculate fuel ⟨.speculative S.cursor, S.start.runs, ⟨[], S.host⟩⟩ code S.start.beginRun.2 =
        some (.error (.suggest found), τ)) ∨
    ¬Comes S.cursor (code.events fuel ⟨[], S.host⟩ S.start) ∧
      ((∃ event ∈ code.events fuel ⟨[], S.host⟩ S.start, event.departs = true) ∨
        ∀ ⦃r σ⦄, (code.watch fuel ⟨[], S.host⟩ S.start).2 = some (r, σ) → Excused r ∨
          ∃ r' τ W, speculate fuel ⟨.speculative S.cursor, S.start.runs, ⟨[], S.host⟩⟩ code
              S.start.beginRun.2 = some (speculativeOutcome r', τ) ∧
            Tandem S [⟨.outermost, 0⟩] W σ τ ∧
              EndsAlike S [⟨.outermost, 0⟩] (Image S [⟨.outermost, 0⟩] W) r r') := by
  obtain ⟨start, host, run, cursor, beyond, hdata, honce⟩ := S
  obtain rfl : run = start.runs := hrun
  have hwatch : code.watch fuel ⟨[], host⟩ start = Watch.code fuel 0
      (Walk.realContext start host start.runs) code
      (start.beginRun.2.openFrame start.runs .scope [] ⟨[], host⟩).2 := by
    simp only [watch, Store.openFrame_fst]
    rfl
  rw [speculate_eq, events, hwatch]
  rcases (Walk.pursued fuel).code _ [] 0 ⟨.outermost, 0⟩ code ⟨rfl, rfl⟩ hcode
    (List.prefix_refl []) (Tandem.start _) with ⟨hbeyond, found, τ, h⟩ | ⟨hcomes, hend⟩
  · exact .inl ⟨hbeyond, found, τ, settleSpeculative_eq h⟩
  · refine .inr ⟨hcomes, hend.imp_right fun hend r σ hr => (hend hr).imp_right ?_⟩
    rintro ⟨r', τ, W, h, -, ht, halike⟩
    exact ⟨r', τ, W, settleSpeculative_eq h, ht, halike⟩

end Code

end SearchScript
