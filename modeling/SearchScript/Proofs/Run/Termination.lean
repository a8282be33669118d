import SearchScript.Proofs.Run.Agreement
import SearchScript.Proofs.Run.Depth
import SearchScript.Proofs.Run.Parts

/-!
# When completion ends

Looking for completions ends exactly if the calls in it nest within a bound. They do where the
speculative run goes in tandem with a real run that ends, and they do whenever the functions of the
program do not call functions of the program in turn.

There is no bound otherwise: a function that calls itself may be reached because the condition of a
loop is not looked at, and then no number of steps is enough.

## Key definitions

- `Code.CallsNestWithin`: a bound on how deep calls nest while completions are looked for
- `Code.isDirect`: a node that is no call of a function of the program

## Key results

- `Code.completionEnds_iff`: looking for completions ends exactly if its calls nest within a bound
- `Code.callsNestWithin_of_direct`: a bound for functions that call no functions of the program
- `Code.complete_terminates`: when looking for completions ends
-/

namespace SearchScript

namespace Code

/-- Whether a node, if it is a call, calls a type or a member that asks no predicate: no function
that the program makes. -/
def isDirect : Code → Bool
  | .expression (.binary _ .call (.typeName _ _) _) => true
  | .expression (.binary _ .call (.binary _ .member _ (.name _ member)) _) =>
    member != "some" && member != "every"
  | .expression (.binary _ .call _ _) => false
  | _ => true

end Code

/-- Whether a function runs no other one. -/
def Callable.isPlain : Callable → Bool
  | closure _ | quantifier _ _ => false
  | text _ _ | holds _ | recorder => true

namespace Walk

variable {R : Region} {st₀ : Store} {ctx : Context} {v : Value} {args : List Value}

/-! ## Direct calls -/

/-- Whether a value is no cell, and no function that runs another one. -/
def CallsNothing : Value → Prop
  | .cell _ => False
  | .function _ callable => callable.isPlain = true
  | _ => True

theorem callsNothing_of_isData (h : v.isData = true) : CallsNothing v := by
  cases v <;> trivial

/-- A member that asks no predicate runs no function. -/
theorem keeps_memberOf_direct {name : String} (hv : v.Within R)
    (hname : (name != "some" && name != "every") = true) :
    R.Keeps st₀ CallsNothing (memberOf v name) := by
  refine (keeps_snapshot hv).bind fun w hw => ?_
  refine (keeps_ofValue fun m hm => ?_ : R.Keeps st₀ (fun m => w.member? name = some m) _).bind
    fun m hm => ?_
  · unfold Value.memberOf at hm
    split at hm <;> cases hm
    assumption
  · rcases Value.isData_of_member? (Value.isData_of_member?_eq_some hw hm) hm with
      ⟨u, rfl, hu⟩ | ⟨callable, rfl, hc⟩
    · exact Run.keeps_pure (callsNothing_of_isData hu)
    · refine Run.keeps_update fun st h => ⟨?_, { h with }⟩
      cases callable with
      | quantifier quantifier items =>
        have hq := Value.eq_name_of_member?_eq_quantifier hm
        cases quantifier <;> simp [hq, Quantifier.name] at hname
      | text | holds => rfl
      | closure | recorder => cases hc

/-- Whether an expression that is called is a type or a member that asks no predicate. -/
theorem keeps_callee (hR : R.Fits st₀) (hctx : R.context ctx) {span : Span} {callee args : Expr}
    (hdirect : (Code.expression (.binary span .call callee args)).isDirect = true)
    (hcallee : R.Runs callee.nodes) (m : Nat) :
    R.Keeps st₀ CallsNothing (expr m ctx callee) := by
  cases m with
  | zero => exact Run.keeps_cutOff
  | succ m =>
    unfold Code.isDirect at hdirect
    split at hdirect
    case h_1 h =>
      cases h
      exact Run.keeps_pure trivial
    case h_2 left _ name _ h =>
      cases h
      simp only [Expr.nodes, Region.runs_cons, Region.runs_append] at hcallee
      -- the receiver stays in the region, and its member is one that calls nothing
      refine ((confined hR m).expr ctx left hctx hcallee.2.1).bind fun l hl => ?_
      show R.Keeps st₀ CallsNothing (member ctx l left (.name _ name))
      unfold member
      split
      · exact keeps_memberOf_direct hl hdirect
      · split
        · exact (keeps_snapshot hl).bind fun _ _ => Run.keeps_raise trivial
        · exact keeps_memberOf_direct hl hdirect
    case h_3 => cases hdirect
    case h_4 _ _ h => exact (h span callee args rfl).elim

/-! ## Depths of calls -/

/-- Whether a task runs no function that runs another one. -/
def Task.isPlain : Task → Bool
  | .apply _ callable _ => callable.isPlain
  | .quantify _ _ _ _ => false
  | _ => true

theorem isPlain_of_callsNothing {st : Store} {id : Nat} {callable : Callable}
    (hv : CallsNothing v) (h : st.snapshot v = .function id callable) :
    callable.isPlain = true := by
  cases v with
  | cell => exact hv.elim
  | function =>
    cases h
    exact hv
  | _ => cases h

section

variable {kind : Code → Prop} {start next : Task × Store} {mode : Mode} {callable : Callable}
  {item : Value} {items : List Value} {quantifier : Quantifier} {st : Store} (hR : R.Fits st₀)
include hR

/-- Where all calls are direct, a walk comes to no function that runs another one. -/
theorem Leads.isPlain (hkind : R.Covers kind) (hdirect : ∀ node, kind node → node.isDirect = true)
    (h : Leads start next) (hstart : start.1.Within R kind) (hst : R.Respects st₀ start.2)
    (hplain : start.1.isPlain = true) : next.1.isPlain = true := by
  cases h with
  | predicate | body | item | otherItems => cases hplain
  | callee hl _ hcallee =>
    obtain ⟨hctx, hnode⟩ := hstart
    have hruns := hkind.runs _ (hkind.parts _ hnode _
      (Code.mem_nodes_of_mem_children List.mem_cons_self))
    obtain ⟨-, hv⟩ := keeps_callee hR hctx (hdirect _ hnode) hruns _ hst hl
    exact isPlain_of_callsNothing hv hcallee
  | _ => rfl

/-- Where all calls are direct, no call runs a function in turn. -/
theorem nestsWithin_zero (hkind : R.Covers kind)
    (hdirect : ∀ node, kind node → node.isDirect = true) (hstart : start.1.Within R kind)
    (hst : R.Respects st₀ start.2) (hplain : start.1.isPlain = true) : NestsWithin 0 start := by
  intro entered stop hnests
  induction hnests with
  | here => exact Nat.le_refl 0
  | part _ hleads _ ih =>
    obtain ⟨hwithin, hst'⟩ := hleads.within hR hkind hstart hst
    exact ih hwithin hst' (hleads.isPlain hR hkind hdirect hstart hst hplain)
  | call hcall hleads => cases hleads <;> cases hcall <;> cases hplain

variable (hbodies : R.Covers R.body) (hdirect : ∀ node, R.body node → node.isDirect = true)
include hbodies hdirect

theorem nestsWithin_closure {closure : Closure} (hclosure : (Callable.closure closure).Within R)
    (hargs : ∀ v ∈ args, v.Within R) (hst : R.Respects st₀ st) :
    NestsWithin 1 (.apply mode (.closure closure) args, st) := by
  refine .of_call fun next hleads => ?_
  obtain ⟨hwithin, hst'⟩ := hleads.within hR hbodies ⟨hclosure, hargs⟩ hst
  refine nestsWithin_zero hR hbodies hdirect hwithin hst' ?_
  cases hleads with
  | body => cases closure.body <;> rfl

/-- A quantifier finds no predicate in data. -/
theorem nestsWithin_data (hcallable : callable.Within R) (hitem : item.isData = true)
    (hst : R.Respects st₀ st) : NestsWithin 1 (.apply mode callable [item], st) := by
  cases callable with
  | closure closure =>
    exact nestsWithin_closure hR hbodies hdirect hcallable
      (by simpa using Value.within_of_isData hitem) hst
  | text | holds | recorder => exact .of_call fun next hleads => nomatch hleads
  | quantifier quantifier items =>
    refine .of_call fun next hleads => ?_
    cases hleads with
    | predicate hpredicate =>
      obtain ⟨u, st₁, hread, hfunction⟩ := Run.of_bind_eq_ok hpredicate
      cases hread
      change Run.ofValue (st.snapshot item).requireFunction st = _ at hfunction
      rw [Store.snapshot_of_isData hitem] at hfunction
      cases item <;> cases hfunction
      cases hitem

theorem nestsWithin_quantify (hcallable : callable.Within R) (hitems : Value.allData items = true)
    (hst : R.Respects st₀ st) : NestsWithin 1 (.quantify mode quantifier callable items, st) := by
  induction items generalizing st with
  | nil => exact .of_parts rfl fun next hleads => nomatch hleads
  | cons item rest ih =>
    refine .of_parts rfl fun next hleads => ?_
    obtain ⟨hwithin, hst'⟩ := hleads.within hR hbodies ⟨hcallable, hitems⟩ hst
    simp only [Value.allData, Bool.and_eq_true] at hitems
    cases hleads with
    | item => exact nestsWithin_data hR hbodies hdirect hcallable hitems.1 hst
    | otherItems => exact ih hitems.2 hst'

theorem nestsWithin_apply (hcallable : callable.Within R) (hargs : ∀ v ∈ args, v.Within R)
    (hst : R.Respects st₀ st) : NestsWithin 2 (.apply mode callable args, st) := by
  cases callable with
  | closure closure =>
    exact (nestsWithin_closure hR hbodies hdirect hcallable hargs hst).mono (Nat.le_succ 1)
  | text | holds | recorder => exact .of_call fun next hleads => nomatch hleads
  | quantifier quantifier items =>
    refine .of_call fun next hleads => ?_
    obtain ⟨hwithin, hst'⟩ := hleads.within hR hbodies ⟨hcallable, hargs⟩ hst
    cases hleads with
    | predicate => exact nestsWithin_quantify hR hbodies hdirect hwithin.1 hwithin.2 hst'

/-- A walk calls functions of the region at most through a quantifier. -/
theorem nestsWithin_two (hkind : R.Covers kind) (hstart : start.1.Within R kind)
    (hst : R.Respects st₀ start.2) : NestsWithin 2 start := by
  intro entered stop hnests
  induction hnests with
  | here => exact Nat.zero_le 2
  | part _ hleads _ ih =>
    obtain ⟨hwithin, hst'⟩ := hleads.within hR hkind hstart hst
    exact ih hwithin hst'
  | @call _ start _ _ hcall hleads hnests =>
    obtain ⟨task, st⟩ := start
    cases task with
    | apply mode callable args =>
      exact nestsWithin_apply hR hbodies hdirect hstart.1 hstart.2 hst (.call hcall hleads hnests)
    | _ => cases hcall

end

end Walk

/-! ## Completion -/

namespace Code

variable {isScript : Bool} {source : String} {code : Code} {st σ : Store}
  {host fuel cursor depth : Nat}

/-- Whether looking for completions at a cursor ends, given enough steps. -/
def CompletionEnds (code : Code) (host cursor : Nat) (st : Store) : Prop :=
  ∃ steps result τ, code.complete steps ⟨[], host⟩ cursor st = some (result, τ)

/-- Whether looking for completions at a cursor is never inside of more calls than so many. -/
def CallsNestWithin (code : Code) (host cursor depth : Nat) (st : Store) : Prop :=
  Walk.NestsWithin depth (.ofCode (Walk.shadowContext st host st.runs cursor) code,
    (st.beginRun.2.openFrame st.runs .shadow [] ⟨[], host⟩).2)

/-- A run for completions ends where the walk behind its shadow does. -/
theorem isSome_complete_iff : (code.complete fuel ⟨[], host⟩ cursor st).isSome ↔
    (Walk.code fuel (Walk.shadowContext st host st.runs cursor) code
      (st.beginRun.2.openFrame st.runs .shadow [] ⟨[], host⟩).2).isSome := by
  have hspeculate : (code.complete fuel ⟨[], host⟩ cursor st).isSome ↔
      (speculate fuel ⟨.speculative cursor, st.runs, ⟨[], host⟩⟩ code st.beginRun.2).isSome := by
    cases hrun : speculate fuel ⟨.speculative cursor, st.runs, ⟨[], host⟩⟩ code st.beginRun.2 with
    | some outcome => simp [complete_of_speculate hrun]
    | none =>
      unfold complete
      rw [show st.beginRun = (st.runs, st.beginRun.2) from rfl]
      simp [hrun]
  rw [hspeculate, speculate_eq, Walk.isSome_settleSpeculative]

/-- Looking for completions ends exactly if the calls in it nest within a bound. -/
theorem completionEnds_iff :
    code.CompletionEnds host cursor st ↔ ∃ depth, code.CallsNestWithin host cursor depth st := by
  have hmode : (Walk.Task.ofCode (Walk.shadowContext st host st.runs cursor) code).mode ≠ .real := by
    simp [Walk.shadowContext]
  refine Iff.trans ?_ (Walk.exists_endsIn_iff hmode)
  constructor
  · rintro ⟨steps, result, τ, h⟩
    exact ⟨steps, Walk.Task.endsIn_ofCode (isSome_complete_iff.1 (Option.isSome_of_eq_some h))⟩
  · rintro ⟨fuel, h⟩
    have hends := isSome_complete_iff.2 (Walk.isSome_code_of_endsIn h)
    obtain ⟨⟨result, τ⟩, h⟩ := Option.isSome_iff_exists.1 hends
    exact ⟨fuel + 1, result, τ, h⟩

/-- If the functions of the program call nothing but types and members that ask no predicate, the
deepest calls are those that a quantifier makes. -/
theorem callsNestWithin_of_direct (hdata : st.HoldsData host)
    (hdirect : ∀ node ∈ code.nodes, ∀ body, node.functionBody? = some body →
      ∀ part ∈ body.nodes, part.isDirect = true) : code.CallsNestWithin host cursor 2 st := by
  let R := Region.since st host fun body => ∀ part ∈ body.nodes, part.isDirect = true
  have hruns : ∀ body, R.body body → R.Runs body.nodes := by
    intro body hbody node hnode made hmade part hpart
    have hmem := body.closed_nodes node hnode (mem_nodes_of_functionBody? hmade)
    exact hbody part (body.closed_nodes made hmem hpart)
  have hR : R.Fits st := Region.since_fits hdata hruns
  -- a part of a body that calls directly does so too
  have hbodies : R.Covers R.body :=
    ⟨fun node hnode part hpart _ hother => hnode _ (node.closed_nodes part hpart hother),
      hruns, fun _ h => h⟩
  have hmakes : R.Covers fun node => R.Runs node.nodes :=
    ⟨fun node hnode part hpart _ hother => hnode _ (node.closed_nodes part hpart hother),
      fun _ h => h, hruns⟩
  have hshadow : Walk.behindShadow ⟨.speculative cursor, st.runs, ⟨[], host⟩⟩ st.beginRun.2 =
      some (.ok (Walk.shadowContext st host st.runs cursor),
        (st.beginRun.2.openFrame st.runs .shadow [] ⟨[], host⟩).2) := by
    simp only [Walk.behindShadow, Run.update, Store.openFrame_fst]
    rfl
  obtain ⟨hst, hctx⟩ := keeps_behindShadow st.runs cursor (Region.since_respects st host _) hshadow
  exact Walk.nestsWithin_two hR hbodies (fun node h => h node node.self_mem_nodes) hmakes
    (Walk.Task.within_ofCode hctx hdirect) hst

/-- Looking for completions at a cursor in a program that is evaluated without an event from which a
speculative run goes on differently comes to an end. -/
theorem completionEnds_of_events {r : Except RunError Value}
    (hparse : Code.parse .strict isScript source = .ok code)
    (hdata : st.HoldsData host) (honce : st.BindsOnce host)
    (heval : code.evaluate fuel ⟨[], host⟩ st = some (r, σ))
    (hevents : ∀ event ∈ code.events fuel ⟨[], host⟩ st, event.departs = false)
    (hreal : ∀ e, r = .error e → e.isRealOnly = false) : code.CompletionEnds host cursor st := by
  suffices hspeculate : ∃ r τ, speculate fuel ⟨.speculative cursor, st.runs, ⟨[], host⟩⟩ code
      st.beginRun.2 = some (r, τ) by
    obtain ⟨r, τ, hrun⟩ := hspeculate
    exact ⟨fuel, _, _, complete_of_speculate hrun⟩
  let S : Setting := ⟨st, host, st.runs, cursor, false, hdata, honce⟩
  rcases pursues (S := S) (plain_of_parse hparse nofun) rfl fuel with
    ⟨-, found, τ, hrun⟩ | ⟨-, ⟨event, hmem, hdeparts⟩ | hend⟩
  · exact ⟨_, τ, hrun⟩
  · exact absurd (hevents event hmem) (by simp [hdeparts])
  · rw [evaluate_eq_watch, Option.map_eq_some_iff] at heval
    obtain ⟨⟨r₁, σ₁⟩, hwatch, heq⟩ := heval
    cases heq
    obtain ⟨e, rfl, he⟩ | ⟨r', τ, W, hrun, -, -⟩ := hend hwatch
    · exact absurd (hreal e rfl) (by simp [he])
    · exact ⟨_, τ, hrun⟩

/-- If evaluating a program ends, looking for completions at a cursor ends exactly if the calls in
it nest within a bound. There is such a bound if evaluation has no event from which a speculative
run goes on differently, and whatever the events if the functions of the program call no functions
of the program. -/
theorem complete_terminates {r : Except RunError Value}
    (hparse : Code.parse .strict isScript source = .ok code) (hdata : st.HoldsData host)
    (heval : code.evaluate fuel ⟨[], host⟩ st = some (r, σ)) (cursor : Nat) :
    (code.CompletionEnds host cursor st ↔ ∃ depth, code.CallsNestWithin host cursor depth st) ∧
    (st.BindsOnce host → (∀ event ∈ code.events fuel ⟨[], host⟩ st, event.departs = false) →
      (∀ e, r = .error e → e.isRealOnly = false) → code.CompletionEnds host cursor st) ∧
    ((∀ node ∈ code.nodes, ∀ body, node.functionBody? = some body →
        ∀ part ∈ body.nodes, part.isDirect = true) → code.CompletionEnds host cursor st) :=
  ⟨completionEnds_iff,
    fun honce hevents hreal => completionEnds_of_events hparse hdata honce heval hevents hreal,
    fun hdirect => completionEnds_iff.2 ⟨2, callsNestWithin_of_direct hdata hdirect⟩⟩

/-- A script with a loop that is left in its first round, and a function that asks for a member: its
events and its functions are both as they should be. -/
theorem complete_terminates_of_loop :
    let source := "let f = function(x) \x7b return x.contains; \x7d; for (;;) \x7b f(\"a\"); break; \x7d"
    ∃ code, Code.parse .strict true source = .ok code ∧ ∀ cursor,
      code.CompletionEnds 0 cursor {} ∧ ∃ depth, code.CallsNestWithin 0 cursor depth {} := by
  intro source
  have hruns : (Code.parse .strict true source).toOption.any (fun code =>
      code.nodes.all (fun node => node.functionBody?.all fun body => body.nodes.all isDirect) &&
        ((code.events 40 ⟨[], 0⟩ {}).all (!·.departs) &&
          (code.evaluate 40 ⟨[], 0⟩ {}).any (·.1.isOk))) = true := by decide +kernel
  cases hcode : Code.parse .strict true source with
  | error e => simp [hcode, Except.toOption] at hruns
  | ok code =>
    simp only [hcode, Except.toOption, Option.any_some, Bool.and_eq_true, List.all_eq_true,
      Option.all_eq_true, Bool.not_eq_true'] at hruns
    obtain ⟨hdirect, hevents, hends⟩ := hruns
    obtain ⟨⟨r, σ⟩, hrun, hok⟩ := (Option.any_eq_true _ _).1 hends
    refine ⟨code, rfl, fun cursor => ?_⟩
    obtain ⟨hiff, hends, hbounded⟩ :=
      complete_terminates hcode (fun _ _ h => by cases h) hrun cursor
    refine ⟨hends (fun _ _ _ h => by cases h) hevents ?_, hiff.1 (hbounded hdirect)⟩
    rintro e rfl
    cases hok

/-! ## A run without end

A function that calls itself, and is only called in a loop whose condition never holds. -/

/-- The call of a name without arguments. -/
private def callOf (name : String) (start : Nat) : Expr :=
  .binary ⟨start, start + 3⟩ .call (.name ⟨start, start + 1⟩ name) (.null ⟨start + 3, start + 3⟩)

/-- A block with one call in it. -/
private def calling (name : String) (start stop : Nat) : Statement :=
  .block ⟨start, stop⟩ [.expression ⟨start + 2, start + 5⟩ (callOf name (start + 2))]

/-- The function that the script makes. -/
private def spinning : Closure :=
  ⟨⟨.speculative 100, 0, ⟨[⟨.shadow, 0⟩], 0⟩⟩, [], .statement (calling "f" 19 27)⟩

/-- Whether the outermost frame binds `f` to a cell with the function. -/
private def Spins (st : Store) : Prop :=
  st.tables[0]? = some [("f", .cell 0)] ∧
    ∃ id, st.slots[0]? = some (.function id (.closure spinning))

private theorem callOf_eq_none {ctx : Context} {n : Nat} {st st' : Store} {v : Value}
    {id start : Nat} {callable : Callable} (hres : st.resolve? ctx.env "f" = some (v, st'))
    (hv : st'.snapshot v = .function id callable)
    (h : ∀ k < n, Walk.apply k ctx.mode callable [] st' = none) :
    Walk.expr n ctx (callOf "f" start) st = none := by
  -- name, callee and arguments are found without calls; only the call itself goes on
  have harguments : (Expr.null ⟨start + 3, start + 3⟩).arguments = [] := by
    simp [Expr.arguments, Expr.isNoArguments, Span.isEmpty]
  have hname : ∀ k,
      Walk.expr (k + 1) ctx (.name ⟨start, start + 1⟩ "f") st = some (.ok v, st') := by
    intro k
    simp only [Walk.expr, Walk.name, hres]
  rcases n with _ | _ | n
  · rfl
  · exact Run.bind_of_none rfl
  · simp only [callOf, Walk.expr, harguments]
    refine (Run.bind_of_ok (hname n)).trans ?_
    refine (Run.bind_of_ok
      (show Walk.exprs (n + 1) ctx [] st' = some (.ok [], st') from rfl)).trans ?_
    refine (Run.bind_of_ok
      (show Run.snapshot v st' = some (.ok (st'.snapshot v), st') from rfl)).trans ?_
    rw [hv]
    exact h n (by omega)

private theorem calling_eq_none {ctx : Context} {n : Nat} {st : Store} {start stop : Nat}
    (h : ∀ k < n, Walk.expr k ctx (callOf "f" (start + 2)) st = none) :
    Walk.statement n ctx (calling "f" start stop) st = none := by
  rcases n with _ | _ | _ | n
  iterate 3 rfl
  exact Run.bind_of_none (h n (by omega))

/-- Behind the frames of one more call, the function is found and copied, and it is still the
same. -/
private theorem resolve?_spinning {st st₁ : Store} (h : Spins st) (hslots : st₁.slots = st.slots)
    (htables : st₁.tables = (st.tables.push []).push []) :
    ∃ v st₂ id, st₁.resolve?
        ⟨[⟨.shadow, st.tables.size + 1⟩, ⟨.scope, st.tables.size⟩, ⟨.shadow, 0⟩], 0⟩ "f" =
          some (v, st₂) ∧ st₂.snapshot v = .function id (.closure spinning) ∧ Spins st₂ := by
  obtain ⟨htable, id, hslot⟩ := h
  have hlt := (Array.getElem?_eq_some_iff.1 htable).1
  have hpos := (Array.getElem?_eq_some_iff.1 hslot).1
  have hfirst : st₁.tables[0]? = some [("f", .cell 0)] := by
    rw [htables, Array.getElem?_push_lt (by simp), ← htable]
    simp [Array.getElem_push_lt hlt, hlt]
  -- `f` is found at the root, behind the new scope and its shadow, which copies it
  have hroot : st₁.namesAt 0 = [("f", .cell 0)] := by rw [Store.namesAt, hfirst]; rfl
  have hscope : st₁.namesAt st.tables.size = [] := by
    rw [Store.namesAt, htables, Array.getElem?_push, if_neg (by simp), Array.getElem?_push_size,
      Option.getD_some]
  have hshadow : st₁.namesAt (st.tables.size + 1) = [] := by
    rw [Store.namesAt, htables, Array.getElem?_push, if_pos (by simp)]
    rfl
  have hcopy : st₁.snapshot (.cell 0) = .function id (.closure spinning) := by
    simp [Store.snapshot, hslots, hslot]
  refine ⟨(st₁.newCell (.cell 0)).1, (st₁.newCell (.cell 0)).2.bindIn
    ⟨.shadow, st.tables.size + 1⟩ "f" (st₁.newCell (.cell 0)).1, id, ?_, ?_, ?_, id, ?_⟩
  · simp only [Store.resolve?, Store.resolveThrough_shadow, Store.resolveThrough_scope, hshadow,
      hscope, hroot, Table.find?]
    rfl
  · simp [Store.newCell, Store.snapshot, Store.bindIn, hslots, hslot]
  · simp [Store.newCell, Store.bindIn, Array.getElem?_modify, hfirst]
  · show (st₁.slots.push _)[0]? = _
    rw [hslots, Array.getElem?_push, if_neg (Nat.ne_of_lt hpos), hslot]

private theorem apply_spinning_eq_none : ∀ n st, Spins st →
    Walk.apply n (.speculative 100) (.closure spinning) [] st = none := by
  intro n
  induction n using Nat.strongRecOn with
  | ind n ih =>
    intro st hst
    cases n with
    | zero => rfl
    | succ n =>
      obtain ⟨st₁, henter, hslots₁, -, htables₁⟩ := @Walk.enter_eq spinning.context []
        (.statement (calling "f" 19 27)) [] st (by simp)
      obtain ⟨st₂, hshadow, hslots₂, -, htables₂⟩ := @Walk.behindShadow_eq
        ⟨.speculative 100, 0, ⟨[⟨.scope, st.tables.size⟩, ⟨.shadow, 0⟩], 0⟩⟩ st₁
      have hsize : st₁.tables.size = st.tables.size + 1 := by simp [htables₁]
      rw [hsize] at hshadow
      obtain ⟨v, st₃, id, hres, hv, hspins⟩ := @resolve?_spinning st st₂ hst
        (by rw [hslots₂, hslots₁]; simp [Store.paramValues]) (by rw [htables₂, htables₁]; rfl)
      simp only [Walk.apply, spinning]
      refine (Run.bind_of_ok henter).trans ((Run.bind_of_ok hshadow).trans (Run.bind_of_none ?_))
      -- the body calls `f` again in a store of the same kind, with less fuel
      have hbody : ∀ k ≤ n, Walk.statement k ⟨.speculative 100, 0,
          ⟨[⟨.shadow, st.tables.size + 1⟩, ⟨.scope, st.tables.size⟩, ⟨.shadow, 0⟩], 0⟩⟩
            (calling "f" 19 27) st₂ = none := fun k hk =>
        calling_eq_none fun k' hk' => callOf_eq_none hres hv fun k'' hk'' =>
          ih k'' (by omega) st₃ hspins
      cases n with
      | zero => rfl
      | succ n => exact Run.attempt_of_none (hbody n (Nat.le_succ n))

/-- The function is called behind the shadow of the script, although the condition of the loop does
not hold. No number of steps is enough. -/
theorem complete_eq_none_of_recursion :
    let source := "let f = function() \x7b f(); \x7d; while (false) \x7b f(); \x7d"
    ∃ code σ, Code.parse .strict true source = .ok code ∧
      code.evaluate 40 ⟨[], 0⟩ {} = some (.ok .null, σ) ∧
      ∀ steps, code.complete steps ⟨[], 0⟩ 100 {} = none := by
  intro source
  let made : Statement :=
    .declare ⟨0, 27⟩ "f" (some (.function ⟨8, 27⟩ [] (calling "f" 19 27)))
  let loop : Statement := .whileLoop ⟨29, 51⟩ (.boolean ⟨36, 41⟩ false) (calling "f" 43 51)
  let script : Code := .statement (.block ⟨0, 51⟩ [made, loop])
  have hparse : Code.parse .strict true source = .ok script := by cbv
  let st₀ : Store := (Store.openFrame (Store.beginRun {}).2 0 .shadow [] ⟨[], 0⟩).2
  let st₁ : Store :=
    { st₀ with
      slots := #[.function 0 (.closure spinning)]
      tables := #[[("f", .cell 0)]]
      functions := 1 }
  have hspins : Spins st₁ := ⟨rfl, 0, rfl⟩
  have hmade : ∀ n, Walk.statement (n + 3) spinning.context made st₀ = some (.ok .null, st₁) :=
    fun n => rfl
  have hbody : ∀ n, Walk.statement n spinning.context (calling "f" 43 51) st₁ = none := fun n =>
    calling_eq_none fun k _ => callOf_eq_none
      (show st₁.resolve? spinning.context.env "f" = some (.cell 0, st₁) from rfl) rfl
      fun k' _ => apply_spinning_eq_none k' st₁ hspins
  have hloop : ∀ n, Walk.statement n spinning.context loop st₁ = none := by
    intro n
    rcases n with _ | _ | n
    iterate 2 rfl
    exact Run.bind_of_none (Run.attempt_of_none (hbody n))
  have hcode : ∀ n, Walk.code n spinning.context script st₀ = none := by
    intro n
    rcases n with _ | _ | _ | _ | _ | _ | n
    iterate 6 rfl
    exact (Run.bind_of_ok (hmade n)).trans (Run.bind_of_none (hloop (n + 2)))
  refine ⟨script, _, hparse, rfl, fun steps => ?_⟩
  have hrun :
      speculate steps ⟨.speculative 100, 0, ⟨[], 0⟩⟩ script (Store.beginRun {}).2 = none := by
    refine (speculate_eq {} 0 steps 100 script).trans (Run.bind_of_none ?_)
    exact Run.attempt_of_none (hcode steps)
  unfold complete
  rw [show (Store.beginRun {}) = (0, (Store.beginRun {}).2) from rfl]
  simp only [hrun]

end Code

end SearchScript
