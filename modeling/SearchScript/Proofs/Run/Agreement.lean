import Mathlib
import SearchScript.Proofs.Parse.Nesting
import SearchScript.Proofs.Run.Pursuit.Program

/-!
# Where completion agrees with evaluation

A speculative run that no event makes part from the real run comes to the same value. Up to the
first event that does, it comes to every member access that the real run comes to, and finds the
completions there.

The events that matter are losses that the walk behind shadows takes by design: what a function
writes to an older binding is gone when the call ends, and the body of a loop is visited once.

## Key results

- `Code.speculate_of_events`: the value of a program from which nothing departs
- `Code.complete_of_access`: completions at a member access that evaluation comes to
-/

namespace SearchScript.Code

open Tandem

variable {isScript : Bool} {source : String} {code : Code} {st σ : Store} {host fuel : Nat}

/-- What is strictly read has all its parts, in front of a cursor that is beyond them. -/
theorem plain_of_parse {S : Setting} (hparse : Code.parse .strict isScript source = .ok code)
    (hcursor : S.beyond = true → ∀ node ∈ code.nodes, node.span.stop < S.cursor) :
    S.Plain code.nodes := fun node hnode =>
  ⟨isPlaceholder_of_isShaped (shaped_of_parse hparse node hnode), fun h => hcursor h node hnode⟩

/-- A signal by which a program ends with a value. -/
theorem realOutcome_eq_ok {r : Except Signal Value} {v : Value} (h : Walk.realOutcome r = .ok v) :
    r = .ok v ∨ r = .error (.leave v) := by
  unfold Walk.realOutcome at h
  split at h <;> cases h
  · exact .inl rfl
  · exact .inr rfl

/-- How looking for completions ends after a speculative run. -/
def completionOutcome : Except Signal Value → Except RunError (Option Suggestions)
  | .error (.suggest found) => .ok (some found)
  | .error (.fail e) => .error e
  | _ => .ok none

theorem complete_of_speculate {env : Env} {cursor : Nat} {r : Except Signal Value}
    (h : speculate fuel ⟨.speculative cursor, st.runs, env⟩ code st.beginRun.2 = some (r, σ)) :
    code.complete fuel env cursor st = some (completionOutcome r, σ.endRun) := by
  have hbegin : st.beginRun = (st.runs, st.beginRun.2) := rfl
  unfold complete
  rw [hbegin]
  simp only [h]
  rcases r with s | v
  · cases s <;> rfl
  · rfl

/-- A program that evaluates to data, without an event from which a speculative run goes on
differently, has the same value in a speculative run that is asked for completions behind it. -/
theorem speculate_of_events {cursor : Nat} {v : Value}
    (hparse : Code.parse .strict isScript source = .ok code)
    (hcursor : ∀ node ∈ code.nodes, node.span.stop < cursor)
    (hdata : st.HoldsData host) (honce : st.BindsOnce host)
    (heval : code.evaluate fuel ⟨[], host⟩ st = some (.ok v, σ)) (hv : v.isData = true)
    (hevents : ∀ event ∈ code.events fuel ⟨[], host⟩ st, event.departs = false) :
    ∃ w τ, speculate fuel ⟨.speculative cursor, st.runs, ⟨[], host⟩⟩ code st.beginRun.2 =
      some (.ok w, τ) ∧ τ.snapshot w = v := by
  let S : Setting := ⟨st, host, st.runs, cursor, true, hdata, honce⟩
  rw [evaluate_eq_watch, Option.map_eq_some_iff] at heval
  obtain ⟨⟨r, σ₁⟩, hwatch, heq⟩ := heval
  obtain ⟨hvalue, -⟩ := Prod.mk.inj heq
  obtain ⟨u, hu, rfl⟩ := Except.map_eq_ok_iff.1 hvalue
  rcases pursues (S := S) (plain_of_parse hparse fun _ => hcursor) rfl fuel with
    ⟨hbeyond, -⟩ | ⟨-, ⟨event, hmem, hdeparts⟩ | hend⟩
  · cases hbeyond
  · exact absurd (hevents event hmem) (by simp [hdeparts])
  obtain ⟨e, rfl, -⟩ | ⟨r', τ, W, hrun, ht, halike⟩ := hend hwatch
  · cases hu
  -- both runs end with images of one another, as a value or by returning it
  have himage : ∃ w, speculativeOutcome r' = .ok w ∧
      Same S [⟨.outermost, 0⟩] (σ₁.snapshot u) (τ.snapshot w) := by
    rcases realOutcome_eq_ok hu with rfl | rfl <;> rcases r' with s | w <;>
      try exact halike.elim
    · exact ⟨w, rfl, ht.snapshot halike⟩
    · cases s <;> try exact halike.elim
      exact ⟨_, rfl, ht.snapshot (.inl halike)⟩
  obtain ⟨w, hw, hsame⟩ := himage
  refine ⟨w, τ, hw ▸ hrun, ?_⟩
  generalize σ₁.snapshot u = x at hv hsame
  generalize τ.snapshot w = y at hsame
  cases hsame with
  | data => rfl
  | function => cases hv

/-- A script in which a called function reads an older binding and changes one of its own. -/
theorem speculate_of_events_of_call :
    let source := "let s = \"a\"; let f = function(x) \x7b let t = s; t += x; return t; \x7d; return f(s);"
    ∃ code v σ, Code.parse .strict true source = .ok code ∧
      code.evaluate 40 ⟨[], 0⟩ {} = some (.ok v, σ) ∧
      ∃ w τ, speculate 40 ⟨.speculative 100, 0, ⟨[], 0⟩⟩ code (Store.beginRun {}).2 =
        some (.ok w, τ) ∧ τ.snapshot w = v := by
  intro source
  have hruns : (Code.parse .strict true source).toOption.any (fun code =>
      code.nodes.all (fun node => decide (node.span.stop < 100)) &&
        (code.events 40 ⟨[], 0⟩ {}).all (!·.departs) &&
        (code.evaluate 40 ⟨[], 0⟩ {}).any (·.1.toOption.any (·.isData))) = true := by
    decide +kernel
  cases hcode : Code.parse .strict true source with
  | error e => simp [hcode, Except.toOption] at hruns
  | ok code =>
    simp only [hcode, Except.toOption, Option.any_some, Bool.and_eq_true, List.all_eq_true,
      decide_eq_true_eq, Bool.not_eq_true'] at hruns
    obtain ⟨⟨hnodes, hevents⟩, heval⟩ := hruns
    obtain ⟨⟨r, σ⟩, hrun, hr⟩ := (Option.any_eq_true _ _).1 heval
    cases r with
    | error e => cases hr
    | ok v =>
      exact ⟨code, v, σ, rfl, hrun,
        speculate_of_events hcode hnodes (fun _ _ h => by cases h) (fun _ _ _ h => by cases h) hrun hr
          hevents⟩

/-- Whether a run ends with a Boolean. -/
private def endsAs {ε : Type} (b : Bool) (r : Except ε Value) : Bool :=
  r.toOption.any fun v => v.requireBoolean.toOption == some b

private theorem eq_ok_of_endsAs {ε : Type} {b : Bool} {r : Except ε Value}
    (h : endsAs b r = true) : r = .ok (.boolean b) := by
  cases r with
  | error e => cases h
  | ok v => cases v <;> simp_all [endsAs, Except.toOption, Value.requireBoolean]

set_option maxRecDepth 10000 in
/-- What a called function writes to an older binding is lost in a speculative run: the script
returns true, and its speculative run false. -/
theorem speculate_ne_of_write :
    let source := "let n = false; let f = function() \x7b n = true; \x7d; f(); return n;"
    ∃ code σ w τ, Code.parse .strict true source = .ok code ∧
      (∀ node ∈ code.nodes, node.span.stop < 100 ∧ match node with
        | .statement (.forLoop _ _ _ _ _) | .statement (.whileLoop _ _ _) => False
        | .expression (.name _ text) => text ≠ "File"
        | _ => True) ∧
      code.evaluate 40 ⟨[], 0⟩ {} = some (.ok (.boolean true), σ) ∧
      speculate 40 ⟨.speculative 100, 0, ⟨[], 0⟩⟩ code (Store.beginRun {}).2 = some (.ok w, τ) ∧
      τ.snapshot w = .boolean false := by
  intro source
  let body : Statement := .block ⟨34, 47⟩
    [.assign ⟨36, 44⟩ .assign (.name ⟨36, 37⟩ "n") (.boolean ⟨40, 44⟩ true)]
  let script : Code := .statement (.block ⟨0, 63⟩
    [.declare ⟨0, 13⟩ "n" (some (.boolean ⟨8, 13⟩ false)),
      .declare ⟨15, 47⟩ "f" (some (.function ⟨23, 47⟩ [] body)),
      .expression ⟨49, 52⟩ (.binary ⟨49, 52⟩ .call (.name ⟨49, 50⟩ "f") (.null ⟨52, 52⟩)),
      .leave ⟨54, 63⟩ (some (.name ⟨61, 62⟩ "n"))])
  have hparse : Code.parse .strict true source = .ok script := by cbv
  have hreal : (script.evaluate 40 ⟨[], 0⟩ {}).any (fun p => endsAs true p.1) = true := by
    decide +kernel
  have hspeculative : (speculate 40 ⟨.speculative 100, 0, ⟨[], 0⟩⟩ script (Store.beginRun {}).2).any
      (fun p => endsAs false (p.1.map p.2.snapshot)) = true := by decide +kernel
  obtain ⟨⟨r, σ⟩, hrun, hr⟩ := (Option.any_eq_true _ _).1 hreal
  obtain ⟨⟨r', τ⟩, hrun', hr'⟩ := (Option.any_eq_true _ _).1 hspeculative
  obtain rfl : r = .ok (.boolean true) := eq_ok_of_endsAs hr
  obtain ⟨w, rfl, hw⟩ := Except.map_eq_ok_iff.1 (eq_ok_of_endsAs hr')
  refine ⟨script, σ, w, τ, hparse, ?_, hrun, hrun', hw⟩
  simp [script, body, nodes, Statement.nodes, Statement.listNodes, Expr.optionNodes, Expr.nodes,
    span, Statement.span, Expr.span]

/-! ## Member accesses -/

/-- In a tree that is read from a text, the left operand of an operator ends in front of the end of
the right one. -/
theorem left_stop_le_of_parse {mode : ParseMode} {span : Span} {op : BinaryOp} {left right : Expr}
    (hparse : Code.parse mode isScript source = .ok code)
    (hnode : Code.expression (.binary span op left right) ∈ code.nodes) :
    left.span.stop ≤ right.span.stop := by
  obtain ⟨start, stop, hrow⟩ := row_of_parse hparse
  have hmem := List.mem_singleton_self code
  have hnested := hrow.nested code hmem _ hnode
  have hordered : left.span.stop ≤ right.span.start :=
    (List.pairwise_cons.1 hnested.ordered).1 (.expression right) (List.mem_singleton_self _)
  have hpart : .expression right ∈ (Code.expression (.binary span op left right)).nodes := by
    rw [nodes_eq]
    exact List.mem_cons_of_mem _ (List.mem_flatMap.2 ⟨.expression right, by simp [children], by
      rw [nodes_eq]
      exact List.mem_cons_self⟩)
  have hright := hrow.nested code hmem _ (code.closed_nodes _ hnode hpart)
  exact Nat.le_trans hordered hright.inText.ordered

/-- Looking for completions at the end of a member name finds some, if evaluation comes to the
member access before any event from which a speculative run goes on differently. -/
theorem complete_of_access {span nameSpan : Span} {left : Expr} {name : String}
    {before after : List Event} (hparse : Code.parse .strict isScript source = .ok code)
    (hdata : st.HoldsData host) (honce : st.BindsOnce host)
    (hnode : .expression (.binary span .member left (.name nameSpan name)) ∈ code.nodes)
    (hevents : code.events fuel ⟨[], host⟩ st =
      before ++ .access left (.name nameSpan name) :: after)
    (hbefore : ∀ event ∈ before, event.departs = false) :
    ∃ found τ, code.complete fuel ⟨[], host⟩ nameSpan.stop st = some (.ok (some found), τ) := by
  let S : Setting := ⟨st, host, st.runs, nameSpan.stop, false, hdata, honce⟩
  have hcomes : Comes S.cursor (code.events fuel ⟨[], host⟩ st) := by
    rw [hevents, comes_append]
    exact .inr ⟨hbefore, .inl ⟨left_stop_le_of_parse hparse hnode, Nat.le_refl _⟩⟩
  rcases pursues (S := S) (plain_of_parse hparse nofun) rfl fuel with
    ⟨-, found, τ, hrun⟩ | ⟨hnot, -⟩
  · exact ⟨found, τ.endRun, complete_of_speculate hrun⟩
  · exact absurd hcomes hnot

set_option maxRecDepth 10000 in
/-- A script that comes to two member accesses; the completions are asked for at the second. -/
theorem complete_of_access_of_branch :
    let source := "if (\"ab\".contains(\"a\")) let e = \"ab\".endsWith;"
    let left : Expr := .string ⟨32, 36⟩ "ab"
    let right : Expr := .name ⟨37, 45⟩ "endsWith"
    ∃ code before after, Code.parse .strict true source = .ok code ∧
      .expression (.binary ⟨32, 45⟩ .member left right) ∈ code.nodes ∧
      code.events 40 ⟨[], 0⟩ {} = before ++ .access left right :: after ∧
      ∃ found τ, code.complete 40 ⟨[], 0⟩ 45 {} = some (.ok (some found), τ) := by
  intro source left right
  let asked : Event := .access (.string ⟨4, 8⟩ "ab") (.name ⟨9, 17⟩ "contains")
  let condition : Expr := .binary ⟨4, 21⟩ .call
    (.binary ⟨4, 17⟩ .member (.string ⟨4, 8⟩ "ab") (.name ⟨9, 17⟩ "contains")) (.string ⟨18, 21⟩ "a")
  let script : Code := .statement (.block ⟨0, 46⟩ [.branch ⟨0, 46⟩ condition
    (.declare ⟨24, 45⟩ "e" (some (.binary ⟨32, 45⟩ .member left right))) none])
  have hparse : Code.parse .strict true source = .ok script := by cbv
  have hnode : .expression (.binary ⟨32, 45⟩ .member left right) ∈ script.nodes := by
    simp [script, nodes, Statement.nodes, Statement.listNodes, Expr.optionNodes, Expr.nodes]
  have hevents : script.events 40 ⟨[], 0⟩ {} = [asked] ++ .access left right :: [] := by cbv
  exact ⟨script, _, _, hparse, hnode, hevents, complete_of_access hparse (fun _ _ h => by cases h)
    (fun _ _ _ h => by cases h) hnode hevents (by simp [asked, Event.departs])⟩

set_option maxRecDepth 10000 in
/-- What evaluation comes to in the second round of a loop can be missed: the body is visited once,
as in the first round. -/
theorem complete_eq_none_of_secondRound :
    let source := "let b = false; for (;;) \x7b if (b) return \"x\".contains; b = true; \x7d"
    let left : Expr := .string ⟨40, 43⟩ "x"
    let right : Expr := .name ⟨44, 52⟩ "contains"
    ∃ code τ, Code.parse .strict true source = .ok code ∧
      (∀ node ∈ code.nodes, match node with
        | .expression (.lambda _ _ _) | .expression (.function _ _ _) => False
        | _ => True) ∧
      .expression (.binary ⟨40, 52⟩ .member left right) ∈ code.nodes ∧
      .access left right ∈ code.events 40 ⟨[], 0⟩ {} ∧
      code.complete 40 ⟨[], 0⟩ 52 {} = some (.ok none, τ) := by
  intro source left right
  let body : Statement := .block ⟨24, 65⟩
    [.branch ⟨26, 53⟩ (.name ⟨30, 31⟩ "b")
        (.leave ⟨33, 53⟩ (some (.binary ⟨40, 52⟩ .member left right))) none,
      .assign ⟨54, 62⟩ .assign (.name ⟨54, 55⟩ "b") (.boolean ⟨58, 62⟩ true)]
  let script : Code := .statement (.block ⟨0, 65⟩
    [.declare ⟨0, 13⟩ "b" (some (.boolean ⟨8, 13⟩ false)),
      .forLoop ⟨15, 65⟩ none none none body])
  have hparse : Code.parse .strict true source = .ok script := by cbv
  have hevents : script.events 40 ⟨[], 0⟩ {} = [.repeated, .access left right] := by cbv
  have hcomplete : (script.complete 40 ⟨[], 0⟩ 52 {}).any (·.1.toOption.any Option.isNone) = true :=
    by decide
  obtain ⟨⟨r, τ⟩, hrun, hr⟩ := (Option.any_eq_true _ _).1 hcomplete
  obtain rfl : r = .ok none := by
    cases r with
    | error e => cases hr
    | ok found => rw [Option.isNone_iff_eq_none.1 hr]
  refine ⟨script, τ, hparse, ?_, ?_, ?_, hrun⟩
  · simp [script, body, left, right, nodes, Statement.nodes, Statement.listNodes,
      Statement.optionNodes, Expr.optionNodes, Expr.nodes]
  · simp [script, body, nodes, Statement.nodes, Statement.listNodes,
      Statement.optionNodes, Expr.optionNodes, Expr.nodes]
  · rw [hevents]
    simp

end SearchScript.Code
