import SearchScript.Proofs.Run.Parts
import SearchScript.Proofs.Run.Sphere.Walks

/-!
# Jumps stay with their loops

A break or a continue is a signal on its way to the loop that it belongs to. A part of a program is
left with such a signal only if it has the jump and no loop of its own takes it, and a call never
is: whatever a function ends with, its caller gets a value or another signal. So a program whose
jumps all stand in loops runs without an error about them.

## Key results

- `Walk.ne_signal_of_call`: no jump leaves a call
- `Walk.jumpsOut_of_statement`: a jump that leaves a statement is one of its own
- `Code.jumps_stay_in_loops`: jumps that stand in loops never leave them
-/

namespace SearchScript

/-! ## Jumps of any part of a program -/

theorem Signal.jumps_of_inside {S : Sphere} {jumps : Jump → Bool} {jump : Jump}
    (h : jump.signal.Inside S jumps) : jumps jump = true := by
  cases jump with
  | breakLoop => exact h
  | continueLoop => exact h

namespace Walk

open Sphere

variable {fuel : Nat} {mode : Mode} {callee : Value} {args : List Value} {ctx : Context}
  {s : Statement} {signal : Signal} {jump : Jump} {σ σ' : Store}

/-- No jump leaves a call. -/
theorem ne_signal_of_call
    (h : call fuel mode callee args σ = some (.error signal, σ')) (jump : Jump) :
    signal ≠ jump.signal := by
  obtain ⟨-, hsignal⟩ := (enclosed everything_lawful fuel).call mode callee args trivial
    (inside_everything callee) (fun v _ => inside_everything v)
    (everything_encloses (absurd trivial)) h
  rintro rfl
  have hnever : jump.signal.Inside (everything True) fun _ => false := hsignal
  cases Signal.jumps_of_inside hnever

/-- A jump that leaves a statement is one of its own that no loop of it takes. -/
theorem jumpsOut_of_statement
    (h : statement fuel ctx s σ = some (.error jump.signal, σ')) : s.jumpsOut jump = true := by
  obtain ⟨-, hsignal⟩ := (enclosed everything_lawful fuel).statement ctx s trivial
    (fun _ _ _ _ => trivial) (everything_encloses (absurd trivial)) h
  have hown : jump.signal.Inside (everything True) (s.jumpsOut ·) := hsignal
  exact Signal.jumps_of_inside hown

end Walk

/-! ## Programs -/

namespace Code

open Sphere

variable {code : Code} {st : Store} {host : Nat}

/-- The bodies of functions of a program are placed as the program is. -/
theorem JumpsArePlaced.of_functionBody {node body : Code} (h : code.JumpsArePlaced)
    (hnode : node ∈ code.nodes) (hbody : node.functionBody? = some body) :
    body.JumpsArePlaced := by
  have hparts : body.nodes ⊆ code.nodes := fun part hpart =>
    closed_nodes code node hnode (closed_nodes node body (mem_nodes_of_functionBody? hbody) hpart)
  exact ⟨h.2 node hnode body hbody, fun part hpart => h.2 part (hparts hpart)⟩

/-- Real runs of programs with placed jumps stay in a sphere without errors about jumps. -/
theorem lawful_of_placed : (ofHost st host (· = .real) JumpsArePlaced
    fun e => ∀ jump : Jump, e ≠ jump.error).Lawful := by
  refine ofHost_lawful (fun body hbody node hnode made hmade => ?_) (fun body hbody jump h => ?_)
    (fun e he => ?_) (by rintro cursor - ⟨⟩)
  · exact JumpsArePlaced.of_functionBody hbody hnode hmade
  · rw [hbody.1 jump] at h
    cases h
  · rintro (_ | _) rfl
    · cases he
    · cases he

/-- If each break and continue of a program stands in the body of a loop of the same function, an
evaluation at a host that binds data does not end with an error about them. In any run, a function
that is called does not end with a jump, so that no loop of its caller takes one of it: the jumps
that a loop takes are those of its own body. -/
theorem jumps_stay_in_loops (hhost : st.HoldsData host) (hplaced : code.JumpsArePlaced) :
    (∀ fuel e st', code.evaluate fuel ⟨[], host⟩ st = some (.error e, st') →
      ∀ jump : Jump, e ≠ jump.error) ∧
    (∀ fuel mode callee args σ signal σ',
      Walk.call fuel mode callee args σ = some (.error signal, σ') →
      ∀ jump : Jump, signal ≠ jump.signal) ∧
    (∀ fuel ctx (body : Statement) σ (jump : Jump) σ',
      Walk.statement fuel ctx body σ = some (.error jump.signal, σ') →
      body.jumpsOut jump = true) := by
  refine ⟨fun fuel e st' h => ?_, fun _ _ _ _ _ _ _ => Walk.ne_signal_of_call,
    fun _ _ _ _ _ _ => Walk.jumpsOut_of_statement⟩
  have hclosed : ∀ jump, code.jumpsOut jump = true →
      ∀ other : Jump, jump.error ≠ other.error := by
    intro jump h
    rw [hplaced.1 jump] at h
    cases h
  obtain ⟨_, -, -, -, herror⟩ := inside_evaluate hhost.givesNoFunction lawful_of_placed rfl
    (fun _ hnode _ hbody => hplaced.of_functionBody hnode hbody) hclosed h
  exact herror e rfl

/-- The function has a loop that it breaks, and a loop that goes on calls it until it fails. -/
theorem jumps_stay_in_loops_of_caller :
    let st : Store := { slots := #[.boolean true], hosts := #[{ locals := [("x", .cell 0)] }] }
    let source := "let f = function () \x7bwhile (true) break; return missing;\x7d;" ++
      "while (x) \x7bf(); continue;\x7d"
    ∃ code e st', Code.parse .strict true source = .ok code ∧ code.JumpsArePlaced ∧
      code.evaluate 40 ⟨[], 0⟩ st = some (.error e, st') ∧ ∀ jump : Jump, e ≠ jump.error := by
  intro st source
  have hruns : (Code.parse .strict true source).toOption.any (fun code =>
      decide code.JumpsArePlaced && (code.evaluate 40 ⟨[], 0⟩ st).any (!·.1.isOk)) = true := by
    decide +kernel
  cases hcode : Code.parse .strict true source with
  | error e => simp [hcode, Except.toOption] at hruns
  | ok code =>
    simp only [hcode, Except.toOption, Option.any_some, Bool.and_eq_true, decide_eq_true_eq]
      at hruns
    obtain ⟨hplaced, heval⟩ := hruns
    obtain ⟨⟨r, σ⟩, hrun, hfails⟩ := (Option.any_eq_true _ _).1 heval
    cases r with
    | ok v => cases hfails
    | error e =>
      have hhost : st.HoldsData 0 := Store.holdsData_of_cell rfl rfl rfl
      exact ⟨code, e, σ, rfl, hplaced, hrun, (jumps_stay_in_loops hhost hplaced).1 40 e σ hrun⟩

end Code

end SearchScript
