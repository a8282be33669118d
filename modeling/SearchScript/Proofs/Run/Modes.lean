import SearchScript.Proofs.Run.Sphere.Walks

/-!
# Functions are called in their own mode

A function that a program makes belongs to the mode of the run that makes it, and a call in the
other mode is an error. A run at a host that gives it no function comes across the functions that it
makes itself and no others, wherever they are stored and whoever calls them. So no run, real or
speculative, ends with such an error; nor does a real run find completions.

## Key results

- `Code.modes_never_mix`: no function is called in the wrong mode
-/

namespace SearchScript.Code

open Sphere

variable {fuel host cursor : Nat} {code : Code} {st st' : Store} {mode : Mode → Prop} {e : RunError}

/-- Whether an error is none about a function that is called in the wrong mode. -/
abbrev KeepsMode (e : RunError) : Prop := e ≠ .speculativeCall ∧ e ≠ .realCall

/-- Runs of one kind stay in a sphere without errors about modes. -/
theorem lawful_of_mode (h : ∀ cursor, mode .real → ¬mode (.speculative cursor)) :
    (ofHost st host mode (fun _ => True) KeepsMode).Lawful := by
  refine ofHost_lawful (fun _ _ _ _ _ _ => trivial) (fun _ _ jump _ => ?_) (fun e he => ?_)
    fun cursor hreal hspeculative => absurd hspeculative (h cursor hreal)
  · cases jump <;> exact ⟨nofun, nofun⟩
  · constructor <;> rintro rfl <;> cases he

/-- An evaluation does not call a function that was made speculatively, and comes to no place where
completions are found. -/
theorem keepsMode_evaluate (hhost : st.GivesNoFunction host)
    (h : code.evaluate fuel ⟨[], host⟩ st = some (.error e, st')) : KeepsMode e := by
  have hS : (ofHost st host (· = .real) (fun _ => True) KeepsMode).Lawful :=
    lawful_of_mode fun _ _ => nofun
  obtain ⟨_, -, -, -, herror⟩ := inside_evaluate hhost hS rfl (fun _ _ _ _ => trivial)
    (fun jump _ => by cases jump <;> exact ⟨nofun, nofun⟩) h
  exact herror e rfl

/-- Looking for completions does not call a function that was made for real. -/
theorem keepsMode_complete (hhost : st.GivesNoFunction host)
    (h : code.complete fuel ⟨[], host⟩ cursor st = some (.error e, st')) : KeepsMode e := by
  let S := ofHost st host (· ≠ .real) (fun _ => True) KeepsMode
  have hS : S.Lawful := lawful_of_mode fun _ hreal => absurd rfl hreal
  have hctx : S.context ⟨.speculative cursor, st.runs, ⟨[], host⟩⟩ :=
    ⟨nofun, rfl, List.forall_mem_nil _⟩
  have hkeeps : S.Keeps (fun _ => false) (Value.Inside S)
      (speculate fuel ⟨.speculative cursor, st.runs, ⟨[], host⟩⟩ code) :=
    (Walk.inside_behindShadow hS.toRoams hctx nofun).bind fun ctx hctx =>
      Walk.inside_settleSpeculative
        ((Walk.enclosed hS fuel).code ctx code hctx fun _ _ _ _ => trivial)
  simp only [complete] at h
  split at h <;> cases h
  next hrun => exact (hkeeps (ofHost_encloses hhost) hrun).2

/-- At a host that gives no function, neither an evaluation nor a search for completions, at any
cursor, ends with an error about a function that is called in the wrong mode. -/
theorem modes_never_mix (hhost : st.GivesNoFunction host) :
    (∀ fuel e st', code.evaluate fuel ⟨[], host⟩ st = some (.error e, st') →
      e ≠ .speculativeCall ∧ e ≠ .realCall) ∧
    ∀ fuel cursor e st', code.complete fuel ⟨[], host⟩ cursor st = some (.error e, st') →
      e ≠ .speculativeCall ∧ e ≠ .realCall :=
  ⟨fun _ _ _ => keepsMode_evaluate hhost, fun _ _ _ _ => keepsMode_complete hhost⟩

/-- The script stores a function, returns it from another one, hands it to a list and calls a third
one that calls itself until it fails. -/
theorem modes_never_mix_of_stored :
    let st : Store := { slots := #[.stringList .list ["a"]],
                        hosts := #[{ locals := [("xs", .cell 0)] }] }
    let source := "let f = function (s) \x7breturn s.contains(\"a\");\x7d;" ++
      "let g = function () \x7breturn f;\x7d;" ++
      "let h = function (n) \x7bif (n < 1) return missing; return h(n - 1);\x7d;" ++
      "if (xs.some(g())) return h(2);"
    ∃ code e σ e' τ, Code.parse .strict true source = .ok code ∧
      code.evaluate 60 ⟨[], 0⟩ st = some (.error e, σ) ∧
      code.complete 60 ⟨[], 0⟩ 1000 st = some (.error e', τ) ∧
      (e ≠ .speculativeCall ∧ e ≠ .realCall) ∧ e' ≠ .speculativeCall ∧ e' ≠ .realCall := by
  intro st source
  have hruns : (Code.parse .strict true source).toOption.any (fun code =>
      (code.evaluate 60 ⟨[], 0⟩ st).any (!·.1.isOk) &&
        (code.complete 60 ⟨[], 0⟩ 1000 st).any (!·.1.isOk)) = true := by
    decide +kernel
  have hhost : st.GivesNoFunction 0 :=
    (Store.holdsData_of_cell rfl rfl rfl : st.HoldsData 0).givesNoFunction
  cases hcode : Code.parse .strict true source with
  | error e => simp [hcode, Except.toOption] at hruns
  | ok code =>
    simp only [hcode, Except.toOption, Option.any_some, Bool.and_eq_true] at hruns
    obtain ⟨⟨r, σ⟩, hrun, hfails⟩ := (Option.any_eq_true _ _).1 hruns.1
    obtain ⟨⟨r', τ⟩, hrun', hfails'⟩ := (Option.any_eq_true _ _).1 hruns.2
    cases r with
    | ok v => cases hfails
    | error e =>
      cases r' with
      | ok found => cases hfails'
      | error e' =>
        exact ⟨code, e, σ, e', τ, rfl, hrun, hrun', (modes_never_mix hhost).1 60 e σ hrun,
          (modes_never_mix hhost).2 60 1000 e' τ hrun'⟩

end SearchScript.Code
