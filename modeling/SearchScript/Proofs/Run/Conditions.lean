import SearchScript.Proofs.Run.Stable
import SearchScript.Proofs.Run.Tandem

/-!
# Conditions change nothing

An expression assigns to nothing and declares nothing. As long as it calls no function of the
program, evaluating it for real changes no cell and no table; a function member is made, and the
host's recorder may note its arguments. So the condition of a loop can be left out of a speculative
run.

## Key results

- `Watched.Idle`: a watched step that changes nothing unless a function of the program is called
- `Watch.idles`: the expressions of a real run are idle
-/

namespace SearchScript

namespace Store.Grows

variable {st st' st'' : Store}

theorem refl (st : Store) : st.Grows st :=
  ⟨rfl, Nat.le_refl _, fun _ _ => rfl, Nat.le_refl _, fun _ _ => rfl⟩

theorem trans (h : st.Grows st') (h' : st'.Grows st'') : st.Grows st'' where
  hosts := h'.hosts.trans h.hosts
  slots_size := Nat.le_trans h.slots_size h'.slots_size
  slots slot hslot :=
    (h'.slots slot (Nat.lt_of_lt_of_le hslot h.slots_size)).trans (h.slots slot hslot)
  tables_size := Nat.le_trans h.tables_size h'.tables_size
  tables table htable :=
    (h'.tables table (Nat.lt_of_lt_of_le htable h.tables_size)).trans (h.tables table htable)

theorem newFunction (h : st.Grows st') (callable : Callable) :
    st.Grows (st'.newFunction callable).2 := { h with }

theorem record (h : st.Grows st') (values : List Value) :
    st.Grows { st' with recorded := values } := { h with }

end Store.Grows

/-- Whether a step keeps the cells and tables of a store. -/
abbrev Run.Grows {α : Type} (step : Run α) : Prop :=
  ∀ st : Store, Run.Kept st.Grows (fun _ => True) step

/-- Whether a watched step keeps the cells and tables unless it calls a function of the program. -/
def Watched.Idle {α : Type} (step : Watched α) : Prop :=
  ∀ ⦃st r st'⦄, (step st).2 = some (r, st') → (∀ event ∈ (step st).1, event.calls = false) →
    st.Grows st'

namespace Watched

variable {α β : Type}

theorem idle_lift {step : Run α} (h : step.Grows) : Idle (lift step) :=
  fun st _ _ heq _ => (h st (.refl st) heq).1

theorem idle_pure (a : α) : Idle (pure a : Watched α) := by
  rintro st r st' ⟨⟩ -
  exact .refl st

theorem idle_noteIf (reason : Bool) (event : Event) : Idle (noteIf reason event) := by
  rintro st r st' ⟨⟩ -
  exact .refl st

theorem Idle.bind {step : Watched α} {next : α → Watched β} (h : Idle step)
    (hn : ∀ a, Idle (next a)) : Idle (step >>= next) := by
  intro st r st' heq hcalls
  change (Watched.bind step next st).2 = _ at heq
  change ∀ event ∈ (Watched.bind step next st).1, _ at hcalls
  unfold Watched.bind at heq hcalls
  split at heq
  · cases heq
  · next events a st₁ hstep =>
    simp only [hstep, List.forall_mem_append] at hcalls
    exact (h (congrArg Prod.snd hstep) (by rw [hstep]; exact hcalls.1)).trans
      (hn a heq hcalls.2)
  · next events s st₁ hstep =>
    simp only [hstep] at hcalls
    cases heq
    exact h (congrArg Prod.snd hstep) (by rw [hstep]; exact hcalls)

end Watched

namespace Walk

open Run (kept_read kept_ofAnswer)

/-- The functions that are not made by a program change nothing, but for the recorder's notes. -/
theorem grows_apply {fuel : Nat} {args : List Value} {callable : Callable}
    (h : ∀ closure, callable ≠ .closure closure) (h' : ∀ q items, callable ≠ .quantifier q items) :
    (apply (fuel + 1) .real callable args).Grows := by
  intro st
  cases callable with
  | text => exact kept_read.bind fun _ => kept_ofAnswer fun _ => trivial
  | holds => exact kept_holds fun _ => trivial
  | quantifier q items => exact absurd rfl (h' q items)
  | closure closure => exact absurd rfl (h closure)
  | recorder => exact kept_record fun _ values h => h.record values

variable {S : Setting} {level : Level}

/-- A name is found in a real run without a change. -/
theorem name_realContext {span : Span} {text : String} {σ : Store} :
    name (S.realContext level) span text σ = match level.value? S σ text with
      | some v => some (.ok v, σ)
      | none => some (.error (.fail (.noSuchValue text)), σ) := by
  have hresolve : σ.resolve? (S.realContext level).env text =
      (level.value? S σ text).map (·, σ) := level.resolveThrough_realFrames
  unfold name
  rw [hresolve]
  cases level.value? S σ text <;> rfl

theorem grows_name {span : Span} {text : String} :
    (name (S.realContext level) span text).Grows := by
  intro st σ hσ r σ' heq
  rw [name_realContext] at heq
  split at heq <;>
  · cases heq
    exact ⟨hσ, trivial⟩

end Walk

namespace Watch

open Watched Walk

open Run (kept_pure keeps_fail keeps_cutOff kept_read kept_ofValue)

variable {S : Setting}

/-- Whether the expressions that are evaluated with this fuel are idle. -/
structure Idles (S : Setting) (fuel : Nat) : Prop where
  expr : ∀ since level e, Idle (Watch.expr fuel since (S.realContext level) e)
  exprs : ∀ since level es, Idle (Watch.exprs fuel since (S.realContext level) es)
  call : ∀ callee args, Idle (Watch.call fuel callee args)
  apply : ∀ callable args, Idle (Watch.apply fuel callable args)
  quantify : ∀ quantifier callable items, Idle (Watch.quantify fuel quantifier callable items)

section

variable {fuel : Nat} (ih : Idles S fuel)
include ih

private theorem idle_expr (since : Nat) (level : Level) (e : Expr) :
    Idle (Watch.expr (fuel + 1) since (S.realContext level) e) := by
  cases e with
  | placeholder => exact idle_lift fun _ => keeps_fail trivial
  | name span text =>
    exact (idle_noteIf _ _).bind fun _ => idle_lift (@grows_name S level span text)
  | typeName | number | boolean | string | null => exact idle_lift fun _ => kept_pure
  | lambda | function => exact idle_lift fun _ => kept_makeClosure fun _ f h => h.newFunction f
  | unary _ op operand =>
    exact (ih.expr since level operand).bind fun _ =>
      idle_lift fun _ => kept_unary fun _ => trivial
  | ternary _ condition whenTrue whenFalse =>
    refine (ih.expr since level condition).bind fun _ =>
      (idle_lift fun _ => kept_read).bind fun _ =>
        (idle_lift fun _ => kept_ofValue fun _ => trivial).bind fun b => ?_
    cases b
    · exact ih.expr since level whenFalse
    · exact ih.expr since level whenTrue
  | binary _ op left right =>
    refine (ih.expr since level left).bind fun l => ?_
    split
    · exact (idle_noteIf true _).bind fun _ =>
        idle_lift fun _ => kept_namedMember (fun _ => trivial) fun _ f h => h.newFunction f
    · exact (ih.exprs since level right.arguments).bind fun args => ih.call l args
    · exact ih.expr since level right
    · exact (ih.expr since level right).bind fun _ => idle_lift fun _ => kept_binary fun _ => trivial

private theorem idle_apply (callable : Callable) (args : List Value) :
    Idle (Watch.apply (fuel + 1) callable args) := by
  cases callable with
  | quantifier quantifier items =>
    exact (idle_lift fun _ => kept_predicate fun _ => trivial).bind fun callable =>
      ih.quantify quantifier callable items
  | closure closure =>
    obtain ⟨⟨mode, run, env⟩, params, body⟩ := closure
    cases mode with
    | speculative => exact idle_lift fun _ => keeps_fail trivial
    | real =>
      -- the call is noted, so nothing is claimed
      intro st r st' heq hcalls
      have hmem : Event.call ∈ (Watch.apply (fuel + 1)
          (.closure ⟨⟨.real, run, env⟩, params, body⟩) args st).1 := by
        simp only [Watch.apply]
        exact List.mem_append_left _ (List.mem_singleton_self _)
      exact absurd (hcalls _ hmem) (by simp [Event.calls])
  | text | holds | recorder => exact idle_lift (grows_apply (by simp) (by simp))

end

/-- An expression of a real run keeps the cells and tables unless it calls a function of the
program. -/
theorem idles : ∀ fuel, Idles S fuel := by
  intro fuel
  induction fuel with
  | zero =>
    constructor <;> intros <;> exact idle_lift fun _ => keeps_cutOff
  | succ fuel ih =>
    constructor
    case expr => exact fun since level e => idle_expr ih since level e
    case exprs =>
      intro since level es
      cases es with
      | nil => exact idle_pure _
      | cons e rest =>
        exact (ih.expr since level e).bind fun _ => (ih.exprs since level rest).bind fun _ =>
          idle_pure _
    case call =>
      intro callee args
      -- only a function is applied; anything else that is called leaves the store as it is
      refine (idle_lift fun _ => kept_read).bind fun u => ?_
      split
      · exact ih.apply _ args
      · exact idle_lift fun _ => kept_convert fun _ => trivial
      · exact idle_lift fun _ => kept_findFile fun _ => trivial
      · exact idle_lift fun _ => keeps_fail trivial
    case apply => exact fun callable args => idle_apply ih callable args
    case quantify =>
      intro quantifier callable items
      cases items with
      | nil => exact idle_pure _
      | cons item rest =>
        refine (ih.apply callable [item]).bind fun _ =>
          (idle_lift fun _ => kept_predicateAnswer fun _ => trivial).bind fun b => ?_
        split
        · exact idle_pure _
        · exact ih.quantify quantifier callable rest

theorem idle_truth (fuel since : Nat) (level : Level) (e : Expr) :
    Idle (Watch.truth fuel since (S.realContext level) e) := by
  cases fuel with
  | zero => exact idle_lift fun _ => keeps_cutOff
  | succ fuel =>
    exact ((idles fuel).expr since level e).bind fun _ =>
      (idle_lift fun _ => kept_read).bind fun _ =>
        idle_lift fun _ => kept_ofValue fun _ => trivial

end Watch

end SearchScript
