import SearchScript.Run.Outcome

/-!
# What a step of a run keeps

`Run.Keeps I S Q step` is a triple for steps: begun in a store with the invariant `I`, the step ends
in one, with a value of which `Q` holds or with a signal of which `S` holds. A run that is cut off
ends with nothing. There is one rule for each way to build a step.

## Key results

- `Run.Keeps.bind`: one step after the other
- `Run.Keeps.attempt`: a signal that becomes part of the result
-/

namespace SearchScript.Run

variable {α β : Type} {I : Store → Prop} {S : Signal → Prop} {P Q : α → Prop}

/-- Whether the value or the signal that a step ends with is of the kind that is asked for. -/
def Ends (S : Signal → Prop) (Q : α → Prop) : Except Signal α → Prop
  | .ok a => Q a
  | .error s => S s

/-- Whether a step keeps an invariant and ends as it should. -/
def Keeps (I : Store → Prop) (S : Signal → Prop) (Q : α → Prop) (step : Run α) : Prop :=
  ∀ ⦃st⦄, I st → ∀ ⦃r st'⦄, step st = some (r, st') → I st' ∧ Ends S Q r

@[simp] theorem pure_bind (a : α) (next : α → Run β) : (Pure.pure a >>= next) = next a := rfl

/-- Going on by ending changes nothing. -/
theorem bind_pure (step : Run α) : (step >>= fun a => Pure.pure a) = step := by
  funext st
  change Run.bind step _ st = _
  unfold Run.bind
  cases step st with
  | none => rfl
  | some p => rcases p with ⟨_ | _, _⟩ <;> rfl

theorem bind_bind {γ : Type} (step : Run α) (next : α → Run β) (last : β → Run γ) :
    ((step >>= next) >>= last) = (step >>= fun a => next a >>= last) := by
  funext st
  change Run.bind (Run.bind step next) last st = Run.bind step (fun a => Run.bind (next a) last) st
  unfold Run.bind
  cases step st with
  | none => rfl
  | some p => rcases p with ⟨_ | _, _⟩ <;> rfl

theorem read_bind (f : Store → α) (next : α → Run β) :
    (read f >>= next) = fun st => next (f st) st := rfl

theorem bind_of_ok {step : Run α} {next : α → Run β} {st st' : Store} {a : α}
    (h : step st = some (.ok a, st')) : (step >>= next) st = next a st' := by
  change Run.bind step next st = _
  simp only [Run.bind, h]

theorem bind_of_none {step : Run α} {next : α → Run β} {st : Store} (h : step st = none) :
    (step >>= next) st = none := by
  change Run.bind step next st = _
  simp only [Run.bind, h]

theorem bind_of_error {step : Run α} {next : α → Run β} {st st' : Store} {s : Signal}
    (h : step st = some (.error s, st')) : (step >>= next) st = some (.error s, st') := by
  change Run.bind step next st = _
  simp only [Run.bind, h]

/-- A sequence of steps ends with a value if both do. -/
theorem of_bind_eq_ok {step : Run α} {next : α → Run β} {st st' : Store} {b : β}
    (h : (step >>= next) st = some (.ok b, st')) :
    ∃ a st₁, step st = some (.ok a, st₁) ∧ next a st₁ = some (.ok b, st') := by
  change Run.bind step next st = _ at h
  unfold Run.bind at h
  split at h
  · cases h
  · next a st₁ hstep => exact ⟨a, st₁, hstep, h⟩
  · cases h

/-- A sequence of steps ends with a signal if one of them does. -/
theorem of_bind_eq_error {step : Run α} {next : α → Run β} {st st' : Store} {s : Signal}
    (h : (step >>= next) st = some (.error s, st')) :
    step st = some (.error s, st') ∨
      ∃ a st₁, step st = some (.ok a, st₁) ∧ next a st₁ = some (.error s, st') := by
  change Run.bind step next st = _ at h
  unfold Run.bind at h
  split at h
  · cases h
  · next a st₁ hstep => exact .inr ⟨a, st₁, hstep, h⟩
  · next hstep =>
    cases h
    exact .inl hstep

theorem of_ofValue_eq_ok {x : Except ValueError α} {st st' : Store} {a : α}
    (h : ofValue x st = some (.ok a, st')) : x = .ok a ∧ st' = st := by
  cases x <;> cases h
  exact ⟨rfl, rfl⟩

theorem attempt_eq_some {step : Run α} {st st' : Store} {r : Except Signal (Except Signal α)}
    (h : attempt step st = some (r, st')) : ∃ r', r = .ok r' ∧ step st = some (r', st') := by
  unfold attempt at h
  split at h
  · cases h
  · next hstep =>
    cases h
    exact ⟨_, rfl, hstep⟩

theorem attempt_of_none {step : Run α} {st : Store} (h : step st = none) :
    attempt step st = none := by
  simp only [attempt, h]

theorem attempt_of_some {step : Run α} {st st' : Store} {r : Except Signal α}
    (h : step st = some (r, st')) : attempt step st = some (.ok r, st') := by
  simp only [attempt, h]

theorem keeps_pure {a : α} (h : Q a) : Keeps I S Q (Pure.pure a) := by
  rintro st hI r st' ⟨⟩
  exact ⟨hI, h⟩

theorem keeps_cutOff : Keeps I S Q (cutOff : Run α) := by
  rintro st hI r st' ⟨⟩

theorem keeps_raise {s : Signal} (h : S s) : Keeps I S Q (raise s : Run α) := by
  rintro st hI r st' ⟨⟩
  exact ⟨hI, h⟩

theorem keeps_fail {e : RunError} (h : S (.fail e)) : Keeps I S Q (fail e : Run α) :=
  keeps_raise h

theorem Keeps.bind {R : β → Prop} {step : Run α} {next : α → Run β} (hs : Keeps I S Q step)
    (hn : ∀ a, Q a → Keeps I S R (next a)) : Keeps I S R (step >>= next) := by
  intro st hI r st' h
  change Run.bind step next st = _ at h
  unfold Run.bind at h
  split at h
  · cases h
  · next a st₁ heq =>
    obtain ⟨hI₁, ha⟩ := hs hI heq
    exact hn a ha hI₁ h
  · next s st₁ heq =>
    obtain ⟨hI₁, hS⟩ := hs hI heq
    cases h
    exact ⟨hI₁, hS⟩

theorem keeps_ofAnswer {x : Except RunError α} (ha : ∀ a, x = .ok a → Q a)
    (he : ∀ e, S (.fail e)) : Keeps I S Q (ofAnswer x) := by
  cases x with
  | ok a => exact keeps_pure (ha a rfl)
  | error e => exact keeps_fail (he e)

theorem keeps_ofValue {x : Except ValueError α} (ha : ∀ a, x = .ok a → Q a)
    (he : ∀ e, S (.fail e)) : Keeps I S Q (ofValue x) := by
  cases x with
  | ok a => exact keeps_pure (ha a rfl)
  | error e => exact keeps_fail (he (.value e))

theorem keeps_read {f : Store → α} (h : ∀ st, I st → Q (f st)) : Keeps I S Q (read f) := by
  rintro st hI r st' ⟨⟩
  exact ⟨hI, h st hI⟩

theorem keeps_update {f : Store → α × Store} (h : ∀ st, I st → Q (f st).1 ∧ I (f st).2) :
    Keeps I S Q (update f) := by
  rintro st hI r st' ⟨⟩
  obtain ⟨ha, hI'⟩ := h st hI
  exact ⟨hI', ha⟩

theorem keeps_modify {f : Store → Store} {Q : Unit → Prop} (h : ∀ st, I st → I (f st))
    (hQ : Q ()) : Keeps I S Q (modify f) := by
  rintro st hI r st' ⟨⟩
  exact ⟨h st hI, hQ⟩

theorem Keeps.attempt {S' : Signal → Prop} {step : Run α} (h : Keeps I S Q step) :
    Keeps I S' (Ends S Q) (Run.attempt step) := by
  intro st hI r st' heq
  unfold Run.attempt at heq
  split at heq
  · cases heq
  · next r₁ st₁ hstep =>
    cases heq
    exact h hI hstep

end SearchScript.Run
