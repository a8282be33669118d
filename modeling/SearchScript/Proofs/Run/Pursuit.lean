import SearchScript.Proofs.Run.Conditions
import SearchScript.Proofs.Run.Operations
import SearchScript.Proofs.Run.Speculation
import SearchScript.Proofs.Run.Tandem.Calls
import SearchScript.Proofs.Run.Tandem.Names

/-!
# A speculative run pursues a real one

The speculative run of a program is compared with the watched real run, step by step, through calls
and loops. It goes in tandem with the real run up to the first departure, or up to an error that
only a real run has; or it stops before that, because it found completions. It cannot miss the
member access at the cursor: where the real run comes to it, the speculative one does too.

## Key definitions

- `Comes`: the real run comes to the member access at the cursor before it departs
- `Pursues`: the relation between the two runs

## Key results

- `Walk.pursued`: each part of a program is pursued
- `Code.pursues`: so is the whole program
-/

namespace SearchScript

/-- Whether a member access at the cursor happens before any departure. -/
def Comes (cursor : Nat) : List Event → Prop
  | [] => False
  | event :: events =>
    event.isAccessAt cursor ∨ event.departs = false ∧ Comes cursor events

theorem comes_append {cursor : Nat} {events later : List Event} :
    Comes cursor (events ++ later) ↔ Comes cursor events ∨
      (∀ event ∈ events, event.departs = false) ∧ Comes cursor later := by
  induction events with
  | nil => simp [Comes]
  | cons event events ih =>
    simp only [List.cons_append, Comes, ih, List.forall_mem_cons]
    tauto

/-- Events among which no member access stands do not come to one. -/
theorem not_comes {cursor : Nat} {events : List Event}
    (h : ∀ event ∈ events, ¬event.isAccessAt cursor) : ¬Comes cursor events := by
  induction events with
  | nil => exact id
  | cons event events ih =>
    obtain ⟨hevent, hevents⟩ := List.forall_mem_cons.1 h
    rintro (hcomes | ⟨-, hcomes⟩)
    · exact hevent hcomes
    · exact ih hevents hcomes

namespace Tandem

variable {S : Setting} {L : List Activation} {v w v' w' : Value}

theorem Same.faceless_eq (h : Same S L v w) : v.faceless = w.faceless := by
  cases h <;> rfl

theorem Same.binary_eq (h : Same S L v w) (h' : Same S L v' w') {op : BinaryOp} :
    Value.binary op v v' = Value.binary op w w' := by
  rw [← Value.binary_faceless, h.faceless_eq, h'.faceless_eq, Value.binary_faceless]

/-- What an operator makes is data. -/
theorem Same.isData_of_binary (h : Same S L v w) {op : BinaryOp} {u : Value}
    (hu : Value.binary op v v' = .ok u) : u.isData = true := by
  cases h with
  | data hv => exact Value.isData_of_binary_of_isData hv hu
  | function =>
    by_cases hop : op = .subscript <;> simp [Value.binary, Value.subscript, hop] at hu

end Tandem

/-- What is said about the later events holds of all. -/
theorem comes_after {cursor : Nat} {events later : List Event} {A B : Prop}
    (hcomes : ¬Comes cursor events)
    (h : A ∨ ¬Comes cursor later ∧ ((∃ event ∈ later, event.departs = true) ∨ B)) :
    A ∨ ¬Comes cursor (events ++ later) ∧
      ((∃ event ∈ events ++ later, event.departs = true) ∨ B) := by
  refine h.imp_right fun ⟨hlater, hend⟩ => ⟨fun h => ?_, hend.imp_left ?_⟩
  · rcases comes_append.1 h with h | ⟨-, h⟩
    · exact hcomes h
    · exact hlater h
  · rintro ⟨event, hmem, hevent⟩
    exact ⟨event, List.mem_append_right _ hmem, hevent⟩

/-- A departure in the earlier events is one of all. -/
theorem departed_append {cursor : Nat} {events later : List Event} (hcomes : ¬Comes cursor events)
    (h : ∃ event ∈ events, event.departs = true) :
    ¬Comes cursor (events ++ later) ∧ ∃ event ∈ events ++ later, event.departs = true := by
  obtain ⟨event, hmem, hevent⟩ := h
  refine ⟨fun h => ?_, event, List.mem_append_left _ hmem, hevent⟩
  rcases comes_append.1 h with h | ⟨hnone, -⟩
  · exact hcomes h
  · exact absurd (hnone event hmem) (by simp [hevent])

open Tandem

/-- Whether a real step and a speculative step are left for the same reason. -/
def SignalsAlike (S : Setting) (L : List Activation) : Signal → Signal → Prop
  | .leave v, .leave w => Same S L v w
  | .breakLoop, .breakLoop => True
  | .continueLoop, .continueLoop => True
  | .fail e, .fail e' => e = e'
  | _, _ => False

/-- Whether a real step and a speculative step end in the same way. -/
def EndsAlike {α β : Type} (S : Setting) (L : List Activation) (Q : α → β → Prop) :
    Except Signal α → Except Signal β → Prop
  | .ok a, .ok b => Q a b
  | .error s, .error s' => SignalsAlike S L s s'
  | _, _ => False

/-- Whether a real step fails with an error that a speculative run need not have. -/
def Excused {α : Type} (r : Except Signal α) : Prop :=
  ∃ e, r = .error (.fail e) ∧ e.isRealOnly = true

/-- Whether a speculative step pursues a real one: from stores in tandem, the trail being no shorter
than `W`, it finds completions; or the real step does not come to the cursor, and unless it departs,
the other one ends in the same way and in tandem. -/
def Pursues {α β : Type} (S : Setting) (L : List Activation) (W : List Copy)
    (Q : List Copy → α → β → Prop) (real : Watched α) (speculative : Run β) : Prop :=
  ∀ ⦃W₁ σ τ⦄, W <+: W₁ → Tandem S L W₁ σ τ →
    (S.beyond = false ∧ ∃ found τ', speculative τ = some (.error (.suggest found), τ')) ∨
    ¬Comes S.cursor (real σ).1 ∧ ((∃ event ∈ (real σ).1, event.departs = true) ∨
      ∀ ⦃r σ'⦄, (real σ).2 = some (r, σ') → Excused r ∨
        ∃ r' τ' W', speculative τ = some (r', τ') ∧ W₁ <+: W' ∧ Tandem S L W' σ' τ' ∧
          EndsAlike S L (Q W') r r')

namespace Pursues

variable {α β γ δ : Type} {S : Setting} {L : List Activation} {W : List Copy}
  {Q : List Copy → α → β → Prop} {R : List Copy → γ → δ → Prop} {v w : Value}

/-! ## Steps one after the other -/

/-- The events of a step that is followed by another one. -/
theorem events_bind (step : Watched α) (next : α → Watched γ) (st : Store) :
    (step >>= next) st = match step st with
      | (events, none) => (events, none)
      | (events, some (.ok a, st)) => (events ++ (next a st).1, (next a st).2)
      | (events, some (.error s, st)) => (events, some (.error s, st)) := rfl

theorem bind {x : Watched α} {y : Run β} {f : α → Watched γ} {g : β → Run δ}
    (h : Pursues S L W Q x y)
    (hn : ∀ W', W <+: W' → ∀ a b, Q W' a b → Pursues S L W' R (f a) (g b)) :
    Pursues S L W R (x >>= f) (y >>= g) := by
  intro W₁ σ τ hW ht
  have hg : ∀ τ, (y >>= g) τ = Run.bind y g τ := fun _ => rfl
  simp only [hg, Run.bind]
  rcases h hW ht with ⟨hbeyond, found, τ', hy⟩ | ⟨hcomes, hend⟩
  · exact .inl ⟨hbeyond, found, τ', by rw [hy]⟩
  rw [events_bind]
  generalize x σ = p at hcomes hend ⊢
  obtain ⟨events, _ | ⟨s | a, σ₁⟩⟩ := p
  · -- the real step was cut off
    refine .inr ⟨hcomes, hend.imp_right fun _ r σ' hr => by cases hr⟩
  · refine .inr ⟨hcomes, hend.imp_right fun hend r σ' hr => ?_⟩
    cases hr
    rcases hend rfl with ⟨e, he, hreal⟩ | ⟨r', τ', W', hy, hW', ht', halike⟩
    · cases he
      exact .inl ⟨e, rfl, hreal⟩
    · cases r' with
      | ok b => cases halike
      | error s' => exact .inr ⟨.error s', τ', W', by rw [hy], hW', ht', halike⟩
  -- the real step came to a value; whether it departs already decides if the next one has to be
  -- followed
  · by_cases hdeparts : ∃ event ∈ events, event.departs = true
    · obtain ⟨hcomes', hdeparts'⟩ := departed_append hcomes hdeparts
      exact .inr ⟨hcomes', .inl hdeparts'⟩
    obtain ⟨e, he, -⟩ | ⟨r', τ', W', hy, hW', ht', halike⟩ := (hend.resolve_left hdeparts) rfl
    · cases he
    cases r' with
    | error s => cases halike
    | ok b =>
      rw [hy]
      refine comes_after hcomes <| (hn W' (hW.trans hW') a b halike (List.prefix_refl W') ht').imp_right
        fun hnext => hnext.imp_right fun hend => hend.imp_right fun hend r σ' hr => ?_
      rcases hend hr with hr | ⟨r', τ'', W'', hg, hW'', ht'', halike'⟩
      · exact .inl hr
      · exact .inr ⟨r', τ'', W'', hg, hW'.trans hW'', ht'', halike'⟩

/-- A step in which nothing is noted. -/
theorem lift {x : Run α} {y : Run β}
    (h : ∀ ⦃W₁ σ τ⦄, W <+: W₁ → Tandem S L W₁ σ τ → ∀ ⦃r σ'⦄, x σ = some (r, σ') →
      Excused r ∨ ∃ r' τ' W', y τ = some (r', τ') ∧ W₁ <+: W' ∧ Tandem S L W' σ' τ' ∧
        EndsAlike S L (Q W') r r') :
    Pursues S L W Q (Watched.lift x) y :=
  fun _ _ _ hW ht => .inr ⟨id, .inr (h hW ht)⟩

theorem pure {a : α} {b : β} (h : ∀ W', W <+: W' → Q W' a b) :
    Pursues S L W Q (Pure.pure a : Watched α) (Pure.pure b : Run β) :=
  lift (x := fun st => some (.ok a, st)) fun W₁ σ τ hW ht r σ' hr => by
    cases hr
    exact .inr ⟨_, _, W₁, rfl, List.prefix_refl W₁, ht, h W₁ hW⟩

theorem raise {s s' : Signal} (h : SignalsAlike S L s s') :
    Pursues S L W Q (Watched.lift (Run.raise s) : Watched α) (Run.raise s' : Run β) :=
  lift fun W₁ σ τ hW ht r σ' hr => by
    cases hr
    exact .inr ⟨_, _, W₁, rfl, List.prefix_refl W₁, ht, h⟩

theorem fail {e : RunError} :
    Pursues S L W Q (Watched.lift (Run.fail e) : Watched α) (Run.fail e : Run β) :=
  raise rfl

/-- A step that is followed by another one without anything noted. -/
theorem lift_bind {x : Run α} {y : Run β} {f : α → Run γ} {g : β → Run δ}
    (h : Pursues S L W Q (Watched.lift x) y)
    (hn : ∀ W', W <+: W' → ∀ a b, Q W' a b →
      Pursues S L W' R (Watched.lift (f a)) (g b)) :
    Pursues S L W R (Watched.lift (x >>= f)) (y >>= g) := by
  have heq : Watched.lift (x >>= f) = Watched.lift x >>= fun a => Watched.lift (f a) := by
    funext st
    rw [events_bind]
    change ([], Run.bind x f st) = _
    unfold Run.bind Watched.lift
    rcases x st with _ | ⟨_ | _, _⟩ <;> rfl
  rw [heq]
  exact h.bind hn

theorem lift_pure {a : α} {b : β} (h : ∀ W', W <+: W' → Q W' a b) :
    Pursues S L W Q (Watched.lift (Pure.pure a)) (Pure.pure b : Run β) :=
  Pursues.pure h

theorem cutOff {y : Run β} : Pursues S L W Q (Watched.lift Run.cutOff) y :=
  lift fun _ _ _ _ _ _ _ hr => by cases hr

theorem ofAnswer {Q : List Copy → α → α → Prop} {x y : Except RunError α} (hxy : x = y)
    (h : ∀ a, x = .ok a → ∀ W', Q W' a a) :
    Pursues S L W Q (Watched.lift (Run.ofAnswer x)) (Run.ofAnswer y) := by
  subst hxy
  cases x with
  | ok a => exact lift_pure fun W' _ => h a rfl W'
  | error e => exact fail

theorem ofValue {Q : List Copy → α → α → Prop} {x y : Except ValueError α} (hxy : x = y)
    (h : ∀ a, x = .ok a → ∀ W', Q W' a a) :
    Pursues S L W Q (Watched.lift (Run.ofValue x)) (Run.ofValue y) := by
  subst hxy
  cases x with
  | ok a => exact lift_pure fun W' _ => h a rfl W'
  | error e => exact fail

/-- Reading gives the same value. -/
theorem snapshot (hv : Image S L W v w) :
    Pursues S L W (fun _ => Same S L) (Watched.lift (Run.snapshot v)) (Run.snapshot w) :=
  lift fun W₁ σ τ hW ht r σ' hr => by
    cases hr
    exact .inr ⟨_, _, W₁, rfl, List.prefix_refl W₁, ht, ht.snapshot (hv.mono hW)⟩

/-- An operation that reads its operand first. -/
theorem withSnapshot {f : Value → Run γ} {g : Value → Run δ} (hv : Image S L W v w)
    (h : ∀ W' u u', Same S L u u' → Pursues S L W' R (Watched.lift (f u)) (g u')) :
    Pursues S L W R (Watched.lift (Run.snapshot v >>= f)) (Run.snapshot w >>= g) :=
  (snapshot hv).lift_bind fun W' _ u u' hu => h W' u u' hu

/-! ## Events -/

/-- An event that is neither a departure nor a member access at the cursor. -/
theorem note_bind {event : Event} {f : Unit → Watched γ} {y : Run δ}
    (haccess : ¬event.isAccessAt S.cursor) (h : Pursues S L W R (f ()) y) :
    Pursues S L W R (Watched.note event >>= f) y := by
  intro W₁ σ τ hW ht
  have heq : (Watched.note event >>= f) σ = (event :: (f () σ).1, (f () σ).2) := rfl
  rw [heq]
  rcases h hW ht with hfound | ⟨hcomes, hend⟩
  · exact .inl hfound
  · refine .inr ⟨?_, hend.imp_left fun ⟨e, hmem, he⟩ => ⟨e, List.mem_cons_of_mem _ hmem, he⟩⟩
    rintro (h | ⟨-, h⟩)
    · exact haccess h
    · exact hcomes h

/-- After a departure nothing is asked for. -/
theorem departure {event : Event} {f : Unit → Watched γ} {y : Run δ}
    (haccess : ¬event.isAccessAt S.cursor) (hdeparts : event.departs = true) :
    Pursues S L W R (Watched.note event >>= f) y := by
  intro W₁ σ τ hW ht
  have heq : (Watched.note event >>= f) σ = (event :: (f () σ).1, (f () σ).2) := rfl
  rw [heq]
  refine .inr ⟨?_, .inl ⟨event, List.mem_cons_self, hdeparts⟩⟩
  rintro (h | ⟨h, -⟩)
  · exact haccess h
  · exact absurd (hdeparts.symm.trans h) (by simp)

/-- A departure that is noted only if there is reason to. -/
theorem noteIf_bind {reason : Bool} {event : Event} {f : Unit → Watched γ} {y : Run δ}
    (haccess : ¬event.isAccessAt S.cursor) (hdeparts : event.departs = true)
    (h : reason = false → Pursues S L W R (f ()) y) :
    Pursues S L W R (Watched.noteIf reason event >>= f) y := by
  cases reason with
  | true => exact departure haccess hdeparts
  | false =>
    have heq : (Watched.noteIf false event >>= f) = f () := rfl
    rw [heq]
    exact h rfl

/-- The condition of a loop is left out of a speculative run. -/
theorem header_bind {x : Watched α} {f : α → Watched γ} {y : Run δ} (hidle : x.Idle)
    (h : ∀ a, Pursues S L W R (f a) y) : Pursues S L W R (Watched.header x >>= f) y := by
  intro W₁ σ τ hW ht
  -- what happens in a header is noted as such and is no access
  have haccess : ∀ event ∈ (Watched.header x σ).1, ¬event.isAccessAt S.cursor := by
    intro event hmem
    unfold Watched.header at hmem
    rcases List.mem_append.1 hmem with hmem | hmem
    · obtain ⟨e, -, rfl⟩ := List.mem_map.1 hmem
      exact id
    · split at hmem
      · cases List.mem_singleton.1 hmem
        exact id
      · cases hmem
  have hcomes := not_comes haccess
  by_cases hdeparts : ∃ event ∈ (Watched.header x σ).1, event.departs = true
  · -- the condition calls a function, or it is left by a signal
    rw [events_bind]
    generalize Watched.header x σ = p at hcomes hdeparts ⊢
    obtain ⟨events, _ | ⟨s | a, σ₁⟩⟩ := p
    · exact .inr ⟨hcomes, .inl hdeparts⟩
    · exact .inr ⟨hcomes, .inl hdeparts⟩
    · obtain ⟨hcomes', hdeparts'⟩ := departed_append hcomes hdeparts
      exact .inr ⟨hcomes', .inl hdeparts'⟩
  -- the condition only adds to the store, which the speculative run does not see
  · have hnone : ∀ event ∈ (Watched.header x σ).1, event.departs = false := fun event hmem =>
      Bool.eq_false_iff.2 fun hevent => hdeparts ⟨event, hmem, hevent⟩
    have hcalls : ∀ event ∈ (x σ).1, event.calls = false := fun event hmem =>
      hnone (.header event) (List.mem_append_left _ (List.mem_map_of_mem hmem))
    have hleft : Watched.isLeft (x σ).2 = false := by
      cases hleft : Watched.isLeft (x σ).2 with
      | false => rfl
      | true => exact absurd (hnone .headerFailed (by simp [Watched.header, hleft])) nofun
    have hkeep : ∀ {r σ'}, (x σ).2 = some (r, σ') → σ.Grows σ' := fun hr => hidle hr hcalls
    rw [events_bind]
    rw [← show (Watched.header x σ).2 = (x σ).2 from rfl] at hleft hkeep
    generalize Watched.header x σ = p at hcomes hleft hkeep ⊢
    obtain ⟨events, _ | ⟨s | a, σ₁⟩⟩ := p
    · exact .inr ⟨hcomes, .inr fun r σ' hr => by cases hr⟩
    · cases hleft
    · exact comes_after hcomes (h a hW (ht.grow (hkeep rfl)))

/-- A step whose signal is looked at: what ends the real run is passed on, and so are the
completions that are found. -/
theorem attempt_bind {x : Watched α} {y : Run β} {f : Except Signal α → Watched γ}
    {g : Except Signal β → Run δ} (h : Pursues S L W Q x y)
    (hsuggest : ∀ found τ, g (.error (.suggest found)) τ = some (.error (.suggest found), τ))
    (hfail : ∀ e σ, f (.error (.fail e)) σ = ([], some (.error (.fail e), σ)))
    (hn : ∀ W', W <+: W' → ∀ r r', EndsAlike S L (Q W') r r' → Pursues S L W' R (f r) (g r')) :
    Pursues S L W R (Watched.attempt x >>= f) (Run.attempt y >>= g) := by
  intro W₁ σ τ hW ht
  have hg : ∀ τ, (Run.attempt y >>= g) τ = Run.bind (Run.attempt y) g τ := fun _ => rfl
  simp only [hg, Run.bind, Run.attempt]
  rcases h hW ht with ⟨hbeyond, found, τ', hy⟩ | ⟨hcomes, hend⟩
  · exact .inl ⟨hbeyond, found, τ', by simp only [hy, hsuggest]⟩
  rw [events_bind]
  simp only [Watched.attempt]
  generalize x σ = p at hcomes hend ⊢
  obtain ⟨events, _ | ⟨r, σ₁⟩⟩ := p
  · exact .inr ⟨hcomes, hend.imp_right fun _ r σ' hr => by cases hr⟩
  simp only [Option.map_some]
  -- unless the step departs, its outcome is handed on, a signal like a value
  by_cases hdeparts : ∃ event ∈ events, event.departs = true
  · obtain ⟨hcomes', hdeparts'⟩ := departed_append hcomes hdeparts
    exact .inr ⟨hcomes', .inl hdeparts'⟩
  rcases (hend.resolve_left hdeparts) rfl with ⟨e, rfl, hreal⟩ | ⟨r', τ', W', hy, hW', ht', halike⟩
  · simp only [hfail, List.append_nil]
    refine .inr ⟨hcomes, .inr fun r σ' hr => ?_⟩
    cases hr
    exact .inl ⟨e, rfl, hreal⟩
  · simp only [hy]
    refine comes_after hcomes <| (hn W' (hW.trans hW') r r' halike (List.prefix_refl W') ht').imp_right
      fun hnext => hnext.imp_right fun hend => hend.imp_right fun hend r σ' hr => ?_
    rcases hend hr with hr | ⟨r', τ'', W'', hg, hW'', ht'', halike'⟩
    · exact .inl hr
    · exact .inr ⟨r', τ'', W'', hg, hW'.trans hW'', ht'', halike'⟩

/-- The body of a loop is run once: what comes after it in the real run is not pursued. -/
theorem oneRound {x : Watched Value} {y : Run Value} {again : Watched Value}
    {Q : List Copy → Value → Value → Prop} (h : Pursues S L W Q x y)
    (hagain : ∀ W', W <+: W' → Pursues S L W' (fun W' => Image S L W') again
      (Pure.pure .null : Run Value)) :
    Pursues S L W (fun W' => Image S L W')
      (Watched.attempt x >>= fun result => Watch.afterBody result again)
      (Run.attempt y >>= fun
        | .ok _ | .error .breakLoop | .error .continueLoop => Pure.pure .null
        | .error s => Run.raise s) := by
  refine h.attempt_bind (fun _ _ => rfl) (fun _ _ => rfl) fun W' hW r r' halike => ?_
  rcases r with s | v <;> rcases r' with s' | w
  · cases s <;> cases s' <;> try exact halike.elim
    · exact raise halike
    · exact pure fun _ _ => .of_isData rfl
    · exact hagain W' hW
    · exact raise halike
  · exact halike.elim
  · exact halike.elim
  · exact hagain W' hW

end Pursues

/-- Whether an activation is the one that runs now. -/
structure Innermost (L : List Activation) (depth : Nat) (act : Activation) : Prop where
  get : L[depth]? = some act
  length : L.length = depth + 1

namespace Setting

variable {S : Setting} {as bs : List Code} {node : Code}

theorem plain_append : S.Plain (as ++ bs) ↔ S.Plain as ∧ S.Plain bs := List.forall_mem_append

theorem plain_cons : S.Plain (node :: bs) ↔ (node.isPlaceholder = false ∧
    (S.beyond = true → node.span.stop < S.cursor)) ∧ S.Plain bs :=
  List.forall_mem_cons

end Setting

end SearchScript
