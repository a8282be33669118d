import SearchScript.Proofs.Run.Pursuit

/-!
# The steps of programs are pursued

What a run does at names and members, operators, assignments and declarations, and in functions that
are not made by the program: each of these steps of the real run is pursued by the same step of the
speculative one, except that the latter stops at the cursor.

## Key results

- `Walk.pursues_name`, `Walk.pursues_member`: the two places where completions are found
- `Walk.pursues_assign`: an assignment, unless it writes to what is older than the call
- `Walk.pursues_declare`: a declaration
-/

namespace SearchScript

open Tandem

namespace Walk

open Pursues

variable {S : Setting} {L : List Activation} {W : List Copy} {v w u u' : Value} {depth : Nat}
  {act : Activation} {vs ws : List Value}

/-! ## Names and members -/

theorem pursues_name (hact : Innermost L depth act) {span : Span} {text : String}
    (hname : text ≠ "File") (hspan : S.beyond = true → span.stop < S.cursor) :
    Pursues S L W (Image S L) (Watched.lift (name (S.realContext act.level) span text))
      (name (S.shadowContext act.level) span text) := by
  intro W₁ σ τ hW ht
  have howner : L.length - 1 = depth := by rw [hact.length, Nat.add_sub_cancel]
  have hreal : Watched.lift (name (S.realContext act.level) span text) σ =
      ([], name (S.realContext act.level) span text σ) := rfl
  rw [hreal, name_realContext]
  unfold name
  rcases ht.resolveThrough hname hact.get with
    ⟨v, i, τ', W', hv, hτ, hW', ht', hi, -⟩ | ⟨hv, hτ⟩
  · have hτ : τ.resolve? (S.shadowContext act.level).env text =
        some (.cell (S.firstSlot + i), τ') := hτ
    rw [hv, hτ]
    refine .inr ⟨id, .inr fun r σ' hr => ?_⟩
    cases hr
    exact .inr ⟨_, τ', W', rfl, hW', ht', .inr ⟨i, rfl, howner ▸ hi⟩⟩
  · have hτ : τ.resolve? (S.shadowContext act.level).env text = none := hτ
    rw [hv, hτ]
    -- a name that stands for nothing is completed at the cursor and fails elsewhere
    by_cases htouch : span.touches S.cursor = true
    · refine .inl ⟨Bool.eq_false_iff.2 fun hbeyond => ?_, _, τ, if_pos htouch⟩
      simp only [Span.touches, Bool.and_eq_true, decide_eq_true_eq] at htouch
      exact absurd (hspan hbeyond) (Nat.not_lt.2 htouch.2)
    · refine .inr ⟨id, .inr fun r σ' hr => ?_⟩
      cases hr
      exact .inr ⟨_, τ, W₁, if_neg htouch, List.prefix_refl W₁, ht, rfl⟩

theorem pursues_newFunction {callable callable' : Callable}
    (h : SameCallable S L callable callable') :
    Pursues S L W (Image S L) (Watched.lift (Run.update (·.newFunction callable)))
      (Run.update (·.newFunction callable')) :=
  lift fun W₁ σ τ hW ht r σ' hr => by
    cases hr
    refine .inr ⟨_, _, W₁, rfl, List.prefix_refl W₁, ?_, .inl (.function _ _ h)⟩
    have hgrows : σ.Grows (σ.newFunction callable).2 :=
      ⟨rfl, Nat.le_refl _, fun _ _ => rfl, Nat.le_refl _, fun _ _ => rfl⟩
    have hg := ht.grow hgrows
    exact ⟨{ hg.stack with }, { hg.ledger with },
      fun hact => { hg.names hact with free := fun hfree => (hg.names hact).free hfree }, hg.older⟩

theorem pursues_namedMember (hv : Image S L W v w) {right : Expr} :
    Pursues S L W (Image S L) (Watched.lift (namedMember v right)) (namedMember w right) := by
  unfold namedMember
  split
  · next text =>
    refine withSnapshot hv fun W' u u' hu => ?_
    have heq : u.memberOf text = u'.memberOf text := by
      rw [← Value.memberOf_faceless, hu.faceless_eq, Value.memberOf_faceless]
    refine lift_bind (Q := fun _ m m' => m = m' ∧ u.memberOf text = .ok m)
      (ofValue heq fun m hm _ => ⟨rfl, hm⟩) fun W'' _ m m' hm => ?_
    obtain ⟨rfl, hm⟩ := hm
    -- functions have no members
    have hdata : u.isData = true := by
      cases hu with
      | data hu => exact hu
      | function => cases hm
    unfold Value.memberOf at hm
    split at hm <;> cases hm
    next hfound =>
    rcases Value.isData_of_member? hdata hfound with ⟨x, rfl, hx⟩ | ⟨c, rfl, hc⟩
    · exact lift_pure fun _ _ => .of_isData hx
    · exact pursues_newFunction (.data hc)
  · exact fail

/-- A member access is looked up in both runs, or the speculative one stops there. -/
theorem pursues_member (hv : Image S L W v w) {left right : Expr} {level : Level}
    (hright : S.beyond = true → right.span.stop < S.cursor) :
    Pursues S L W (Image S L)
      (Watched.note (.access left right) >>= fun _ =>
        Watched.lift (member (S.realContext level) v left right))
      (member (S.shadowContext level) w left right) := by
  by_cases hin : left.span.stop ≤ S.cursor ∧ S.cursor ≤ right.span.stop
  · refine fun W₁ σ τ hW ht => .inl ⟨?_, ⟨offeredMembers (τ.snapshot w) right, right.span⟩, τ, ?_⟩
    · exact Bool.eq_false_iff.2 fun hbeyond => Nat.not_lt.2 hin.2 (hright hbeyond)
    · simp only [member, Setting.shadowContext, hin, and_self, if_true]
      rfl
  · refine note_bind hin ?_
    simp only [member, Setting.realContext, Setting.shadowContext, hin, if_false]
    exact pursues_namedMember hv

/-! ## Operators -/

theorem pursues_unary (hv : Image S L W v w) {op : UnaryOp} :
    Pursues S L W (Image S L) (Watched.lift (unary op v)) (unary op w) := by
  cases op with
  | plus => exact lift_pure fun _ hW => hv.mono hW
  | negate =>
    refine withSnapshot hv fun W' u u' hu => ofValue ?_ fun x hx _ => .of_isData ?_
    · rw [← Value.negate_faceless, hu.faceless_eq, Value.negate_faceless]
    · cases u <;> cases hx <;> rfl
  | not =>
    refine withSnapshot hv fun W' u u' hu => ofValue ?_ fun x hx _ => .of_isData ?_
    · rw [← Value.not_faceless, hu.faceless_eq, Value.not_faceless]
    · cases u <;> cases hx <;> rfl
  | bitNot =>
    refine withSnapshot hv fun W' u u' hu => ofValue ?_ fun x hx _ => .of_isData ?_
    · rw [← Value.bitNot_faceless, hu.faceless_eq, Value.bitNot_faceless]
    · cases u <;> cases hx <;> rfl

theorem pursues_binary (hv : Image S L W v w) (hu : Image S L W u u') {op : BinaryOp} :
    Pursues S L W (Image S L) (Watched.lift (binary op v u)) (binary op w u') :=
  (snapshot hv).lift_bind fun _ hW _ _ hl => withSnapshot (hu.mono hW) fun _ _ _ hr =>
    ofAnswer (hl.binary_eq hr) fun _ hx _ => .of_isData (hl.isData_of_binary hx)

theorem pursues_requireBoolean (hv : Same S L v w) :
    Pursues S L W (fun _ a b => a = b) (Watched.lift (Run.ofValue v.requireBoolean))
      (Run.ofValue w.requireBoolean) :=
  ofValue (by rw [← Value.requireBoolean_faceless, hv.faceless_eq, Value.requireBoolean_faceless])
    fun _ _ _ => rfl

theorem pursues_toBoolean (hv : Same S L v w) :
    Pursues S L W (fun _ a b => a = b) (Watched.lift (Run.ofValue v.toBoolean))
      (Run.ofValue w.toBoolean) :=
  ofValue (by rw [← Value.toBoolean_faceless, hv.faceless_eq, Value.toBoolean_faceless])
    fun _ _ _ => rfl

/-! ## Assignments and declarations -/

/-- An assignment is pursued if it is to a cell made since the call; only cells can be assigned
to. -/
theorem pursues_assign (hact : Innermost L depth act) (ht : Image S L W v w)
    (hu : Image S L W u u') :
    Pursues S L W (fun _ _ _ => True) (Watch.assign act.first v u) (assign w u') := by
  cases v with
  | cell slot =>
    refine noteIf_bind id rfl fun hold => lift fun W₁ σ τ hW htandem r σ' hr => ?_
    cases hr
    obtain ⟨τ', hτ, ht'⟩ := htandem.assign hact.get hact.length (ht.mono hW)
      (Nat.not_lt.1 (of_decide_eq_false hold)) (hu.mono hW)
    exact .inr ⟨.ok (), τ', W₁, by simp only [assign, hτ], List.prefix_refl W₁, ht', trivial⟩
  | _ =>
    refine noteIf_bind id rfl fun _ => lift fun W₁ σ τ hW htandem r σ' hr => ?_
    cases hr
    exact .inl ⟨_, rfl, rfl⟩

theorem pursues_declare (hact : Innermost L depth act) (hv : Image S L W v w) {text : String} :
    Pursues S L W (fun _ _ _ => True)
      (Watched.lift (Run.modify fun st =>
        let (cell, st) := st.newCell v
        st.bind (S.realContext act.level).env text cell))
      (Run.modify fun st =>
        let (cell, st) := st.newCell w
        st.bind (S.shadowContext act.level).env text cell) :=
  lift fun W₁ σ τ hW ht r σ' hr => by
    cases hr
    obtain ⟨outer, hreal⟩ := act.level.realFrames_eq (S := S)
    obtain ⟨outer', hshadow⟩ := act.level.shadowFrames_eq (S := S)
    have ht' := ht.declare hact.get hact.length (hv.mono hW) text
    refine .inr ⟨.ok (), _, W₁ ++ [⟨some (.cell σ.slots.size), depth⟩], rfl,
      List.prefix_append W₁ _, ?_, trivial⟩
    simpa only [Store.bind, Setting.realContext, Setting.shadowContext, hreal, hshadow] using ht'

/-! ## Functions that are not made by the program -/

theorem pursues_convert {type : TypeName} (h : List.Forall₂ (Image S L W) vs ws) :
    Pursues S L W (Image S L) (Watched.lift (convert type vs)) (convert type ws) := by
  cases h with
  | nil => cases type <;> exact fail
  | cons hv _ =>
    cases type with
    | boolean =>
      refine withSnapshot hv fun W' u u' hu => (pursues_toBoolean hu).lift_bind fun _ _ a b hab => ?_
      exact hab ▸ lift_pure fun _ _ => .of_isData rfl
    | number =>
      refine withSnapshot hv fun W' u u' hu =>
        lift_bind (Q := fun _ a b => a = b) (ofValue ?_ fun _ _ _ => rfl) fun _ _ a b hab => ?_
      · rw [← Value.toNumber_faceless, hu.faceless_eq, Value.toNumber_faceless]
      · exact hab ▸ lift_pure fun _ _ => .of_isData rfl
    | string =>
      refine withSnapshot hv fun W' u u' hu =>
        lift_bind (Q := fun _ a b => a = b) (ofValue ?_ fun _ _ _ => rfl) fun _ _ a b hab => ?_
      · rw [← Value.toText_faceless, hu.faceless_eq, Value.toText_faceless]
      · exact hab ▸ lift_pure fun _ _ => .of_isData rfl

/-- The values of arguments differ in nothing but functions. -/
theorem pursues_snapshots (h : List.Forall₂ (Image S L W) vs ws) :
    Pursues S L W (fun _ us us' => us.map Value.faceless = us'.map Value.faceless)
      (Watched.lift (Run.read fun st => vs.map st.snapshot))
      (Run.read fun st => ws.map st.snapshot) :=
  lift fun W₁ σ τ hW ht r σ' hr => by
    cases hr
    have hfaceless : (vs.map σ.snapshot).map Value.faceless =
        (ws.map τ.snapshot).map Value.faceless := by
      induction h with
      | nil => rfl
      | cons hv _ ih => simp only [List.map_cons, (ht.snapshot (hv.mono hW)).faceless_eq, ih]
    exact .inr ⟨_, _, W₁, rfl, List.prefix_refl W₁, ht, hfaceless⟩

theorem pursues_predicateAnswer (hv : Image S L W v w) :
    Pursues S L W (fun _ a b => a = b) (Watched.lift (predicateAnswer v)) (predicateAnswer w) := by
  refine withSnapshot hv fun W' u u' hu => ?_
  cases hu with
  | function => exact fail
  | data _ =>
    split
    · exact lift_pure fun _ _ => rfl
    · exact fail

theorem pursues_predicate {quantifier : Quantifier} (h : List.Forall₂ (Image S L W) vs ws) :
    Pursues S L W (fun _ => SameCallable S L) (Watched.lift (predicate quantifier vs))
      (predicate quantifier ws) := by
  cases h with
  | nil => exact fail
  | cons hv _ =>
    refine withSnapshot hv fun W' u u' hu => ?_
    cases hu with
    | function _ _ h => exact lift_pure fun _ _ => h
    | data hu =>
      refine ofValue rfl fun f hf _ => ?_
      cases u <;> cases hf
      cases hu

/-- The function members of data do the same in both runs. -/
theorem pursues_apply_data {fuel : Nat} {callable : Callable} (hdata : callable.isData = true)
    (hcallable : ∀ quantifier items, callable ≠ .quantifier quantifier items)
    (h : List.Forall₂ (Image S L W) vs ws) :
    Pursues S L W (Image S L) (Watched.lift (apply (fuel + 1) .real callable vs))
      (apply (fuel + 1) (.speculative S.cursor) callable ws) := by
  cases callable with
  | text receiver function =>
    refine (pursues_snapshots h).lift_bind fun W' _ us us' hus => ofAnswer ?_ fun x hx _ => ?_
    · rw [← Value.textFunction_faceless, hus, Value.textFunction_faceless]
    · exact .of_isData (Value.isData_of_textFunction hx)
  | holds items =>
    refine (pursues_snapshots h).lift_bind fun W' _ us us' hus => ?_
    refine lift_bind (Q := fun _ a b => a = b) (ofAnswer ?_ fun _ _ _ => rfl) fun _ _ a b hab => ?_
    · rw [← Value.stringArgument_faceless, hus, Value.stringArgument_faceless]
    · exact hab ▸ lift_pure fun _ _ => .of_isData rfl
  | quantifier quantifier items => exact absurd rfl (hcallable quantifier items)
  | closure | recorder => cases hdata

end Walk

end SearchScript
