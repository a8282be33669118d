import SearchScript.Proofs.Completion.Ranking
import SearchScript.Proofs.Run.Stops
import SearchScript.Run.Program

/-!
# What completions offer

A run that looks for completions and finds some stopped at a name that cannot be looked up, or at a
member access. At a name it offers what can be looked up there in its stead; at a member access it
offers the members that the left operand has.

## Key definitions

- `Completion.Names`: what is offered at a name, for the environment and the store there
- `Completion.Members`: what is offered at a member access, for the value of the left operand

## Key results

- `Code.complete_offers`: the completions of a program are of one of the two kinds
-/

namespace SearchScript

open Relation (ReflTransGen)

namespace Store

variable {st : Store} {host : Nat} {env : Env} {name : String}

theorem mem_namesThrough_of_resolveThrough {frames : List Frame} (hname : name ≠ "File")
    (h : (st.resolveThrough host name frames).isSome = true) :
    name ∈ st.namesThrough host frames := by
  induction frames with
  | nil =>
    rw [resolveThrough, Option.isSome_map] at h
    rw [namesThrough, mem_mergeNames, ← Table.isSome_find?, ← Table.isSome_find?]
    -- at the host a name is a local one or a global one, as it is not the built-in function
    by_cases hlocals : ((st.hosts[host]?.getD {}).locals.find? name).isSome = true
    · exact .inl hlocals
    · right
      rw [Bool.not_eq_true, Option.isSome_eq_false_iff, Option.isNone_iff_eq_none] at hlocals
      simp only [hostValue?, Host.find?, hlocals, if_neg hname] at h
      cases hglobals : (st.hosts[host]?.getD {}).globals.find? name with
      | some v => rfl
      | none =>
        rw [hglobals] at h
        cases h
  | cons frame outer ih =>
    rw [namesThrough, mem_mergeNames, ← Table.isSome_find?]
    unfold resolveThrough at h
    cases hfind : (st.table frame).find? name with
    | some v => exact .inl rfl
    | none =>
      right
      apply ih
      rw [hfind] at h
      cases hres : st.resolveThrough host name outer with
      | some found => rfl
      | none =>
        rw [hres] at h
        cases hkind : frame.kind <;> rw [hkind] at h <;> cases h

/-- Every name but one can be looked up in an environment if and only if it is listed for it. -/
theorem mem_visibleNames_iff (hname : name ≠ "File") :
    name ∈ st.visibleNames env ↔ (st.resolve? env name).isSome = true :=
  ⟨isSome_resolve?, mem_namesThrough_of_resolveThrough hname⟩

end Store

/-! ## The two kinds of completions -/

/-- What is offered at a name: different names that contain what was typed, those that start with it
first, and that can be looked up. Only the built-in name is left out. -/
structure Completion.Names (st : Store) (env : Env) (typed : String) (names : List String) :
    Prop where
  nodup : names.Nodup
  contains : ∀ name ∈ names, typedText typed <:+: name.toList
  prefixFirst : ∃ front back, names = front ++ back ∧
    (∀ name ∈ front, typedText typed <+: name.toList) ∧
    ∀ name ∈ back, ¬typedText typed <+: name.toList
  resolves : ∀ name ∈ names, (st.resolve? env name).isSome = true
  complete : ∀ name ≠ "File", (st.resolve? env name).isSome = true →
    typedText typed <:+: name.toList → name ∈ names

/-- Whether an expression behind a point suits a member: if it is a name, the member contains it. -/
def Expr.Suits (name : String) : Expr → Prop
  | .name _ typed => typedText typed <:+: name.toList
  | _ => True

/-- What is offered at a member access: the different names of the members of a value that suit what
was typed. -/
structure Completion.Members (v : Value) (right : Expr) (names : List String) : Prop where
  nodup : names.Nodup
  mem_iff : ∀ name, name ∈ names ↔ (∃ member, v.memberOf name = .ok member) ∧ right.Suits name

theorem Completion.names_visibleNames {st : Store} (hst : st.Sorted) (env : Env) (typed : String) :
    Completion.Names st env typed (rankChoices typed (st.visibleNames env)) where
  nodup := nodup_rankChoices (hst.nodup_visibleNames env)
  contains _ h := (mem_rankChoices.1 h).2
  prefixFirst := rankChoices_split typed _
  resolves _ h := Store.isSome_resolve? (mem_rankChoices.1 h).1
  complete _ hname hres hcontains :=
    mem_rankChoices.2 ⟨(Store.mem_visibleNames_iff hname).2 hres, hcontains⟩

theorem Completion.members_offeredMembers (v : Value) (right : Expr) :
    Completion.Members v right (Walk.offeredMembers v right) := by
  cases right with
  | name _ typed =>
    refine ⟨nodup_rankChoices v.nodup_memberNames, fun name => ?_⟩
    rw [← Value.mem_memberNames_iff_memberOf]
    exact mem_rankChoices
  | _ =>
    refine ⟨v.nodup_memberNames, fun name => ?_⟩
    rw [← Value.mem_memberNames_iff_memberOf]
    exact (and_iff_left trivial).symm

/-! ## Whole runs -/

namespace Code

variable {fuel cursor : Nat} {env : Env} {code : Code} {st st' : Store} {found : Suggestions}

/-- An evaluation leaves the tables in order. -/
theorem sorted_of_evaluate {result : Except RunError Value} (hst : st.Sorted)
    (h : code.evaluate fuel env st = some (result, st')) : st'.Sorted := by
  have hopened : (st.beginRun.2.openFrame st.runs .scope [] env).2.Sorted :=
    hst.beginRun.openFrame st.runs .scope List.Pairwise.nil env
  unfold evaluate at h
  dsimp only at h
  split at h
  · cases h
  · next hcode =>
    have hrun := ((Walk.kept Store.sorted_stable fuel).code _ code).store hopened hcode
    split at h <;> cases h <;> exact hrun.endRun

/-- Looking for completions leaves the tables in order. -/
theorem sorted_of_complete {result : Except RunError (Option Suggestions)} (hst : st.Sorted)
    (h : code.complete fuel env cursor st = some (result, st')) : st'.Sorted := by
  have hspeculate (ctx : Context) :
      Run.Kept Store.Sorted (fun _ => True) (speculate fuel ctx code) :=
    (Walk.kept_behindShadow Store.sorted_stable).bind fun root =>
      Walk.kept_settleSpeculative ((Walk.kept Store.sorted_stable fuel).code root code)
  unfold complete at h
  dsimp only at h
  split at h
  · cases h
  all_goals
    next hrun =>
    cases h
    exact ((hspeculate _).store hst.beginRun hrun).endRun

/-- Completions are found by the walk behind the shadow of the run. -/
theorem stops_of_complete (h : code.complete fuel env cursor st = some (.ok (some found), st')) :
    ∃ ctx st₀, Walk.behindShadow ⟨.speculative cursor, st.beginRun.1, env⟩ st.beginRun.2 =
        some (.ok ctx, st₀) ∧
      Walk.Stops (.ofCode ctx code, st₀) found := by
  unfold complete at h
  dsimp only at h
  split at h
  · cases h
  · next found' st₁ hspeculate =>
    cases h
    rcases Run.of_bind_eq_error hspeculate with h | ⟨ctx, st₀, hshadow, h⟩
    · cases h
    · have hmode : ctx.mode ≠ .real := by
        cases hshadow
        simp
      exact ⟨ctx, st₀, hshadow, (Walk.traced fuel).code hmode (Walk.code_of_settleSpeculative h)⟩
  · cases h
  · cases h

/-- The completions that a run finds are those at one expression that it comes to, in the
environment and the store that it has there. The expression is a name that cannot be looked up, and
what is offered can be; or it is a member access, and what is offered are the members of the value
of its left operand. -/
theorem complete_offers (hst : st.Sorted)
    (h : code.complete fuel env cursor st = some (.ok (some found), st')) :
    ∃ root st₀ ctx e st₁,
      Walk.behindShadow ⟨.speculative cursor, st.beginRun.1, env⟩ st.beginRun.2 =
        some (.ok root, st₀) ∧
      ReflTransGen Walk.Leads (.ofCode root code, st₀) (.expr ctx e, st₁) ∧
      ((∃ typed, e = .name found.span typed ∧ st₁.resolve? ctx.env typed = none ∧
          Completion.Names st₁ ctx.env typed found.names) ∨
        ∃ span left right n v st₂, e = .binary span .member left right ∧
          Walk.expr n ctx left st₁ = some (.ok v, st₂) ∧ found.span = right.span ∧
          Completion.Members (st₂.snapshot v) right found.names) := by
  obtain ⟨root, st₀, hshadow, ⟨stop, st₁⟩, hreaches, hoffers⟩ := stops_of_complete h
  have hst₀ : st₀.Sorted :=
    Run.Kept.store (Walk.kept_behindShadow Store.sorted_stable) hst.beginRun hshadow
  have hst₁ : st₁.Sorted := Walk.kept_of_reaches Store.sorted_stable hreaches hst₀
  cases hoffers with
  | name _ _ hres =>
    refine ⟨root, st₀, _, _, st₁, hshadow, hreaches, .inl ⟨_, rfl, hres, ?_⟩⟩
    exact Completion.names_visibleNames hst₁ _ _
  | member _ hleft =>
    refine ⟨root, st₀, _, _, st₁, hshadow, hreaches, .inr ⟨_, _, _, _, _, _, rfl, hleft, rfl, ?_⟩⟩
    exact Completion.members_offeredMembers _ _

/-- In a block that declares `rate`, the names that contain `ra` are offered for it: `rate` from the
shadow of the run, and two names of the host. -/
theorem complete_offers_of_block :
    let st : Store :=
      { hosts := #[{ globals := [("grade", .null), ("hash", .null), ("rank", .null)] }] }
    let code : Code := .statement (.block ⟨0, 20⟩
      [.declare ⟨1, 14⟩ "rate" none, .expression ⟨14, 17⟩ (.name ⟨14, 16⟩ "ra")])
    let names := ["rate", "rank", "grade"]
    ∃ st', code.complete 10 ⟨[], 0⟩ 16 st = some (.ok (some ⟨names, ⟨14, 16⟩⟩), st') ∧
      ∃ root st₀ ctx e st₁,
        Walk.behindShadow ⟨.speculative 16, st.beginRun.1, ⟨[], 0⟩⟩ st.beginRun.2 =
          some (.ok root, st₀) ∧
        ReflTransGen Walk.Leads (.ofCode root code, st₀) (.expr ctx e, st₁) ∧
        ((∃ typed, e = .name ⟨14, 16⟩ typed ∧ st₁.resolve? ctx.env typed = none ∧
            Completion.Names st₁ ctx.env typed names) ∨
          ∃ span left right n v st₂, e = .binary span .member left right ∧
            Walk.expr n ctx left st₁ = some (.ok v, st₂) ∧ ⟨14, 16⟩ = right.span ∧
            Completion.Members (st₂.snapshot v) right names) := by
  intro st code names
  have hst : st.Sorted := by
    constructor
    · intro table hmem
      cases Array.not_mem_empty table hmem
    · intro host hmem
      obtain rfl := Array.mem_singleton.1 hmem
      exact ⟨List.Pairwise.nil, by decide⟩
  have hfound : (code.complete 10 ⟨[], 0⟩ 16 st).map Prod.fst =
      some (.ok (some ⟨names, ⟨14, 16⟩⟩)) := by decide
  obtain ⟨⟨found, st'⟩, h, rfl⟩ := Option.map_eq_some_iff.1 hfound
  exact ⟨st', h, complete_offers hst h⟩

end Code

end SearchScript
