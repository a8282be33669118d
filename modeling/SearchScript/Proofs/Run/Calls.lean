import SearchScript.Proofs.Parse.Arguments
import SearchScript.Proofs.Parse.Unfinished
import SearchScript.Proofs.Run.Steps

/-!
# What a call passes

A call evaluates the parts of its argument expression from left to right and passes their values, in
both modes. For a call in a program that was read from a text these are the parts of the expressions
that are written between its parentheses: as many as there are expressions, unless one of them is a
group in parentheses of its own.

## Key definitions

- `Walk.Values`: the values of expressions, one evaluated after the other

## Key results

- `Walk.values_of_exprs`: what a call passes are the values of its argument expressions
- `Code.call_passes_parts`: the arguments of every call in a program that was read
-/

namespace SearchScript

namespace Walk

variable {ctx : Context} {fuel : Nat} {es : List Expr} {st st' : Store} {vs : List Value}

/-- The values of expressions, each evaluated on its own in the store that the ones in front of it
left. -/
inductive Values (ctx : Context) : List Expr → Store → List Value → Store → Prop
  | nil {st : Store} : Values ctx [] st [] st
  | cons {fuel : Nat} {e : Expr} {es : List Expr} {st st₁ st₂ : Store} {v : Value}
      {vs : List Value} : expr fuel ctx e st = some (.ok v, st₁) → Values ctx es st₁ vs st₂ →
      Values ctx (e :: es) st (v :: vs) st₂

theorem Values.length_eq (h : Values ctx es st vs st') : vs.length = es.length := by
  induction h with
  | nil => rfl
  | cons _ _ ih => rw [List.length_cons, List.length_cons, ih]

theorem values_of_exprs (h : exprs fuel ctx es st = some (.ok vs, st')) :
    Values ctx es st vs st' := by
  induction fuel generalizing es st vs with
  | zero => cases h
  | succ fuel ih =>
    cases es with
    | nil =>
      cases h
      exact .nil
    | cons e rest =>
      obtain ⟨v, st₁, he, h⟩ := Run.of_bind_eq_ok h
      obtain ⟨vs, st₂, hrest, h⟩ := Run.of_bind_eq_ok h
      cases h
      exact .cons he (ih hrest)

end Walk

namespace Code

open Parse

variable {isScript : Bool} {source : String} {code : Code} {tokens : List Token}

/-- The calls in a program that was read from a text have their arguments from the text. -/
theorem opened_of_parse (hparse : Code.parse .strict isScript source = .ok code)
    (hscan : Token.scan source = .ok tokens) : AllOpened .strict tokens code.nodes := by
  cases isScript with
  | false =>
    obtain ⟨e, he, rfl⟩ := Except.map_eq_ok_iff.1 hparse
    obtain ⟨c, d, hc, hr, -⟩ := Expr.parse_eq_ok_iff.1 he
    obtain rfl := start_strict hscan hc
    exact hr.opened (Cursor.drawn_ofTokens tokens) allOpened_nil
  | true =>
    obtain ⟨s, hs, rfl⟩ := Except.map_eq_ok_iff.1 hparse
    obtain ⟨c, body, d, hc, hr, -, rfl⟩ := Statement.parseScript_eq_ok_iff.1 hs
    obtain rfl := start_strict hscan hc
    exact allOpened_cons.2 ⟨trivial, hr.opened (Cursor.drawn_ofTokens tokens) allOpened_nil⟩

/-- The arguments of a call in a program that was read from a text stand behind an opening
parenthesis. Wherever they stand as a list of expressions with commas between them, the call passes
the values of the parts of these expressions, from left to right, in both modes. There are as many
of them as expressions if and only if no expression is a group. -/
theorem call_passes_parts (hparse : Code.parse .strict isScript source = .ok code)
    (hscan : Token.scan source = .ok tokens) {span : Span} {callee args : Expr}
    (hmem : .expression (.binary span .call callee args) ∈ code.nodes) :
    (∃ opening c d, opening.kind = .leftParen ∧ opening :: c.rest <:+ tokens ∧
      Reads .strict .arguments c args d) ∧
    ∀ opening c d es d', opening.kind = .leftParen → opening :: c.rest <:+ tokens →
      Reads .strict .arguments c args d → ListsArguments .strict c es d' →
        d = d' ∧ ∀ fuel ctx,
          (Walk.expr (fuel + 1) ctx (.binary span .call callee args) = do
            let f ← Walk.expr fuel ctx callee
            let vs ← Walk.exprs fuel ctx (es.flatMap Expr.parts)
            Walk.call fuel ctx.mode f vs) ∧
          ∀ st vs st', Walk.exprs fuel ctx (es.flatMap Expr.parts) st = some (.ok vs, st') →
            Walk.Values ctx (es.flatMap Expr.parts) st vs st' ∧
            (vs.length = es.length ↔ ∀ e ∈ es, e.isGroup = false) ∧
            ((∀ e ∈ es, e.isGroup = false) → Walk.Values ctx es st vs st') := by
  refine ⟨opened_of_parse hparse hscan _ hmem, ?_⟩
  intro opening c d es d' hopening hplace hread hes
  have hlexical : c.Lexical := fun t ht =>
    Cursor.isLexical_of_mem_scan hscan (hplace.subset (List.mem_cons_of_mem _ ht))
  -- the arguments are the parts of the list, whichever way the text is read
  obtain ⟨hargs, hend⟩ := hread.arguments_eq hlexical hes
  refine ⟨hend, fun fuel ctx => ⟨?_, fun st vs st' hvs => ?_⟩⟩
  · rw [← hargs]
    rfl
  · have hvalues := Walk.values_of_exprs hvs
    refine ⟨hvalues, ?_, fun hgroups => ?_⟩
    · rw [hvalues.length_eq]
      exact Expr.length_flatMap_parts es
    · rwa [Expr.flatMap_parts_of_isGroup hgroups] at hvalues

/-- The cursor behind the first parenthesis of `f((a, b))`. -/
def behindOpening : Cursor :=
  ⟨[⟨.leftParen, ⟨2, 3⟩, "("⟩, ⟨.identifier, ⟨3, 4⟩, "a"⟩, ⟨.comma, ⟨4, 5⟩, ","⟩,
    ⟨.identifier, ⟨6, 7⟩, "b"⟩, ⟨.rightParen, ⟨7, 8⟩, ")"⟩, ⟨.rightParen, ⟨8, 9⟩, ")"⟩], 9, ⟨1, 2⟩⟩

set_option maxRecDepth 10000 in
/-- A group in parentheses is one expression in the list, and passes two values. -/
theorem call_passes_parts_of_group :
    ∃ f a b c d, ListsArguments .strict c [.join .group a b] d ∧
      Code.parse .strict false "f((a, b))" =
        .ok (.expression (.join .call f (.join .group a b))) ∧
      ∀ fuel ctx,
        (Walk.expr (fuel + 1) ctx (.join .call f (.join .group a b)) = do
          let callee ← Walk.expr fuel ctx f
          let vs ← Walk.exprs fuel ctx [a, b]
          Walk.call fuel ctx.mode callee vs) ∧
        ∀ st vs st', Walk.exprs fuel ctx [a, b] st = some (.ok vs, st') →
          Walk.Values ctx [a, b] st vs st' ∧ vs.length ≠ 1 := by
  have hscan : Token.scan "f((a, b))" = .ok [⟨.identifier, ⟨0, 1⟩, "f"⟩, ⟨.leftParen, ⟨1, 2⟩, "("⟩,
      ⟨.leftParen, ⟨2, 3⟩, "("⟩, ⟨.identifier, ⟨3, 4⟩, "a"⟩, ⟨.comma, ⟨4, 5⟩, ","⟩,
      ⟨.identifier, ⟨6, 7⟩, "b"⟩, ⟨.rightParen, ⟨7, 8⟩, ")"⟩, ⟨.rightParen, ⟨8, 9⟩, ")"⟩] := by cbv
  have hparse : Code.parse .strict false "f((a, b))" = .ok (.expression (.join .call
      (.name ⟨0, 1⟩ "f") (.join .group (.name ⟨3, 4⟩ "a") (.name ⟨6, 7⟩ "b")))) := by cbv
  have hmem : .expression (.binary ⟨0, 7⟩ .call (.name ⟨0, 1⟩ "f")
      (.join .group (.name ⟨3, 4⟩ "a") (.name ⟨6, 7⟩ "b"))) ∈ Code.nodes (.expression (.join .call
      (.name ⟨0, 1⟩ "f") (.join .group (.name ⟨3, 4⟩ "a") (.name ⟨6, 7⟩ "b")))) :=
    List.mem_cons_self
  obtain ⟨-, hpasses⟩ := call_passes_parts hparse hscan hmem
  have hgroup : Reads .strict (.expr 2) behindOpening
      (.join .group (.name ⟨3, 4⟩ "a") (.name ⟨6, 7⟩ "b"))
      ⟨[⟨.rightParen, ⟨8, 9⟩, ")"⟩], 9, ⟨7, 8⟩⟩ := reads_of_read 40 (.expr 2) _ _ _ (by cbv)
  have hlist : ListsArguments .strict behindOpening
      [.join .group (.name ⟨3, 4⟩ "a") (.name ⟨6, 7⟩ "b")] ⟨[], 9, ⟨8, 9⟩⟩ :=
    .some (.last hgroup rfl rfl)
  have hread : Reads .strict .arguments behindOpening
      (.join .group (.name ⟨3, 4⟩ "a") (.name ⟨6, 7⟩ "b")) ⟨[], 9, ⟨8, 9⟩⟩ :=
    reads_of_read 40 .arguments _ _ _ (by cbv)
  obtain ⟨-, hpasses⟩ := hpasses ⟨.leftParen, ⟨1, 2⟩, "("⟩ behindOpening _ _ _ rfl
    (List.suffix_cons (⟨.identifier, ⟨0, 1⟩, "f"⟩ : Token) _) hread hlist
  refine ⟨_, _, _, behindOpening, _, hlist, hparse, fun fuel ctx => ⟨(hpasses fuel ctx).1, ?_⟩⟩
  intro st vs st' hvs
  obtain ⟨hvalues, hlength, -⟩ := (hpasses fuel ctx).2 st vs st' hvs
  refine ⟨hvalues, fun hone => ?_⟩
  exact absurd (hlength.1 hone _ List.mem_cons_self) (by decide)

end Code

end SearchScript
