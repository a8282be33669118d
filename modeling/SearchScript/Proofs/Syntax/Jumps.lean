import SearchScript.Proofs.Syntax.Nodes

/-!
# Jumps and their loops

A break or a continue belongs to the innermost loop whose body it stands in. A statement jumps out
if it has one that stands in the body of no loop of its own; what stands in functions does not
count, since a function is no part of the loops around it.

## Key definitions

- `Statement.jumpsOut`: whether a statement has a jump that belongs to no loop of its own
- `Code.JumpsArePlaced`: whether all jumps of a program stand in the body of a loop
-/

namespace SearchScript

/-- The jumps that belong to a loop. -/
inductive Jump where
  | breakLoop
  | continueLoop
deriving DecidableEq, Repr

mutual

/-- Whether a statement has a jump that stands in the body of no loop of its own. The other parts of
a loop are not in its body. -/
def Statement.jumpsOut (jump : Jump) (s : Statement) : Bool :=
  match s with
  | .breakLoop _ => jump = .breakLoop
  | .continueLoop _ => jump = .continueLoop
  | .block _ body => Statement.anyJumpsOut jump body
  | .branch _ _ whenTrue whenFalse =>
    whenTrue.jumpsOut jump || Statement.optionJumpsOut jump whenFalse
  | .forLoop _ initializer _ iterator _ =>
    Statement.optionJumpsOut jump initializer || Statement.optionJumpsOut jump iterator
  | .expression _ _ | .assign _ _ _ _ | .declare _ _ _ | .leave _ _ | .whileLoop _ _ _
  | .empty _ => false
termination_by structural s

/-- Whether one of some statements has a jump that stands in the body of no loop of its own. -/
def Statement.anyJumpsOut (jump : Jump) : List Statement → Bool
  | [] => false
  | s :: rest => s.jumpsOut jump || Statement.anyJumpsOut jump rest
termination_by structural ss => ss

/-- Whether an optional statement has a jump that stands in the body of no loop of its own. -/
def Statement.optionJumpsOut (jump : Jump) : Option Statement → Bool
  | none => false
  | some s => s.jumpsOut jump
termination_by structural s => s

end

namespace Code

/-- Whether a program has a jump that stands in the body of no loop of it; an expression has none
but in functions. -/
def jumpsOut (jump : Jump) : Code → Bool
  | .expression _ => false
  | .statement s => s.jumpsOut jump

/-- Whether no jump of a program leads out of it. -/
def IsClosed (code : Code) : Prop := ∀ jump, code.jumpsOut jump = false

instance (code : Code) : Decidable code.IsClosed :=
  decidable_of_iff (code.jumpsOut .breakLoop = false ∧ code.jumpsOut .continueLoop = false)
    ⟨fun h jump => by cases jump <;> simp [h], fun h => ⟨h _, h _⟩⟩

/-- Whether every break and continue of a program lies in the body of a loop of the same function,
or of the program itself outside of all functions. -/
def JumpsArePlaced (code : Code) : Prop :=
  code.IsClosed ∧ ∀ node ∈ code.nodes, ∀ body, node.functionBody? = some body → body.IsClosed

instance (node : Code) :
    Decidable (∀ body, node.functionBody? = some body → body.IsClosed) :=
  match node.functionBody? with
  | none => .isTrue fun _ h => nomatch h
  | some body => decidable_of_iff body.IsClosed
      ⟨fun hbody _ h => Option.some.inj h ▸ hbody, fun h => h body rfl⟩

instance (code : Code) : Decidable code.JumpsArePlaced :=
  inferInstanceAs (Decidable (_ ∧ _))

end Code

end SearchScript
