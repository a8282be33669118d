import SearchScript.Value.Basic

/-!
# The nodes of a syntax tree

Every expression and every statement of a tree, the tree itself first. A property of all parts of a
program is a property of its nodes.
-/

namespace SearchScript

mutual

/-- The nodes of an expression. -/
def Expr.nodes (e : Expr) : List Code :=
  .expression e :: match e with
  | .placeholder _ | .name _ _ | .typeName _ _ | .number _ _ | .boolean _ _ | .string _ _
  | .null _ => []
  | .unary _ _ operand => operand.nodes
  | .binary _ _ left right => left.nodes ++ right.nodes
  | .ternary _ condition whenTrue whenFalse =>
    condition.nodes ++ (whenTrue.nodes ++ whenFalse.nodes)
  | .lambda _ _ body => body.nodes
  | .function _ _ body => body.nodes
termination_by structural e

/-- The nodes of a statement. -/
def Statement.nodes (s : Statement) : List Code :=
  .statement s :: match s with
  | .expression _ value => value.nodes
  | .assign _ _ target value => target.nodes ++ value.nodes
  | .declare _ _ initializer => Expr.optionNodes initializer
  | .leave _ value => Expr.optionNodes value
  | .breakLoop _ | .continueLoop _ | .empty _ => []
  | .block _ body => Statement.listNodes body
  | .branch _ condition whenTrue whenFalse =>
    condition.nodes ++ (whenTrue.nodes ++ Statement.optionNodes whenFalse)
  | .forLoop _ initializer condition iterator body =>
    Statement.optionNodes initializer ++ (Expr.optionNodes condition ++
      (Statement.optionNodes iterator ++ body.nodes))
  | .whileLoop _ condition body => condition.nodes ++ body.nodes
termination_by structural s

/-- The nodes of statements. -/
def Statement.listNodes : List Statement → List Code
  | [] => []
  | s :: rest => s.nodes ++ Statement.listNodes rest
termination_by structural ss => ss

/-- The nodes of an optional statement. -/
def Statement.optionNodes : Option Statement → List Code
  | none => []
  | some s => s.nodes
termination_by structural s => s

/-- The nodes of an optional expression. -/
def Expr.optionNodes : Option Expr → List Code
  | none => []
  | some e => e.nodes
termination_by structural e => e

end

namespace Code

/-- The nodes of a program. -/
def nodes : Code → List Code
  | .expression e => e.nodes
  | .statement s => s.nodes

/-- The span that a node was read from. -/
def span : Code → Span
  | .expression e => e.span
  | .statement s => s.span

/-- Whether a node is neither a loop nor a function nor the name of the function that looks files
up. -/
def isStraight : Code → Bool
  | .expression (.lambda _ _ _) | .expression (.function _ _ _) => false
  | .expression (.name _ name) => name != "File"
  | .statement (.forLoop _ _ _ _ _) | .statement (.whileLoop _ _ _) => false
  | _ => true

/-- Whether a node is an expression that is missing. -/
def isPlaceholder : Code → Bool
  | .expression (.placeholder _) => true
  | _ => false

/-- The body of the functions that a node makes. -/
def functionBody? : Code → Option Code
  | .expression (.lambda _ _ body) => some (.expression body)
  | .expression (.function _ _ body) => some (.statement body)
  | _ => none

/-! ## Nodes of nodes -/

/-- Whether nodes come with their own nodes. -/
def Closed (nodes : List Code) : Prop := ∀ node ∈ nodes, node.nodes ⊆ nodes

theorem closed_nil : Closed [] := List.forall_mem_nil _

theorem closed_append {as bs : List Code} (ha : Closed as) (hb : Closed bs) :
    Closed (as ++ bs) := by
  intro node h
  rcases List.mem_append.1 h with h | h
  · exact List.subset_append_of_subset_left bs (ha node h)
  · exact List.subset_append_of_subset_right as (hb node h)

theorem closed_cons {node : Code} {parts : List Code} (hnode : node.nodes = node :: parts)
    (h : Closed parts) : Closed (node :: parts) := by
  intro other hother
  rcases List.mem_cons.1 hother with rfl | hother
  · rw [hnode]
    exact List.Subset.refl _
  · exact List.subset_cons_of_subset node (h other hother)

end Code

open Code

mutual

theorem Expr.closed_nodes : ∀ e : Expr, Closed e.nodes
  | .placeholder _ | .name _ _ | .typeName _ _ | .number _ _ | .boolean _ _ | .string _ _
  | .null _ => closed_cons rfl closed_nil
  | .unary _ _ operand => closed_cons rfl (Expr.closed_nodes operand)
  | .binary _ _ left right =>
    closed_cons rfl (closed_append (Expr.closed_nodes left) (Expr.closed_nodes right))
  | .ternary _ condition whenTrue whenFalse =>
    closed_cons rfl (closed_append (Expr.closed_nodes condition)
      (closed_append (Expr.closed_nodes whenTrue) (Expr.closed_nodes whenFalse)))
  | .lambda _ _ body => closed_cons rfl (Expr.closed_nodes body)
  | .function _ _ body => closed_cons rfl (Statement.closed_nodes body)
termination_by structural e => e

theorem Statement.closed_nodes : ∀ s : Statement, Closed s.nodes
  | .expression _ value => closed_cons rfl (Expr.closed_nodes value)
  | .assign _ _ target value =>
    closed_cons rfl (closed_append (Expr.closed_nodes target) (Expr.closed_nodes value))
  | .declare _ _ initializer => closed_cons rfl (Expr.closed_optionNodes initializer)
  | .leave _ value => closed_cons rfl (Expr.closed_optionNodes value)
  | .breakLoop _ | .continueLoop _ | .empty _ => closed_cons rfl closed_nil
  | .block _ body => closed_cons rfl (Statement.closed_listNodes body)
  | .branch _ condition whenTrue whenFalse =>
    closed_cons rfl (closed_append (Expr.closed_nodes condition)
      (closed_append (Statement.closed_nodes whenTrue) (Statement.closed_optionNodes whenFalse)))
  | .forLoop _ initializer condition iterator body =>
    closed_cons rfl (closed_append (Statement.closed_optionNodes initializer)
      (closed_append (Expr.closed_optionNodes condition)
        (closed_append (Statement.closed_optionNodes iterator) (Statement.closed_nodes body))))
  | .whileLoop _ condition body =>
    closed_cons rfl (closed_append (Expr.closed_nodes condition) (Statement.closed_nodes body))
termination_by structural s => s

theorem Statement.closed_listNodes : ∀ ss : List Statement, Closed (Statement.listNodes ss)
  | [] => closed_nil
  | s :: rest => closed_append (Statement.closed_nodes s) (Statement.closed_listNodes rest)
termination_by structural ss => ss

theorem Statement.closed_optionNodes : ∀ o : Option Statement, Closed (Statement.optionNodes o)
  | none => closed_nil
  | some s => Statement.closed_nodes s
termination_by structural o => o

theorem Expr.closed_optionNodes : ∀ o : Option Expr, Closed (Expr.optionNodes o)
  | none => closed_nil
  | some e => Expr.closed_nodes e
termination_by structural o => o

end

/-- The nodes of a part of a group are nodes of the group. -/
theorem Expr.nodes_subset_of_mem_parts {e part : Expr} (h : part ∈ e.parts) :
    part.nodes ⊆ e.nodes := by
  fun_induction Expr.parts e with
  | case1 span left right ihl ihr =>
    rw [show (Expr.binary span .group left right).nodes = _ :: (left.nodes ++ right.nodes) from rfl]
    refine List.subset_cons_of_subset _ ?_
    rcases List.mem_append.1 h with h | h
    · exact List.subset_append_of_subset_left _ (ihl h)
    · exact List.subset_append_of_subset_right _ (ihr h)
  | case2 e =>
    cases List.mem_singleton.1 h
    exact List.Subset.refl _

/-- A node of a node is a node. -/
theorem Code.closed_nodes : ∀ code : Code, Closed code.nodes
  | .expression e => e.closed_nodes
  | .statement s => s.closed_nodes

end SearchScript
