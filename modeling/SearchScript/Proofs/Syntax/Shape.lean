import SearchScript.Proofs.Syntax.Nodes
import SearchScript.Token.Scan

/-!
# The shape of strict trees

The strict parser makes only some of the trees that the types allow: names are identifiers, nothing
is missing, only calls and assignments to names and their members are statements, and an `else`
belongs to the nearest `if`. Whether a tree has this shape is decided at each of its nodes from the
node and its direct parts.
-/

namespace SearchScript

/-- Whether a text is spelt like an identifier. -/
def isIdentifier (text : String) : Bool :=
  match text.toList with
  | c :: cs => Piece.startsWord c && cs.all Piece.continuesWord &&
      TokenKind.ofWord text == .identifier
  | [] => false

namespace Expr

/-- Whether an expression can stand alone; the empty list of arguments cannot. -/
def isOperand (e : Expr) : Bool := !e.isNoArguments

/-- Whether an expression is a call. -/
def isCall : Expr → Bool
  | binary _ .call _ _ => true
  | _ => false

/-- Whether an expression is a name with members, calls and subscripts behind it. -/
def isChain : Expr → Bool
  | name _ _ => true
  | binary _ .member left _ | binary _ .call left _ | binary _ .subscript left _ => left.isChain
  | _ => false

theorem isOperand_of_isChain {e : Expr} (h : e.isChain = true) : e.isOperand = true := by
  cases e <;> simp_all [isChain, isOperand, isNoArguments]

end Expr

namespace Statement

/-- Whether a statement is a block. -/
def isBlock : Statement → Bool
  | block _ _ => true
  | _ => false

/-- Whether a statement is an assignment or a call. -/
def isAssignment : Statement → Bool
  | expression _ _ | assign _ _ _ _ => true
  | _ => false

/-- Whether a statement is a declaration, an assignment or a call. -/
def isSimple : Statement → Bool
  | declare _ _ _ => true
  | s => s.isAssignment

theorem isSimple_of_isAssignment {s : Statement} (h : s.isAssignment = true) :
    s.isSimple = true := by
  unfold isSimple
  split
  · rfl
  · exact h

/-- Whether an `else` behind a statement would belong to an `if` inside it. -/
def endsOpen : Statement → Bool
  | branch _ _ _ none => true
  | branch _ _ _ (some whenFalse) => whenFalse.endsOpen
  | forLoop _ _ _ _ body | whileLoop _ _ body => body.endsOpen
  | _ => false

end Statement

namespace Code

/-- Whether a node and its direct parts stand as the strict parser makes them. -/
def isShaped : Code → Bool
  | .expression (.placeholder _) => false
  | .expression (.name _ text) => isIdentifier text
  | .expression (.unary _ _ operand) => operand.isOperand
  | .expression (.binary _ op left right) => left.isOperand && (op == .call || right.isOperand)
  | .expression (.ternary _ condition whenTrue whenFalse) =>
    condition.isOperand && whenTrue.isOperand && whenFalse.isOperand
  | .expression (.lambda _ params body) =>
    !params.isEmpty && params.all isIdentifier && body.isOperand
  | .expression (.function _ params body) => params.all isIdentifier && body.isBlock
  | .expression _ => true
  | .statement (.expression _ e) => e.isChain && e.isCall
  | .statement (.assign _ _ target value) => target.isChain && !target.isCall && value.isOperand
  | .statement (.declare _ name initializer) =>
    isIdentifier name && initializer.all Expr.isOperand
  | .statement (.leave _ value) => value.all Expr.isOperand
  | .statement (.branch _ condition whenTrue whenFalse) =>
    condition.isOperand && (whenFalse.isNone || !whenTrue.endsOpen)
  | .statement (.forLoop _ initializer condition iterator _) =>
    initializer.all Statement.isSimple && condition.all Expr.isOperand &&
      iterator.all Statement.isAssignment
  | .statement (.whileLoop _ condition _) => condition.isOperand
  | .statement _ => true

/-- Whether every node of a list is shaped. -/
def Shaped (nodes : List Code) : Prop := ∀ node ∈ nodes, node.isShaped = true

instance (nodes : List Code) : Decidable (Shaped nodes) :=
  inferInstanceAs (Decidable (∀ node ∈ nodes, node.isShaped = true))

theorem shaped_nil : Shaped [] := List.forall_mem_nil _

theorem shaped_append {as bs : List Code} : Shaped (as ++ bs) ↔ Shaped as ∧ Shaped bs :=
  List.forall_mem_append

theorem shaped_cons {node : Code} {nodes : List Code} :
    Shaped (node :: nodes) ↔ node.isShaped = true ∧ Shaped nodes :=
  List.forall_mem_cons

theorem isPlaceholder_of_isShaped {node : Code} (h : node.isShaped = true) :
    node.isPlaceholder = false := by
  unfold isPlaceholder
  split
  · simp [isShaped] at h
  · rfl

end Code

end SearchScript
