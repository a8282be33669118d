import Mathlib.Algebra.GroupWithZero.Nat
import Mathlib.Algebra.Order.BigOperators.Group.List
import Mathlib.Algebra.Order.Group.Nat
import SearchScript.Proofs.Parse.Shape
import SearchScript.Proofs.Syntax.Words

/-!
# The size of trees

Trees are counted by their nodes and parameters. The loops of the parser go round no more often than
that, and each node and each parameter takes a token of its own when it is read.

## Key results

- `Expr.turns_lt_size`: the loop of the operators goes round at most once for each node
- `Reads.size_le`: what is read is no larger than the weight of the tokens it is read from
-/

namespace SearchScript

namespace Code

/-- The parameters of a function, or none. -/
def params : Code → List String
  | .expression (.lambda _ names _) | .expression (.function _ names _) => names
  | _ => []

/-- How many nodes there are, with their parameters. -/
def size (nodes : List Code) : Nat := (nodes.map fun node => 1 + node.params.length).sum

variable {node : Code} {nodes as bs : List Code}

@[simp] theorem size_nil : size [] = 0 := rfl

@[simp] theorem size_cons : size (node :: nodes) = 1 + node.params.length + size nodes := by
  simp [size]

@[simp] theorem size_append : size (as ++ bs) = size as + size bs := by
  simp [size]

end Code

open Code (size)

theorem Statement.one_le_size (s : Statement) : 1 ≤ size s.nodes := by
  cases s <;>
    · simp only [nodes, Code.size_cons]
      omega

theorem Statement.length_le_size (ss : List Statement) : ss.length ≤ size (listNodes ss) := by
  induction ss with
  | nil => exact Nat.le_refl 0
  | cons s ss ih =>
    have := s.one_le_size
    rw [listNodes, Code.size_append, List.length_cons]
    omega

/-- The loop of the operators goes round at most once for each node. -/
theorem Expr.turns_lt_size : ∀ e : Expr, e.turns < size e.nodes
  | .binary _ op left right => by
    have := turns_lt_size left
    simp only [turns, nodes, Code.size_cons, Code.size_append]
    split <;> omega
  | .ternary _ condition _ _ => by
    have := turns_lt_size condition
    simp only [turns, nodes, Code.size_cons, Code.size_append]
    split <;> omega
  | .unary _ _ operand => by
    have := turns_lt_size operand
    simp only [turns, nodes, Code.size_cons]
    omega
  | .placeholder _ | .name _ _ | .typeName _ _ | .number _ _ | .boolean _ _ | .string _ _
  | .null _ | .lambda _ _ _ | .function _ _ _ => by
    simp only [turns, nodes, Code.size_cons]
    omega
termination_by structural e => e

/-! ## What is read -/

namespace Parse

open Cursor

variable {p : Phrase} {c d : Cursor} {kind : TokenKind}

/-- The size of what was read. Parameters count with the token that ends them. -/
def Phrase.size : (p : Phrase) → p.Result → Nat
  | expr _, e | operators _ _ _ _, e | functionTail _, e | lambdaTail _, e | arguments, e =>
    Code.size e.nodes
  | operand, e? | condition, e? => Code.size (Expr.optionNodes e?)
  | prefixOperator _ _, .more e | operator _ _, .more e => Code.size e.nodes
  | prefixOperator _ _, .done | operator _ _, .done => 0
  | params _ _, names => names.length + 1
  | statements _, ss => Code.size (Statement.listNodes ss)
  | statement, s | simpleStatement, s | forTail _, s | block, s | declaration, s | assignment, s =>
    Code.size s.nodes
  | initializer, s? | iterator, s? => Code.size (Statement.optionNodes s?)
  | suffixes _ _ _, (e, _) => Code.size e.nodes

/-- The size of what a phrase continues. A call that is a statement lends a token from the semicolon
behind it. -/
def Phrase.given : Phrase → Nat
  | operators _ _ _ left? => Code.size (Expr.optionNodes left?)
  | operator _ left | suffixes _ left _ => Code.size left.nodes
  | declaration | assignment => 1
  | _ => 0

theorem size_of_atomOf? {t : Token} {e : Expr} (h : atomOf? t = some e) :
    Code.size e.nodes = 1 := by
  unfold atomOf? at h
  repeat' split at h
  all_goals
    cases h
    try simp [Expr.nodes, Code.params]

/-- What the strict rules read takes a token for each node and each parameter. -/
theorem Reads.size_le {r : p.Result} (h : Reads .strict p c r d) :
    p.size r + d.weight ≤ c.weight + p.given := by
  induction h with
  | operandAtom hn ha =>
    have := size_of_atomOf? ha
    have := weight_lt_of_next? hn
    simp only [Phrase.size, Phrase.given, Expr.optionNodes]
    omega
  | operatorsMissing _ _ hm => cases hm
  | assignmentMissing _ _ _ _ hm => cases hm
  | operatorsDone _ h =>
    have := h.weight.1
    simp only [Phrase.size, Phrase.given, Expr.optionNodes, weight_splitNegative] at *
    omega
  | _ =>
    simp only [Phrase.size, Phrase.given, Expr.join, Expr.nodes, Statement.nodes,
      Statement.listNodes, Statement.optionNodes, Expr.optionNodes, Statement.ofExpr,
      Code.size_cons, Code.size_append, Code.size_nil, Code.params, List.length_cons,
      List.length_nil, weight_splitNegative] at *
    grind [→ weight_lt_of_next?, → weight_lt_of_require_strict, → weight_lt_of_expect_strict]

/-- No keyword is a number. -/
theorem ofWord_ne_number (word : String) : TokenKind.ofWord word ≠ .number := by
  have hkeywords : ∀ entry ∈ TokenKind.keywords, entry.2 ≠ .number := by decide
  unfold TokenKind.ofWord
  cases h : TokenKind.keywords.lookup word with
  | none => decide
  | some kind =>
    obtain ⟨before, after, hk, -⟩ := List.lookup_eq_some_iff.1 h
    exact hkeywords (word, kind) (by simp [hk])

/-- A token is at most a minus and a number. -/
theorem tokenWeight_le_of_mem_scan {source : String} {tokens : List Token} {t : Token}
    (h : Token.scan source = .ok tokens) (ht : t ∈ tokens) : tokenWeight t ≤ 2 := by
  obtain ⟨a, rest, n, hc, htext, -⟩ := Token.of_mem_scan h ht
  unfold tokenWeight
  split
  case h_2 => decide
  case h_1 hk =>
    rw [hk] at hc
    rcases Piece.classify_eq_token hc with ⟨-, -, hof⟩ | ⟨-, rfl, -⟩ | ⟨-, -, ⟨⟩⟩ | ⟨ho, -⟩
    · exact absurd hof.symm (ofWord_ne_number _)
    · -- no second minus continues a number
      rw [htext, ← List.prefix_iff_eq_take.1 (List.takeWhile_prefix _)]
      have htail : ((rest.takeWhile Piece.continuesNumber).takeWhile (· == '-')) = [] := by
        cases rest with
        | nil => rfl
        | cons b bs =>
          by_cases hb : b = '-'
          · subst hb
            rfl
          · rw [List.takeWhile_cons]
            split <;> simp [hb]
      rw [List.takeWhile_cons]
      split <;> simp [htail]
    · exact absurd (Piece.operator?_eq_some ho).1 (by decide)

theorem weight_start {mode : ParseMode} {source : String} {tokens : List Token}
    (hscan : Token.scan source = .ok tokens) (h : start mode source = .ok c) :
    c.weight ≤ 2 * tokens.length := by
  have hle := List.sum_le_card_nsmul (tokens.map tokenWeight) 2 fun n hn => by
    obtain ⟨t, ht, rfl⟩ := List.mem_map.1 hn
    exact tokenWeight_le_of_mem_scan hscan ht
  rw [weight, rest_of_start hscan h]
  simpa [Nat.mul_comm] using hle

end Parse

variable {source : String} {tokens : List Token}

/-- A tree that is strictly read has at most two nodes for each token. -/
theorem Expr.size_le_of_parse {e : Expr} (hscan : Token.scan source = .ok tokens)
    (h : Expr.parse .strict source = .ok e) : size e.nodes ≤ 2 * tokens.length := by
  obtain ⟨c, d, hc, hr, -⟩ := parse_eq_ok_iff.1 h
  have hsize := hr.size_le
  have hweight := Parse.weight_start hscan hc
  simp only [Parse.Phrase.size, Parse.Phrase.given] at hsize
  omega

theorem Statement.size_le_of_parseScript {s : Statement} (hscan : Token.scan source = .ok tokens)
    (h : Statement.parseScript .strict source = .ok s) :
    size s.nodes ≤ 2 * tokens.length + 1 := by
  obtain ⟨c, body, d, hc, hr, -, rfl⟩ := parseScript_eq_ok_iff.1 h
  have hsize := hr.size_le
  have hweight := Parse.weight_start hscan hc
  simp only [Parse.Phrase.size, Parse.Phrase.given] at hsize
  simp only [nodes, Code.size_cons, Code.params, List.length_nil]
  omega

end SearchScript
