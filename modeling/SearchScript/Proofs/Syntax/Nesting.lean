import SearchScript.Proofs.Syntax.Nodes
import Mathlib.Data.String.Basic

/-!
# Nested spans

What it means that the spans of a tree fit the text that it was read from: each lies in the text and
starts and ends between characters, those of the parts of a node lie inside its own, one behind the
other, and a name is what stands at its span.

Trees that were read one after the other lie in a row. A row is put together from shorter rows, and
a node whose parts are a row inside its span is a row of its own; so what holds of every tree is
proved node by node.

## Key definitions

- `Code.children`: the direct parts of a node, from left to right
- `Code.IsNested`: whether the span of a node fits the text and the spans of its parts
- `Code.Row`: whether trees lie in a row between two offsets, with all their nodes nested
-/

namespace SearchScript

/-- Whether an offset lies in a text and between two of its characters. -/
def IsBoundary (source : String) (offset : Nat) : Prop :=
  String.Pos.Raw.IsValid source ⟨offset⟩

/-- The text at a span. -/
def Span.slice (source : String) (s : Span) : String :=
  String.Pos.Raw.extract source ⟨s.start⟩ ⟨s.stop⟩

/-- Whether a text stands at a span of a source. -/
def Span.Spells (source : String) (s : Span) (text : String) : Prop :=
  ∃ head tail, source = head ++ text ++ tail ∧ s.start = head.utf8ByteSize ∧
    s.stop = head.utf8ByteSize + text.utf8ByteSize

/-- Whether a span lies inside another one. -/
def Span.Within (inner outer : Span) : Prop :=
  outer.start ≤ inner.start ∧ inner.stop ≤ outer.stop

/-- Whether a span lies in a text, its ends in order and between characters. -/
structure Span.InText (source : String) (s : Span) : Prop where
  ordered : s.start ≤ s.stop
  start : IsBoundary source s.start
  stop : IsBoundary source s.stop

namespace IsBoundary

variable {source : String} {offset a b : Nat}

theorem zero (source : String) : IsBoundary source 0 :=
  String.Pos.Raw.isValid_iff_exists_append.2 ⟨"", source, by simp, rfl⟩

/-- The end of the first of two parts of a text lies between characters. -/
theorem of_append (head tail : String) : IsBoundary (head ++ tail) head.utf8ByteSize :=
  String.Pos.Raw.isValid_iff_exists_append.2 ⟨head, tail, rfl, rfl⟩

theorem le_utf8ByteSize (h : IsBoundary source offset) : offset ≤ source.utf8ByteSize :=
  String.Pos.Raw.IsValid.le_utf8ByteSize h

theorem min (ha : IsBoundary source a) (hb : IsBoundary source b) :
    IsBoundary source (min a b) := by
  rcases Nat.le_total a b with h | h
  · rwa [Nat.min_eq_left h]
  · rwa [Nat.min_eq_right h]

theorem max (ha : IsBoundary source a) (hb : IsBoundary source b) :
    IsBoundary source (max a b) := by
  rcases Nat.le_total a b with h | h
  · rwa [Nat.max_eq_right h]
  · rwa [Nat.max_eq_left h]

end IsBoundary

namespace Span

variable {source : String} {s t : Span}

theorem InText.stop_le (h : s.InText source) : s.stop ≤ source.utf8ByteSize :=
  h.stop.le_utf8ByteSize

theorem InText.merge (hs : s.InText source) (ht : t.InText source) :
    (s.merge t).InText source where
  ordered := by
    have hs := hs.ordered
    simp only [start_merge, stop_merge]
    omega
  start := hs.start.min ht.start
  stop := hs.stop.max ht.stop

theorem InText.empty {offset : Nat} (h : IsBoundary source offset) :
    (Span.empty offset).InText source :=
  ⟨Nat.le_refl _, h, h⟩

theorem Spells.inText {text : String} (h : s.Spells source text) : s.InText source := by
  obtain ⟨head, tail, rfl, hstart, hstop⟩ := h
  refine ⟨by omega, ?_, ?_⟩
  · rw [hstart, String.append_assoc]
    exact .of_append head (text ++ tail)
  · rw [hstop, ← String.utf8ByteSize_append]
    exact .of_append (head ++ text) tail

/-- What stands at a span is cut out of the source there. -/
theorem Spells.slice_eq {text : String} (h : s.Spells source text) : s.slice source = text := by
  obtain ⟨head, tail, rfl, hstart, hstop⟩ := h
  have hcut := String.extract_of_valid head.toList text.toList tail.toList
  simp only [String.ofList_append, String.ofList_toList] at hcut
  have hlen : ∀ t : String, String.utf8Len t.toList = t.utf8ByteSize := fun t => by
    rw [← utf8Length_toList]
    induction t.toList with
    | nil => rfl
    | cons c cs ih => rw [String.utf8Len_cons, utf8Length_cons, ih, Nat.add_comm]
  rw [slice, hstart, hstop, ← hlen, ← hlen]
  exact hcut

/-- A text in two parts stands at two spans, one behind the other. -/
theorem Spells.split {a b : String} (h : s.Spells source (a ++ b)) :
    Spells source ⟨s.start, s.start + a.utf8ByteSize⟩ a ∧
      Spells source ⟨s.start + a.utf8ByteSize, s.stop⟩ b := by
  obtain ⟨head, tail, rfl, hstart, hstop⟩ := h
  rw [String.utf8ByteSize_append] at hstop
  refine ⟨⟨head, b ++ tail, ?_, hstart, ?_⟩, ⟨head ++ a, tail, ?_, ?_, ?_⟩⟩
  · simp only [String.append_assoc]
  · simp only [hstart]
  · simp only [String.append_assoc]
  · rw [String.utf8ByteSize_append, hstart]
  · rw [String.utf8ByteSize_append, hstop, Nat.add_assoc]

end Span

/-! ## The parts of a node -/

namespace Code

/-- The direct parts of a node, from left to right. -/
def children : Code → List Code
  | .expression (.placeholder _) | .expression (.name _ _) | .expression (.typeName _ _)
  | .expression (.number _ _) | .expression (.boolean _ _) | .expression (.string _ _)
  | .expression (.null _) => []
  | .expression (.unary _ _ operand) => [.expression operand]
  | .expression (.binary _ _ left right) => [.expression left, .expression right]
  | .expression (.ternary _ condition whenTrue whenFalse) =>
    [.expression condition, .expression whenTrue, .expression whenFalse]
  | .expression (.lambda _ _ body) => [.expression body]
  | .expression (.function _ _ body) => [.statement body]
  | .statement (.expression _ value) => [.expression value]
  | .statement (.assign _ _ target value) => [.expression target, .expression value]
  | .statement (.declare _ _ initializer) => initializer.toList.map .expression
  | .statement (.leave _ value) => value.toList.map .expression
  | .statement (.breakLoop _) | .statement (.continueLoop _) | .statement (.empty _) => []
  | .statement (.block _ body) => body.map .statement
  | .statement (.branch _ condition whenTrue whenFalse) =>
    .expression condition :: .statement whenTrue :: whenFalse.toList.map .statement
  | .statement (.forLoop _ initializer condition iterator body) =>
    initializer.toList.map .statement ++ (condition.toList.map .expression ++
      (iterator.toList.map .statement ++ [.statement body]))
  | .statement (.whileLoop _ condition body) => [.expression condition, .statement body]

theorem listNodes_eq (ss : List Statement) :
    Statement.listNodes ss = (ss.map .statement).flatMap nodes := by
  induction ss with
  | nil => rfl
  | cons s ss ih => simp [Statement.listNodes, ih, nodes]

/-- The nodes of a tree are its root and the nodes of the root's parts. -/
theorem nodes_eq (code : Code) : code.nodes = code :: code.children.flatMap nodes := by
  have hs : ∀ o : Option Statement,
      Statement.optionNodes o = (o.toList.map .statement).flatMap nodes := by
    intro o
    cases o <;> simp [Statement.optionNodes, nodes]
  have he : ∀ o : Option Expr,
      Expr.optionNodes o = (o.toList.map .expression).flatMap nodes := by
    intro o
    cases o <;> simp [Expr.optionNodes, nodes]
  rcases code with e | s
  · cases e <;> simp [nodes, Expr.nodes, children]
  · cases s <;> simp [nodes, Statement.nodes, children, listNodes_eq, hs, he]

/-! ## Nested nodes -/

/-- Whether the span of a node fits the text that it was read from and the spans of its parts. -/
structure IsNested (source : String) (node : Code) : Prop where
  /-- The span lies in the text and between characters. -/
  inText : node.span.InText source
  /-- The parts lie inside the node. -/
  within : ∀ child ∈ node.children, child.span.Within node.span
  /-- The parts stand one behind the other. -/
  ordered : node.children.Pairwise fun left right => left.span.stop ≤ right.span.start
  /-- A name is what stands at its span. -/
  name : ∀ span text, node = .expression (.name span text) → span.slice source = text

/-- Whether trees lie one behind the other between two offsets, with all their nodes nested. -/
structure Row (source : String) (start stop : Nat) (trees : List Code) : Prop where
  le : start ≤ stop
  nested : ∀ tree ∈ trees, ∀ node ∈ tree.nodes, node.IsNested source
  within : ∀ tree ∈ trees, tree.span.Within ⟨start, stop⟩
  ordered : trees.Pairwise fun left right => left.span.stop ≤ right.span.start

namespace Row

variable {source : String} {start stop start' stop' : Nat} {as bs trees : List Code}
  {tree first last : Code}

theorem nil (h : start ≤ stop) : Row source start stop [] :=
  ⟨h, List.forall_mem_nil _, List.forall_mem_nil _, .nil⟩

/-- A row lies between wider offsets as well. -/
theorem mono (h : Row source start stop as) (hstart : start' ≤ start) (hstop : stop ≤ stop') :
    Row source start' stop' as where
  le := Nat.le_trans hstart (Nat.le_trans h.le hstop)
  nested := h.nested
  within tree ht :=
    ⟨Nat.le_trans hstart (h.within tree ht).1, Nat.le_trans (h.within tree ht).2 hstop⟩
  ordered := h.ordered

/-- Two rows, one behind the other, are a row. -/
theorem append (ha : Row source start stop as) (hb : Row source start' stop' bs)
    (hle : stop ≤ start') : Row source start stop' (as ++ bs) where
  le := Nat.le_trans ha.le (Nat.le_trans hle hb.le)
  nested := by
    intro tree ht
    rcases List.mem_append.1 ht with ht | ht
    · exact ha.nested tree ht
    · exact hb.nested tree ht
  within := by
    intro tree ht
    rcases List.mem_append.1 ht with ht | ht
    · exact (ha.mono (Nat.le_refl _) (Nat.le_trans hle hb.le)).within tree ht
    · exact (hb.mono (Nat.le_trans ha.le hle) (Nat.le_refl _)).within tree ht
  ordered := by
    refine List.pairwise_append.2 ⟨ha.ordered, hb.ordered, fun a hma b hmb => ?_⟩
    have h₁ : a.span.stop ≤ stop := (ha.within a hma).2
    have h₂ : start' ≤ b.span.start := (hb.within b hmb).1
    omega

/-- The spans of a row lie in the text. -/
theorem inText (h : Row source start stop trees) (ht : tree ∈ trees) : tree.span.InText source :=
  (h.nested tree ht tree (by rw [nodes_eq]; exact List.mem_cons_self)).inText

/-- A tree is a row between its own ends. -/
theorem alone (h : Row source start stop [tree]) :
    Row source tree.span.start tree.span.stop [tree] where
  le := (h.inText (List.mem_singleton_self _)).ordered
  nested := h.nested
  within := by
    rintro _ (_ | _)
    · exact ⟨Nat.le_refl _, Nat.le_refl _⟩
    · contradiction
  ordered := h.ordered

/-- A tree lies in a row from its own start. -/
theorem tight (h : Row source start stop [tree]) : Row source tree.span.start stop [tree] :=
  h.alone.mono (Nat.le_refl _) (h.within tree (List.mem_singleton_self _)).2

/-- A node whose parts are a row inside its span is a row. -/
theorem node {span : Span} (h : Row source start stop tree.children) (htree : tree.span = span)
    (hspan : span.InText source) (hstart : span.start ≤ start) (hstop : stop ≤ span.stop)
    (hname : ∀ s text, tree = .expression (.name s text) → s.slice source = text) :
    Row source span.start span.stop [tree] where
  le := hspan.ordered
  nested := by
    rintro _ (_ | _) node hnode
    · rw [nodes_eq] at hnode
      rcases List.mem_cons.1 hnode with rfl | hnode
      · refine ⟨?_, ?_, h.ordered, hname⟩
        · rwa [htree]
        · rw [htree]
          exact (h.mono hstart hstop).within
      · obtain ⟨child, hchild, hnode⟩ := List.mem_flatMap.1 hnode
        exact h.nested child hchild node hnode
    · contradiction
  within := by
    rintro _ (_ | _)
    · rw [htree]
      exact ⟨Nat.le_refl _, Nat.le_refl _⟩
    · contradiction
  ordered := List.pairwise_singleton _ _

/-- A node without parts is a row. -/
theorem leaf {span : Span} (hspan : span.InText source) (htree : tree.span = span)
    (hchildren : tree.children = [])
    (hname : ∀ s text, tree = .expression (.name s text) → s.slice source = text) :
    Row source span.start span.stop [tree] := by
  have hparts : Row source span.start span.stop tree.children := by
    rw [hchildren]
    exact nil hspan.ordered
  exact node hparts htree hspan (Nat.le_refl _) (Nat.le_refl _) hname

/-- A node that spans its first and its last part is a row where its parts are. -/
theorem merge (h : Row source start stop (first :: (trees ++ [last])))
    (hchildren : tree.children = first :: (trees ++ [last]))
    (hspan : tree.span = first.span.merge last.span)
    (hname : ∀ span text, tree ≠ .expression (.name span text)) :
    Row source start stop [tree] := by
  have hfirst := h.inText List.mem_cons_self
  have hlast : last.span.InText source := h.inText (by simp)
  obtain ⟨hbehind, hrest⟩ := List.pairwise_cons.1 h.ordered
  obtain ⟨-, -, hfront⟩ := List.pairwise_append.1 hrest
  -- the first part starts in front of all others, the last one ends behind them
  have hparts : Row source (first.span.merge last.span).start (first.span.merge last.span).stop
      tree.children := by
    rw [hchildren]
    refine ⟨(hfirst.merge hlast).ordered, h.nested, fun child hc => ?_, h.ordered⟩
    have hchild := (h.inText hc).ordered
    have h₁ := hfirst.ordered
    have h₂ := hlast.ordered
    simp only [Span.Within, Span.start_merge, Span.stop_merge]
    rcases List.mem_cons.1 hc with rfl | hc
    · omega
    · have h₃ := hbehind child hc
      rcases List.mem_append.1 hc with hc | hc
      · have h₄ := hfront child hc last (List.mem_singleton_self _)
        omega
      · cases List.mem_singleton.1 hc
        omega
  have hf := h.within first List.mem_cons_self
  have hl := h.within last (by simp)
  exact (node hparts hspan (hfirst.merge hlast) (Nat.le_refl _) (Nat.le_refl _)
    fun s text hn => absurd hn (hname s text)).mono (Nat.le_min.2 ⟨hf.1, hl.1⟩)
    (Nat.max_le.2 ⟨hf.2, hl.2⟩)

end Row

end Code

end SearchScript
