import SearchScript.Proofs.Parse.Complete
import SearchScript.Proofs.Token.Placement
import SearchScript.Run.Program

/-!
# The spans that the parser gives

Spans come from tokens, from the spans of parts, from the end of the token read last and, where
something is missing, from the place of the cursor. In both modes they are nested: what was read
lies between the places where the cursor stood before and behind it.

The proof is one induction on the rules. It carries that the tokens that are left stand in the text
behind the one that was read last (`Cursor.Placed`), and gives every phrase the row of the trees
that it reads.

## Key results

- `Reads.row`: what a phrase reads lies between the places of the cursor
- `Code.row_of_parse`: what a whole program reads lies in the text
- `Code.isNested_of_parse`: every node of a tree that is read from a text is nested
-/

namespace SearchScript

namespace Cursor

/-- Whether the tokens that are left stand in a text behind what was read. -/
structure Placed (source : String) (c : Cursor) : Prop where
  rest : Token.Placed source c.stop c.accepted.stop c.rest
  accepted : IsBoundary source c.accepted.stop
  stop : IsBoundary source c.stop

variable {source : String} {c d : Cursor} {t : Token} {mode : ParseMode} {kind : TokenKind}

namespace Placed

/-- What was read ends in front of the cursor. -/
theorem accepted_le (h : c.Placed source) : c.accepted.stop ≤ c.position := by
  have hrest := h.rest
  unfold position
  split
  · next t rest hr =>
    rw [hr] at hrest
    exact hrest.1
  · exact hrest.le

/-- A cursor stands between characters. -/
theorem position (h : c.Placed source) : IsBoundary source c.position := by
  have hrest := h.rest
  unfold Cursor.position
  split
  · next t rest hr =>
    rw [hr] at hrest
    exact hrest.2.1.inText.start
  · exact h.stop

/-- The next token stands where the cursor is. -/
theorem token (h : c.Placed source) (hn : c.next? = some (t, d)) :
    t.span.Spells source t.text ∧ t.span.start = c.position ∧ d.accepted = t.span := by
  obtain ⟨rest, hr, rfl⟩ := next?_eq_some_iff.1 hn
  have hrest := h.rest
  rw [hr] at hrest
  refine ⟨hrest.2.1, ?_, rfl⟩
  simp only [Cursor.position, hr]

/-- The next token is read from where the cursor is. -/
theorem next? (h : c.Placed source) (hn : c.next? = some (t, d)) :
    d.Placed source ∧ c.position ≤ d.accepted.stop ∧ d.accepted.stop ≤ d.position := by
  obtain ⟨hspells, hstart, hstop⟩ := h.token hn
  obtain ⟨rest, hr, rfl⟩ := next?_eq_some_iff.1 hn
  have hrest := h.rest
  rw [hr] at hrest
  have hd : Placed source (c.pass t rest) := ⟨hrest.2.2, hrest.2.1.inText.stop, h.stop⟩
  refine ⟨hd, ?_, hd.accepted_le⟩
  rw [← hstart, hstop]
  exact hspells.inText.ordered

/-- A token that is taken as read ends at the place of the cursor. -/
theorem skip (h : c.Placed source) :
    Placed source { c with accepted := .empty c.position } where
  rest := by
    have hrest := h.rest
    simp only [Span.empty, Cursor.position]
    split
    · next t rest hr =>
      rw [hr] at hrest ⊢
      exact ⟨Nat.le_refl _, hrest.2⟩
    · next hr =>
      rw [hr]
      exact Nat.le_refl _
  accepted := h.position
  stop := h.stop

theorem expect {t? : Option Token} (h : c.Placed source)
    (he : c.expect mode kind = .ok (t?, d)) :
    d.Placed source ∧ c.position ≤ d.accepted.stop ∧ d.accepted.stop ≤ d.position := by
  rcases expect_eq_ok_iff.1 he with ⟨t, -, hn, -⟩ | ⟨-, -, -, rfl⟩
  · exact h.next? hn
  · exact ⟨h.skip, Nat.le_refl _, h.skip.accepted_le⟩

theorem require (h : c.Placed source) (hr : c.require mode kind = .ok d) :
    d.Placed source ∧ c.position ≤ d.accepted.stop ∧ d.accepted.stop ≤ d.position := by
  rcases require_eq_ok_iff.1 hr with ⟨t, hn, -⟩ | ⟨-, -, rfl⟩
  · exact h.next? hn
  · exact ⟨h.skip, Nat.le_refl _, h.skip.accepted_le⟩

/-- The two parts of a negative number stand where the number stood. -/
theorem splitNegative (h : c.Placed source) :
    c.splitNegative.Placed source ∧ c.splitNegative.position = c.position ∧
      c.splitNegative.accepted = c.accepted := by
  unfold Cursor.splitNegative
  split
  · next t rest hr =>
    split
    · next minus number hs =>
      unfold splitToken? at hs
      split at hs <;> cases hs
      next digits hk htext =>
      have hrest := h.rest
      rw [hr] at hrest
      obtain ⟨hstart, hspells, hrest⟩ := hrest
      have htext : t.text = "-" ++ String.ofList digits := by
        rw [← String.ofList_toList (s := t.text), htext, String.ofList_cons]
        rfl
      rw [htext] at hspells
      obtain ⟨hminus, hnumber⟩ := hspells.split
      refine ⟨⟨⟨hstart, hminus, Nat.le_refl _, hnumber, hrest⟩, h.accepted, h.stop⟩, ?_, rfl⟩
      simp only [Cursor.position, hr]
    · exact ⟨h, rfl, rfl⟩
  · exact ⟨h, rfl, rfl⟩

/-- The span from an offset to the end of what was read lies in the text. -/
theorem spanFrom {start : Nat} (h : c.Placed source) (hs : IsBoundary source start) :
    (c.spanFrom start).InText source where
  ordered := Nat.le_max_right _ _
  start := hs
  stop := h.accepted.max hs

end Placed

/-- The cursor at the start of a text stands in front of all tokens. -/
theorem placed_start (h : Parse.start mode source = .ok c) : c.Placed source := by
  unfold Parse.start at h
  split at h
  · cases h
  · split at h <;> cases h
    exact ⟨Nat.le_refl _, .zero _, .zero _⟩
  · next tokens _ hs =>
    cases h
    have hplaced := Token.placed_of_scan hs
    exact ⟨hplaced.tight, .zero _, hplaced.isBoundary (.zero _)⟩

end Cursor

namespace Parse

open Cursor

variable {mode : ParseMode} {source : String} {p : Phrase} {c d : Cursor}

/-- Reading leaves the tokens where they are, and the cursor does not go back. -/
theorem Reads.placed {r : p.Result} (h : Reads mode p c r d) (hc : c.Placed source) :
    d.Placed source ∧ c.position ≤ d.position ∧ c.accepted.stop ≤ d.accepted.stop := by
  induction h with
  | _ =>
    grind [→ Placed.next?, → Placed.expect, → Placed.require, → Placed.splitNegative,
      → Placed.accepted_le, → eq_of_missing, → eq_of_unassigned]

/-! ## The rows of phrases -/

/-- The trees that reading a phrase gives, from left to right. -/
def Phrase.trees : (p : Phrase) → p.Result → List Code
  | expr _, e | operators _ _ _ _, e | arguments, e | functionTail _, e | lambdaTail _, e =>
    [.expression e]
  | operand, e? | condition, e? => e?.toList.map .expression
  | prefixOperator _ _, .more e | operator _ _, .more e => [.expression e]
  | prefixOperator _ _, .done | operator _ _, .done => []
  | params _ _, _ => []
  | statements _, ss => ss.map .statement
  | initializer, s? | iterator, s? => s?.toList.map .statement
  | statement, s | simpleStatement, s | forTail _, s | block, s | declaration, s
  | assignment, s => [.statement s]
  | suffixes _ _ _, (e, _) => [.expression e]

/-- Where what a phrase reads starts at the earliest: at the cursor, or where the phrase was begun
that it is the rest of. -/
def Phrase.from (c : Cursor) : Phrase → Nat
  | operators _ start _ none | prefixOperator _ start | functionTail start | lambdaTail start
  | forTail start => start
  | operators _ _ _ (some node) | operator _ node | suffixes _ node _ => node.span.start
  | expr _ | operand | arguments | params _ _ | statements _ | statement | simpleStatement
  | initializer | condition | iterator | block | declaration | assignment => c.position

/-- Where what a phrase reads ends at the latest: a statement and a part of a header with the token
that ends it, an expression in front of the next token. -/
def Phrase.upTo (d : Cursor) : Phrase → Nat
  | statement | simpleStatement | forTail _ | initializer | condition | iterator | block
  | functionTail _ => d.accepted.stop
  | _ => d.position

/-- What has to hold of the part of a phrase that was read before. -/
def Phrase.Begun (source : String) (c : Cursor) : Phrase → Prop
  | operators _ start _ none | prefixOperator _ start | functionTail start | lambdaTail start
  | forTail start => IsBoundary source start ∧ start ≤ c.position
  | operators _ _ _ (some node) | operator _ node | suffixes _ node _ =>
    Code.Row source node.span.start c.position [.expression node]
  | _ => True

section

variable {t : Token} {e left right : Expr} {op : BinaryOp} {tree : Code}
  {start mid mid' stop stop' last : Nat}

/-- A literal or a name stands at its token. -/
theorem row_of_atomOf? (ht : t.span.Spells source t.text) (h : atomOf? t = some e) :
    Code.Row source t.span.start t.span.stop [.expression e] := by
  unfold atomOf? at h
  split at h
  case h_1 =>
    cases h
    refine .leaf ht.inText rfl rfl ?_
    rintro span text ⟨⟩
    exact ht.slice_eq
  case h_8 =>
    split at h <;> cases h
    exact .leaf ht.inText rfl rfl nofun
  case h_9 => cases h
  all_goals
    cases h
    exact .leaf ht.inText rfl rfl nofun

/-- A name stands at its token. -/
theorem row_name (hc : c.Placed source) (hn : c.next? = some (t, d)) (hk : t.kind = .identifier) :
    t.span.start = c.position ∧
      Code.Row source t.span.start d.position [.expression (.name t.span t.text)] := by
  obtain ⟨hspells, hstart, hstop⟩ := hc.token hn
  obtain ⟨-, -, hle⟩ := hc.next? hn
  have hname : atomOf? t = some (.name t.span t.text) := by
    simp only [atomOf?, hk]
  exact ⟨hstart, (row_of_atomOf? hspells hname).mono (Nat.le_refl _) (hstop ▸ hle)⟩

/-- An expression that is used as a statement spans the same text. -/
theorem row_ofExpr (h : Code.Row source start stop [.expression e]) :
    Code.Row source start stop [.statement (.ofExpr e)] := by
  obtain ⟨hstart, hstop⟩ := h.within _ (List.mem_singleton_self _)
  have hspan : e.span.InText source := h.inText (List.mem_singleton_self _)
  exact (Code.Row.node h.alone rfl hspan (Nat.le_refl _) (Nat.le_refl _) (by nofun)).mono
    hstart hstop

/-- A binary node spans its operands. -/
theorem row_join (hl : Code.Row source start mid [.expression left])
    (hr : Code.Row source mid' stop [.expression right]) (hle : mid ≤ mid') :
    Code.Row source start stop [.expression (.join op left right)] := by
  have hparts : Code.Row source start stop
      (.expression left :: ([] ++ [.expression right])) := hl.append hr hle
  exact hparts.merge rfl rfl nofun

/-- What is read behind a binary node starts at the left operand at the earliest. -/
theorem row_more {trees : List Code} (hl : Code.Row source left.span.start mid [.expression left])
    (hr : Code.Row source mid' stop [.expression right]) (hle : mid ≤ mid') (hstop : stop ≤ stop')
    (h : Code.Row source (Expr.join op left right).span.start stop'
        [.expression (.join op left right)] →
      Code.Row source (Expr.join op left right).span.start last trees) :
    Code.Row source left.span.start last trees := by
  have hnode : Code.Row source left.span.start stop' [.expression (.join op left right)] :=
    (row_join hl hr hle).mono (Nat.le_refl _) hstop
  obtain ⟨hstart, -⟩ := hnode.within _ (List.mem_singleton_self _)
  exact (h hnode.tight).mono hstart (Nat.le_refl _)

/-- A node that spans everything from an offset to the token read last. -/
theorem row_spanFrom (hd : d.Placed source) (hs : IsBoundary source start)
    (htree : tree.span = d.spanFrom start) (hname : ∀ s text, tree ≠ .expression (.name s text))
    (hparts : Code.Row source start d.accepted.stop tree.children) :
    Code.Row source start d.accepted.stop [tree] := by
  have hle := hparts.le
  refine (hparts.node htree (hd.spanFrom hs) (Nat.le_refl _) (Nat.le_max_left _ _)
    fun s text hn => absurd hn (hname s text)).mono (Nat.le_refl _) ?_
  exact Nat.max_le.2 ⟨Nat.le_refl _, hle⟩

/-- A node that spans everything from an offset to the end of its only part, which may lie behind
the token read last. -/
theorem row_spanFrom_merge (hd : d.Placed source) (hs : IsBoundary source start)
    (htree : tree.span = (d.spanFrom start).merge e.span)
    (hchildren : tree.children = [.expression e])
    (hname : ∀ s text, tree ≠ .expression (.name s text))
    (hpart : Code.Row source mid d.position [.expression e]) (hle : start ≤ mid) :
    Code.Row source start d.position [tree] := by
  have hacc := hd.accepted_le
  have hmid := hpart.le
  have hin : e.span.InText source := hpart.inText (List.mem_singleton_self _)
  obtain ⟨hstart, hstop⟩ := hpart.within _ (List.mem_singleton_self _)
  have hparts : Code.Row source e.span.start e.span.stop tree.children := by
    rw [hchildren]
    exact hpart.alone
  simp only [Code.span] at hstart hstop
  refine (hparts.node htree ((hd.spanFrom hs).merge hin) (Nat.min_le_right _ _)
    (Nat.le_max_right _ _) fun s text hn => absurd hn (hname s text)).mono ?_ ?_
  · simp only [Span.start_merge, spanFrom]
    omega
  · simp only [Span.stop_merge, spanFrom]
    omega

end

/-- What a phrase reads lies between the places of the cursor. -/
theorem Reads.row {r : p.Result} (h : Reads mode p c r d) (hc : c.Placed source)
    (hp : p.Begun source c) : Code.Row source (p.from c) (p.upTo d) (p.trees r) := by
  induction h with
  | exprFunction hn _ hf ih =>
    obtain ⟨hc₁, h₁, h₁'⟩ := hc.next? hn
    have hd := (hf.placed hc₁).1.accepted_le
    exact (ih hc₁ ⟨hc.position, by omega⟩).mono (Nat.le_refl _) hd
  | exprLambda hn _ _ ih =>
    obtain ⟨hc₁, h₁, h₁'⟩ := hc.next? hn
    exact ih hc₁ ⟨hc.position, by omega⟩
  | @exprOperators _ _ node? _ _ _ _ _ ho _ iho ihs =>
    cases node? with
    | none =>
      cases ho
      exact ihs hc ⟨hc.position, Nat.le_refl _⟩
    | some left =>
      -- the operators start from the operand, which stands at the cursor or behind it
      have hleft := iho hc trivial
      obtain ⟨hstart, -⟩ := hleft.within _ (List.mem_singleton_self _)
      exact (ihs (ho.placed hc).1 hleft.tight).mono hstart (Nat.le_refl _)
  | operandParens hn _ he hr ih =>
    obtain ⟨hc₁, h₁, h₁'⟩ := hc.next? hn
    obtain ⟨-, h₂, h₂'⟩ := (he.placed hc₁).1.require hr
    exact (ih hc₁ trivial).mono (Nat.le_trans h₁ h₁') (Nat.le_trans h₂ h₂')
  | operandAtom hn ha =>
    obtain ⟨hspells, hstart, hstop⟩ := hc.token hn
    obtain ⟨-, -, h₁'⟩ := hc.next? hn
    exact (row_of_atomOf? hspells ha).mono (Nat.le_of_eq hstart.symm) (hstop ▸ h₁')
  | operandNone => exact .nil (Nat.le_refl _)
  | operatorsPrefix _ hs _ ihs ih =>
    have hnode := ihs hc hp
    obtain ⟨hstart, -⟩ := hnode.within _ (List.mem_singleton_self _)
    exact (ih (hs.placed hc).1 hnode.tight).mono hstart (Nat.le_refl _)
  | operatorsMissing _ hs hm =>
    cases mode with
    | strict => cases hm
    | tolerant =>
      -- the missing expression has no width and stands at the cursor
      cases hm
      cases hs
      exact (Code.Row.leaf (.empty hc.position) rfl rfl (by nofun)).mono hp.2 (Nat.le_refl _)
  | operatorsMore _ hs _ ihs ih =>
    obtain ⟨hc', hpos, -⟩ := hc.splitNegative
    have hnode := ihs hc' (by rw [Phrase.Begun, hpos]; exact hp)
    obtain ⟨hstart, -⟩ := hnode.within _ (List.mem_singleton_self _)
    exact (ih (hs.placed hc').1 hnode.tight).mono hstart (Nat.le_refl _)
  | operatorsDone _ hs =>
    obtain ⟨hc', hpos, -⟩ := hc.splitNegative
    obtain ⟨-, hle, -⟩ := hs.placed hc'
    exact hp.mono (Nat.le_refl _) (hpos ▸ hle)
  | prefixDone => exact .nil hp.2
  | prefixUnary hn _ _ he ih =>
    obtain ⟨hc₁, h₁, h₁'⟩ := hc.next? hn
    have hstart := hp.2
    exact row_spanFrom_merge (he.placed hc₁).1 hp.1 rfl rfl nofun (ih hc₁ trivial)
      (Nat.le_trans hstart (Nat.le_trans h₁ h₁'))
  | infixDone => exact .nil hp.le
  | infixMember hn _ _ _ ih | infixCall hn _ _ _ ih | infixBinary hn _ _ _ ih =>
    obtain ⟨hc₁, h₁, h₁'⟩ := hc.next? hn
    exact row_join hp (ih hc₁ trivial) (Nat.le_trans h₁ h₁')
  | infixSubscript hn _ _ he hr ih =>
    obtain ⟨hc₁, h₁, h₁'⟩ := hc.next? hn
    obtain ⟨-, h₂, h₂'⟩ := (he.placed hc₁).1.require hr
    exact (row_join hp (ih hc₁ trivial) (Nat.le_trans h₁ h₁')).mono (Nat.le_refl _)
      (Nat.le_trans h₂ h₂')
  | infixTernary hn _ _ he hr _ ihe ih =>
    obtain ⟨hc₁, h₁, h₁'⟩ := hc.next? hn
    obtain ⟨hc₃, h₂, h₂'⟩ := (he.placed hc₁).1.require hr
    have hparts := (hp.append (ihe hc₁ trivial) (Nat.le_trans h₁ h₁')).append (ih hc₃ trivial)
      (Nat.le_trans h₂ h₂')
    exact hparts.merge rfl rfl nofun
  | argumentsNone hn _ =>
    -- the empty list of arguments has no width and stands behind the parentheses
    obtain ⟨hc₁, h₁, h₁'⟩ := hc.next? hn
    exact (Code.Row.leaf (.empty hc₁.position) rfl rfl (by nofun)).mono (Nat.le_trans h₁ h₁')
      (Nat.le_refl _)
  | argumentsSome _ he hr ih =>
    obtain ⟨-, h₁, h₁'⟩ := (he.placed hc).1.require hr
    exact (ih hc trivial).mono (Nat.le_refl _) (Nat.le_trans h₁ h₁')
  | functionMissing hm hb ih =>
    obtain ⟨hc₁, h₁, h₁'⟩ := hc.expect hm
    have hstart := hp.2
    exact row_spanFrom (hb.placed hc₁).1 hp.1 rfl nofun
      ((ih hc₁ trivial).mono (Nat.le_trans hstart (Nat.le_trans h₁ h₁')) (Nat.le_refl _))
  | functionBare hm hn _ hb ih =>
    obtain ⟨hc₁, h₁, h₁'⟩ := hc.expect hm
    obtain ⟨hc₂, h₂, h₂'⟩ := hc₁.next? hn
    have hstart := hp.2
    exact row_spanFrom (hb.placed hc₂).1 hp.1 rfl nofun
      ((ih hc₂ trivial).mono (by simp only [Phrase.from]; omega) (Nat.le_refl _))
  | functionParams hm _ hs hb _ ih =>
    obtain ⟨hc₁, h₁, h₁'⟩ := hc.expect hm
    obtain ⟨hc₂, h₂, -⟩ := hs.placed hc₁
    have hstart := hp.2
    exact row_spanFrom (hb.placed hc₂).1 hp.1 rfl nofun
      ((ih hc₂ trivial).mono (by simp only [Phrase.from]; omega) (Nat.le_refl _))
  | lambda hs he _ ih =>
    obtain ⟨hc₁, h₁, -⟩ := hs.placed hc
    exact row_spanFrom_merge (he.placed hc₁).1 hp.1 rfl rfl nofun (ih hc₁ trivial)
      (Nat.le_trans hp.2 h₁)
  | paramsNone _ hm =>
    obtain ⟨-, h₁, h₁'⟩ := hc.expect hm
    exact .nil (Nat.le_trans h₁ h₁')
  | paramsLast _ hm hn _ =>
    obtain ⟨hc₁, h₁, h₁'⟩ := hc.expect hm
    obtain ⟨-, h₂, h₂'⟩ := hc₁.next? hn
    exact .nil (by simp only [Phrase.from, Phrase.upTo]; omega)
  | paramsCut _ hm _ hq =>
    obtain ⟨hc₁, h₁, h₁'⟩ := hc.expect hm
    obtain ⟨-, h₂, h₂'⟩ := hc₁.expect hq
    exact .nil (by simp only [Phrase.from, Phrase.upTo]; omega)
  | paramsMore _ hm _ hq hs _ =>
    obtain ⟨hc₁, h₁, h₁'⟩ := hc.expect hm
    obtain ⟨hc₂, h₂, h₂'⟩ := hc₁.expect hq
    obtain ⟨-, h₃, -⟩ := hs.placed hc₂
    exact .nil (by simp only [Phrase.from, Phrase.upTo]; omega)
  | statementsDone => exact .nil (Nat.le_refl _)
  | statementsMore _ _ _ hs _ ihs ih =>
    have hc₁ := (hs.placed hc).1
    exact (ihs hc trivial).append (ih hc₁ trivial) hc₁.accepted_le
  | statementBlock _ _ ih | statementSimple _ _ ih => exact ih hc trivial
  | statementReturn hn _ hn' _ =>
    obtain ⟨hc₁, h₁, h₁'⟩ := hc.next? hn
    obtain ⟨hc₂, h₂, -⟩ := hc₁.next? hn'
    exact row_spanFrom hc₂ hc.position rfl nofun (.nil (by simp only [Phrase.from]; omega))
  | statementReturnValue hn _ _ he hr ih =>
    obtain ⟨hc₁, h₁, h₁'⟩ := hc.next? hn
    obtain ⟨hc₃, h₃, -⟩ := (he.placed hc₁).1.require hr
    exact row_spanFrom hc₃ hc.position rfl nofun
      ((ih hc₁ trivial).mono (Nat.le_trans h₁ h₁') h₃)
  | statementBreak hn _ hr | statementContinue hn _ hr =>
    obtain ⟨hc₁, h₁, h₁'⟩ := hc.next? hn
    obtain ⟨hc₂, h₂, -⟩ := hc₁.require hr
    exact row_spanFrom hc₂ hc.position rfl nofun (.nil (by simp only [Phrase.from]; omega))
  | statementIf hn _ hq he hr hs _ ihe ihs =>
    obtain ⟨hc₁, h₁, h₁'⟩ := hc.next? hn
    obtain ⟨hc₂, h₂, h₂'⟩ := hc₁.require hq
    obtain ⟨hc₄, h₄, h₄'⟩ := (he.placed hc₂).1.require hr
    exact row_spanFrom (hs.placed hc₄).1 hc.position rfl nofun
      (((ihe hc₂ trivial).append (ihs hc₄ trivial) (Nat.le_trans h₄ h₄')).mono
        (by simp only [Phrase.from]; omega) (Nat.le_refl _))
  | statementIfElse hn _ hq he hr hs hn' _ hs' ihe ihs ihs' =>
    obtain ⟨hc₁, h₁, h₁'⟩ := hc.next? hn
    obtain ⟨hc₂, h₂, h₂'⟩ := hc₁.require hq
    obtain ⟨hc₄, h₄, h₄'⟩ := (he.placed hc₂).1.require hr
    have hc₅ := (hs.placed hc₄).1
    have h₅ := hc₅.accepted_le
    obtain ⟨hc₆, h₆, h₆'⟩ := hc₅.next? hn'
    have hparts := ((ihe hc₂ trivial).append (ihs hc₄ trivial) (Nat.le_trans h₄ h₄')).append
      (ihs' hc₆ trivial) (by simp only [Phrase.from, Phrase.upTo]; omega)
    exact row_spanFrom (hs'.placed hc₆).1 hc.position rfl nofun
      (hparts.mono (by simp only [Phrase.from]; omega) (Nat.le_refl _))
  | statementFor hn _ _ ih =>
    obtain ⟨hc₁, h₁, h₁'⟩ := hc.next? hn
    exact ih hc₁ ⟨hc.position, Nat.le_trans h₁ h₁'⟩
  | statementWhile hn _ hq he hr hs ihe ihs =>
    obtain ⟨hc₁, h₁, h₁'⟩ := hc.next? hn
    obtain ⟨hc₂, h₂, h₂'⟩ := hc₁.require hq
    obtain ⟨hc₄, h₄, h₄'⟩ := (he.placed hc₂).1.require hr
    exact row_spanFrom (hs.placed hc₄).1 hc.position rfl nofun
      (((ihe hc₂ trivial).append (ihs hc₄ trivial) (Nat.le_trans h₄ h₄')).mono
        (by simp only [Phrase.from]; omega) (Nat.le_refl _))
  | statementEmpty hn _ =>
    obtain ⟨-, h₁, -⟩ := hc.next? hn
    exact (Code.Row.leaf (.empty hc.position) rfl rfl (by nofun)).mono (Nat.le_refl _) h₁
  | simple hs hr ih =>
    obtain ⟨-, h₁, -⟩ := (hs.placed hc).1.require hr
    exact (ih hc trivial).mono (Nat.le_refl _) h₁
  | forLoop hr hi he hs hb ihi ihe ihs ih =>
    obtain ⟨hc₁, h₁, h₁'⟩ := hc.require hr
    have hc₂ := (hi.placed hc₁).1
    have hc₃ := (he.placed hc₂).1
    have hc₄ := (hs.placed hc₃).1
    have hparts := (ihi hc₁ trivial).append ((ihe hc₂ trivial).append
      ((ihs hc₃ trivial).append (ih hc₄ trivial) hc₄.accepted_le) hc₃.accepted_le)
      hc₂.accepted_le
    have hstart := hp.2
    exact row_spanFrom (hb.placed hc₄).1 hp.1 rfl nofun
      (hparts.mono (by simp only [Phrase.from]; omega) (Nat.le_refl _))
  | initializerNone hn _ | conditionNone hn _ | iteratorNone hn _ =>
    obtain ⟨-, h₁, -⟩ := hc.next? hn
    exact .nil h₁
  | initializerSome _ hs hr ih | conditionSome _ hs hr ih | iteratorSome _ hs hr ih =>
    obtain ⟨-, h₁, -⟩ := (hs.placed hc).1.require hr
    exact (ih hc trivial).mono (Nat.le_refl _) h₁
  | block hq hs hr ih =>
    obtain ⟨hc₁, h₁, h₁'⟩ := hc.require hq
    obtain ⟨hc₃, h₃, -⟩ := (hs.placed hc₁).1.require hr
    exact row_spanFrom hc₃ hc.position rfl nofun
      ((ih hc₁ trivial).mono (Nat.le_trans h₁ h₁') h₃)
  | declarationAssignment _ _ ih => exact ih hc trivial
  | @declarationBare c _ _ _ c₂ hn _ hm _ =>
    obtain ⟨hc₁, h₁, h₁'⟩ := hc.next? hn
    obtain ⟨hc₂, h₂, h₂'⟩ := hc₁.expect hm
    have hle : c.position ≤ c₂.accepted.stop := by omega
    exact (row_spanFrom hc₂ hc.position rfl (by nofun) (.nil hle)).mono (Nat.le_refl _) h₂'
  | declarationValue hn _ hm _ hr he ih =>
    obtain ⟨hc₁, h₁, h₁'⟩ := hc.next? hn
    obtain ⟨hc₂, h₂, h₂'⟩ := hc₁.expect hm
    obtain ⟨hc₃, h₃, h₃'⟩ := hc₂.require hr
    exact row_spanFrom_merge (he.placed hc₃).1 hc.position rfl rfl nofun (ih hc₃ trivial)
      (by simp only [Phrase.from]; omega)
  | assignmentCall hn hk _ ih =>
    obtain ⟨hstart, hname⟩ := row_name hc hn hk
    exact (row_ofExpr (ih (hc.next? hn).1 hname)).mono (Nat.le_of_eq hstart.symm) (Nat.le_refl _)
  | assignmentValue hn hk hs hn' _ _ ihs ih =>
    obtain ⟨hstart, hname⟩ := row_name hc hn hk
    have hc₁ := (hc.next? hn).1
    obtain ⟨hc₃, h₃, h₃'⟩ := (hs.placed hc₁).1.next? hn'
    have hparts := (ihs hc₁ hname).append (ih hc₃ trivial) (Nat.le_trans h₃ h₃')
    exact (hparts.merge rfl rfl (by nofun)).mono (Nat.le_of_eq hstart.symm) (Nat.le_refl _)
  | assignmentMissing hn hk _ _ hm ih =>
    cases mode with
    | strict => cases hm
    | tolerant =>
      cases hm
      obtain ⟨hstart, hname⟩ := row_name hc hn hk
      exact (row_ofExpr (ih (hc.next? hn).1 hname)).mono (Nat.le_of_eq hstart.symm) (Nat.le_refl _)
  | suffixesDone => exact hp
  | suffixesMember _ hn _ he _ ihe ih | suffixesCall _ hn _ he _ ihe ih =>
    obtain ⟨hc₁, h₁, h₁'⟩ := hc.next? hn
    exact row_more hp (ihe hc₁ trivial) (Nat.le_trans h₁ h₁') (Nat.le_refl _)
      (ih (he.placed hc₁).1)
  | suffixesSubscript _ hn _ he hr _ ihe ih =>
    obtain ⟨hc₁, h₁, h₁'⟩ := hc.next? hn
    obtain ⟨hc₃, h₃, h₃'⟩ := (he.placed hc₁).1.require hr
    exact row_more hp (ihe hc₁ trivial) (Nat.le_trans h₁ h₁') (Nat.le_trans h₃ h₃') (ih hc₃)

end Parse

open Parse

/-- A script spans its statements: it ends where the cursor stands behind them, which is in front of
no token. -/
private theorem row_script {source : String} {c d : Cursor} {body : List Statement}
    (hc : c.Placed source) (hd : d.Placed source)
    (h : Code.Row source c.position d.position (body.map .statement)) :
    Code.Row source c.position d.position [.statement (.block ⟨c.position, d.position⟩ body)] := by
  have hspan : Span.InText source ⟨c.position, d.position⟩ := ⟨h.le, hc.position, hd.position⟩
  exact @Code.Row.node source c.position d.position (.statement (.block _ body))
    ⟨c.position, d.position⟩ h rfl hspan (Nat.le_refl _) (Nat.le_refl _) nofun

/-- A tree that is read from a text lies between two places of the text. -/
theorem Code.row_of_parse {mode : ParseMode} {isScript : Bool} {source : String} {code : Code}
    (h : Code.parse mode isScript source = .ok code) :
    ∃ start stop, Code.Row source start stop [code] := by
  cases isScript with
  | true =>
    obtain ⟨s, hs, rfl⟩ := Except.map_eq_ok_iff.1 h
    obtain ⟨c, body, d, hc, hr, -, rfl⟩ := Statement.parseScript_eq_ok_iff.1 hs
    have hc := Cursor.placed_start hc
    exact ⟨_, _, row_script hc (hr.placed hc).1 (hr.row hc trivial)⟩
  | false =>
    obtain ⟨e, he, rfl⟩ := Except.map_eq_ok_iff.1 h
    obtain ⟨c, d, hc, hr, -⟩ := Expr.parse_eq_ok_iff.1 he
    exact ⟨_, _, hr.row (Cursor.placed_start hc) trivial⟩

/-- The nodes of a tree that is read from a text, complete or unfinished, are nested: each spans a
part of the text between characters, with the spans of its parts inside its own, one behind the
other, and each name is what stands at its span. -/
theorem Code.isNested_of_parse {mode : ParseMode} {isScript : Bool} {source : String} {code : Code}
    (h : Code.parse mode isScript source = .ok code) :
    ∀ node ∈ code.nodes, node.IsNested source ∧ node.span.stop ≤ source.utf8ByteSize := by
  obtain ⟨start, stop, hrow⟩ := Code.row_of_parse h
  intro node hnode
  have hnested := hrow.nested code (List.mem_singleton_self _) node hnode
  exact ⟨hnested, hnested.inText.stop_le⟩

/-- An unfinished script with an empty list of arguments, a number that is split, a character of
two bytes and an expression that is missing. -/
theorem Code.isNested_of_parse_of_unfinished :
    ∃ code, Code.parse .tolerant true "if (a( ).b -1 == \"é\") \x7b let c = -" = .ok code ∧
      ∀ node ∈ code.nodes, node.IsNested "if (a( ).b -1 == \"é\") \x7b let c = -" ∧
        node.span.stop ≤ "if (a( ).b -1 == \"é\") \x7b let c = -".utf8ByteSize := by
  have hparse : (Code.parse .tolerant true "if (a( ).b -1 == \"é\") \x7b let c = -").isOk = true := by
    decide +kernel
  cases hcode : Code.parse .tolerant true "if (a( ).b -1 == \"é\") \x7b let c = -" with
  | error e =>
    rw [hcode] at hparse
    cases hparse
  | ok code => exact ⟨code, rfl, Code.isNested_of_parse hcode⟩

end SearchScript
